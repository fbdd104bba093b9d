import Sealedge.WitnessJws

namespace Sealedge

namespace JsonValue

/-- The entries of a map under construction: a field that is absent is left out. -/
def fieldsOf (fields : List (String × Option JsonValue)) : JsonValue :=
  object (fields.filterMap (fun f => f.2.map (fun v => (f.1, v))))

/-- `Number::from_f64`; what is not finite becomes `null`. -/
def ofF64 (f : F64) : JsonValue :=
  if f.isFinite then number (.float f) else null

def ofU64 (n : UInt64) : JsonValue := number (.posInt n)

/-- The integer under `device.key_epoch`, if there is one. -/
def keyEpoch (manifest : JsonValue) : Option UInt64 :=
  ((manifest.get "device").bind (fun d => d.get "key_epoch")).bind asU64

end JsonValue

open JsonValue

/-- Labels are left out when there are none. -/
def Labels.toValue (l : Labels) : Option JsonValue :=
  if l.isEmpty then none
  else some (.object (l.entries.map (fun e => (e.1, .string e.2))))

def ProfileMetadata.toValue : ProfileMetadata → JsonValue
  | camVideo m => fieldsOf
    [("codec", some (.string m.codec)), ("ended_at", some (.string m.endedAt)),
     ("fps", some (ofF64 m.fps)), ("resolution", some (.string m.resolution)),
     ("started_at", some (.string m.startedAt)), ("timezone", some (.string m.timezone))]
  | sensor m => fieldsOf
    [("altitude", m.altitude.map ofF64), ("ended_at", some (.string m.endedAt)),
     ("labels", m.labels.toValue), ("latitude", m.latitude.map ofF64),
     ("longitude", m.longitude.map ofF64), ("sample_rate_hz", some (ofF64 m.sampleRateHz)),
     ("sensor_model", some (.string m.sensorModel)), ("started_at", some (.string m.startedAt)),
     ("unit", some (.string m.unit))]
  | audio m => fieldsOf
    [("bit_depth", some (ofU64 m.bitDepth.toUInt64)), ("channels", some (ofU64 m.channels.toUInt64)),
     ("codec", some (.string m.codec)), ("ended_at", some (.string m.endedAt)),
     ("sample_rate_hz", some (ofU64 m.sampleRateHz.toUInt64)),
     ("started_at", some (.string m.startedAt))]
  | log m => fieldsOf
    [("application", some (.string m.application)), ("ended_at", some (.string m.endedAt)),
     ("host", some (.string m.host)), ("log_format", some (.string m.logFormat)),
     ("log_level", some (.string m.logLevel)), ("started_at", some (.string m.startedAt))]
  | generic m => fieldsOf
    [("data_type", m.dataType.map .string), ("description", m.description.map .string),
     ("ended_at", some (.string m.endedAt)), ("labels", m.labels.toValue),
     ("mime_type", m.mimeType.map .string), ("source", m.source.map .string),
     ("started_at", some (.string m.startedAt))]

def DeviceInfo.toValue (d : DeviceInfo) : JsonValue := fieldsOf
  [("firmware_version", some (.string d.firmwareVersion)), ("id", some (.string d.id)),
   ("key_agreement_public", d.keyAgreementPublic.map .string),
   ("key_epoch", d.keyEpoch.map (fun e => ofU64 e.toUInt64)), ("model", some (.string d.model)),
   ("public_key", some (.string d.publicKey))]

def SegmentInfo.toValue (s : SegmentInfo) : JsonValue := fieldsOf
  [("blake3_hash", some (.string s.blake3Hash)), ("chunk_file", some (.string s.chunkFile)),
   ("continuity_hash", some (.string s.continuityHash)),
   ("duration_seconds", some (ofF64 s.durationSeconds)), ("start_time", some (.string s.startTime))]

def RecipientEntry.toValue (r : RecipientEntry) : JsonValue := fieldsOf
  [("enc", some (.string r.enc)), ("recipient_id", some (.string r.recipientId)),
   ("recipient_pub", some (.string r.recipientPub)), ("wrapped_cek", some (.string r.wrappedCek))]

def EncryptionBlock.toValue (e : EncryptionBlock) : JsonValue := fieldsOf
  [("content_aead", some (.string e.contentAead)),
   ("hpke", some (fieldsOf
     [("aead", some (.string e.hpke.aead)), ("kdf", some (.string e.hpke.kdf)),
      ("kem", some (.string e.hpke.kem))])),
   ("recipients", some (.array (e.recipients.map RecipientEntry.toValue)))]

/-- `serde_json::to_value` on a manifest; the map orders the fields by name. -/
def TrstManifest.toValue (m : TrstManifest) : JsonValue := fieldsOf
  [("chunk", some (fieldsOf
     [("duration_seconds", some (ofF64 m.chunk.durationSeconds)),
      ("size_bytes", some (ofU64 m.chunk.sizeBytes))])),
   ("claims", some (.array (m.claims.map .string))), ("device", some m.device.toValue),
   ("encryption", m.encryption.map EncryptionBlock.toValue),
   ("metadata", some m.metadata.toValue), ("prev_archive_hash", m.prevArchiveHash.map .string),
   ("profile", some (.string m.profile)),
   ("segments", some (.array (m.segments.map SegmentInfo.toValue))),
   ("sequence", m.sequence.map ofU64), ("signature", m.signature.map .string),
   ("trst_version", some (.string m.trstVersion))]

namespace JsonValue

theorem get_fieldsOf (key : String) (fields : List (String × Option JsonValue)) :
    (fieldsOf fields).get key =
      (fields.find? (fun f => f.1 == key && f.2.isSome)).bind (fun f => f.2) := by
  unfold fieldsOf get
  induction fields with
  | nil => rfl
  | cons f rest ih =>
    obtain ⟨name, v⟩ := f
    cases v with
    | none => simpa using ih
    | some v =>
      by_cases hname : name = key
      · simp [hname]
      · simpa [hname] using ih

end JsonValue

theorem TrstManifest.get_toValue_device (m : TrstManifest) :
    m.toValue.get "device" = some m.device.toValue := by
  unfold toValue
  rw [get_fieldsOf]
  simp

theorem TrstManifest.get_toValue_version (m : TrstManifest) :
    m.toValue.get "trst_version" = some (.string m.trstVersion) := by
  unfold toValue
  rw [get_fieldsOf]
  cases m.encryption <;> cases m.prevArchiveHash <;> cases m.sequence <;> cases m.signature <;> simp

theorem TrstManifest.keyEpoch_toValue (m : TrstManifest) :
    m.toValue.keyEpoch = m.device.keyEpoch.map UInt32.toUInt64 := by
  unfold JsonValue.keyEpoch
  rw [get_toValue_device, Option.bind_some, DeviceInfo.toValue, get_fieldsOf]
  cases hepoch : m.device.keyEpoch with
  | none => simp
  | some e => simp [ofU64, asU64]

end Sealedge
