import Sealedge.JsonText
import Sealedge.ManifestValue

namespace Sealedge

/-- `as f64` of an integer: to nearest, ties to even. -/
def F64.ofNat (n : Nat) : F64 :=
  if n = 0 then ⟨0⟩
  else
    let e := Nat.log2 n
    let significand :=
      if e ≤ 52 then n * 2 ^ (52 - e)
      else
        let unit := 2 ^ (e - 52)
        let rest := n % unit
        if unit < 2 * rest ∨ (2 * rest = unit ∧ n / unit % 2 = 1) then n / unit + 1 else n / unit
    -- a significand that rounding carries past its width moves on into the exponent
    ⟨UInt64.ofNat ((e + 1023) * 2 ^ 52 + (significand - 2 ^ 52))⟩

def F64.ofInt (n : Int) : F64 :=
  if n < 0 then ⟨(F64.ofNat n.natAbs).bits ||| 0x8000000000000000⟩ else F64.ofNat n.natAbs

example : F64.ofNat 30 = ⟨0x403e000000000000⟩ := by decide
example : F64.ofNat (2 ^ 53 + 1) = ⟨0x4340000000000000⟩ := by decide +kernel
example : F64.ofNat (2 ^ 64 - 1) = ⟨0x43f0000000000000⟩ := by decide +kernel

namespace JsonValue

/-- An `f64` is read from any number. -/
def asF64 : JsonValue → Option F64
  | number (.float f) => some f
  | number (.posInt n) => some (F64.ofNat n.toNat)
  | number (.negInt n) => some (F64.ofInt n.toInt)
  | _ => none

/-- An unsigned integer below a bound. -/
def asBelow (bound : Nat) (v : JsonValue) : Option Nat :=
  (v.asU64.map UInt64.toNat).filter (· < bound)

end JsonValue

/-- The fields of a struct as a derived reader finds them: by name in an object or in order in an
array. -/
structure StructDoc where
  find : String → Option JsonValue
  named : Bool

/-- A document read as a struct with these fields. In an object other names are ignored and none
of these may come twice; an array has no more items than fields. -/
def JsonValue.asStruct (names : List String) : JsonValue → Option StructDoc
  | .object fields =>
    if names.all fun name => fields.countP (fun f => f.1 == name) ≤ 1 then
      some ⟨fun name => (fields.find? fun f => f.1 == name).map Prod.snd, true⟩
    else none
  | .array items =>
    if items.length ≤ names.length then some ⟨fun name => items[names.idxOf name]?, false⟩ else none
  | _ => none

namespace StructDoc

variable {α : Type} (d : StructDoc)

def required (name : String) (read : JsonValue → Option α) : Option α :=
  (d.find name).bind read

/-- A value or `null`. -/
def orNull (read : JsonValue → Option α) : JsonValue → Option (Option α)
  | .null => some none
  | v => (read v).map some

/-- An `Option` field; without a default it may be left out of an object only. -/
def optional (name : String) (read : JsonValue → Option α) : Option (Option α) :=
  match d.find name with
  | some v => orNull read v
  | none => if d.named then some none else none

/-- A field with `#[serde(default)]`. -/
def defaulted (name : String) (default : α) (read : JsonValue → Option α) : Option α :=
  match d.find name with
  | some v => read v
  | none => some default

end StructDoc

/-- `BTreeMap::insert` among sorted entries. -/
def insertEntry (key value : String) : List (String × String) → List (String × String)
  | [] => [(key, value)]
  | e :: rest =>
    if key < e.1 then (key, value) :: e :: rest
    else if key = e.1 then (key, value) :: rest
    else e :: insertEntry key value rest

theorem mem_insertEntry {key value : String} {e : String × String}
    {entries : List (String × String)} (h : e ∈ insertEntry key value entries) :
    e = (key, value) ∨ e ∈ entries := by
  induction entries with
  | nil => simpa [insertEntry] using h
  | cons d rest ih =>
    unfold insertEntry at h
    split at h
    next => simpa using h
    next =>
      split at h
      next =>
        rcases List.mem_cons.mp h with h | h
        · exact .inl h
        · exact .inr (List.mem_cons_of_mem _ h)
      next =>
        rcases List.mem_cons.mp h with h | h
        · exact .inr (h ▸ List.mem_cons_self)
        · rcases ih h with h | h
          · exact .inl h
          · exact .inr (List.mem_cons_of_mem _ h)

theorem insertEntry_sorted {key value : String} {entries : List (String × String)}
    (h : entries.Pairwise fun a b => a.1 < b.1) :
    (insertEntry key value entries).Pairwise fun a b => a.1 < b.1 := by
  induction entries with
  | nil => simp [insertEntry]
  | cons e rest ih =>
    obtain ⟨hfirst, hrest⟩ := List.pairwise_cons.mp h
    unfold insertEntry
    split
    next hlt =>
      refine List.pairwise_cons.mpr ⟨fun d hd => ?_, h⟩
      rcases List.mem_cons.mp hd with rfl | hd
      · exact hlt
      · exact String.lt_trans hlt (hfirst d hd)
    next hge =>
      split
      next heq =>
        refine List.pairwise_cons.mpr ⟨fun d hd => ?_, hrest⟩
        rw [heq]
        exact hfirst d hd
      next hne =>
        refine List.pairwise_cons.mpr ⟨fun d hd => ?_, ih hrest⟩
        rcases mem_insertEntry hd with rfl | hd
        · by_contra hnot
          exact hne (String.le_antisymm (String.not_lt.mp hnot) (String.not_lt.mp hge))
        · exact hfirst d hd

def Labels.insert (l : Labels) (key value : String) : Labels :=
  ⟨insertEntry key value l.entries, insertEntry_sorted l.sorted⟩

/-- `BTreeMap<String, String>` from an object of strings. -/
def Labels.fromValue : JsonValue → Option Labels
  | .object fields =>
    fields.foldlM (fun l f => f.2.asStr.map fun value => l.insert f.1 value) Labels.empty
  | _ => none

open JsonValue

def GenericMetadata.fromValue (v : JsonValue) : Option GenericMetadata := do
  let d ← v.asStruct ["started_at", "ended_at", "data_type", "source", "description", "mime_type",
    "labels"]
  pure {
    startedAt := ← d.required "started_at" asStr
    endedAt := ← d.required "ended_at" asStr
    dataType := ← d.optional "data_type" asStr
    source := ← d.optional "source" asStr
    description := ← d.optional "description" asStr
    mimeType := ← d.optional "mime_type" asStr
    labels := ← d.defaulted "labels" .empty Labels.fromValue }

def CamVideoMetadata.fieldNames : List String :=
  ["started_at", "ended_at", "timezone", "fps", "resolution", "codec"]

def CamVideoMetadata.fromValue (v : JsonValue) : Option CamVideoMetadata := do
  let d ← v.asStruct fieldNames
  pure {
    startedAt := ← d.required "started_at" asStr
    endedAt := ← d.required "ended_at" asStr
    timezone := ← d.required "timezone" asStr
    fps := ← d.required "fps" asF64
    resolution := ← d.required "resolution" asStr
    codec := ← d.required "codec" asStr }

def SensorMetadata.fromValue (v : JsonValue) : Option SensorMetadata := do
  let d ← v.asStruct ["started_at", "ended_at", "sample_rate_hz", "unit", "sensor_model",
    "latitude", "longitude", "altitude", "labels"]
  pure {
    startedAt := ← d.required "started_at" asStr
    endedAt := ← d.required "ended_at" asStr
    sampleRateHz := ← d.required "sample_rate_hz" asF64
    unit := ← d.required "unit" asStr
    sensorModel := ← d.required "sensor_model" asStr
    latitude := ← d.optional "latitude" asF64
    longitude := ← d.optional "longitude" asF64
    altitude := ← d.optional "altitude" asF64
    labels := ← d.defaulted "labels" .empty Labels.fromValue }

def AudioMetadata.fromValue (v : JsonValue) : Option AudioMetadata := do
  let d ← v.asStruct ["started_at", "ended_at", "sample_rate_hz", "bit_depth", "channels", "codec"]
  pure {
    startedAt := ← d.required "started_at" asStr
    endedAt := ← d.required "ended_at" asStr
    sampleRateHz := UInt32.ofNat (← d.required "sample_rate_hz" (asBelow (2 ^ 32)))
    bitDepth := UInt16.ofNat (← d.required "bit_depth" (asBelow (2 ^ 16)))
    channels := UInt8.ofNat (← d.required "channels" (asBelow (2 ^ 8)))
    codec := ← d.required "codec" asStr }

def LogMetadata.fromValue (v : JsonValue) : Option LogMetadata := do
  let d ← v.asStruct ["started_at", "ended_at", "application", "host", "log_level", "log_format"]
  pure {
    startedAt := ← d.required "started_at" asStr
    endedAt := ← d.required "ended_at" asStr
    application := ← d.required "application" asStr
    host := ← d.required "host" asStr
    logLevel := ← d.required "log_level" asStr
    logFormat := ← d.required "log_format" asStr }

/-- The untagged reader: the first variant whose struct can be read. -/
def ProfileMetadata.fromValue (v : JsonValue) : Option ProfileMetadata :=
  ((CamVideoMetadata.fromValue v).map camVideo).or <|
  ((SensorMetadata.fromValue v).map sensor).or <|
  ((AudioMetadata.fromValue v).map audio).or <|
  ((LogMetadata.fromValue v).map log).or <|
  (GenericMetadata.fromValue v).map generic

def DeviceInfo.fromValue (v : JsonValue) : Option DeviceInfo := do
  let d ← v.asStruct ["id", "model", "firmware_version", "public_key", "key_agreement_public",
    "key_epoch"]
  pure {
    id := ← d.required "id" asStr
    model := ← d.required "model" asStr
    firmwareVersion := ← d.required "firmware_version" asStr
    publicKey := ← d.required "public_key" asStr
    keyAgreementPublic := ← d.defaulted "key_agreement_public" none (StructDoc.orNull asStr)
    keyEpoch := ← d.defaulted "key_epoch" none
      (StructDoc.orNull fun v => (v.asBelow (2 ^ 32)).map UInt32.ofNat) }

def ChunkInfo.fromValue (v : JsonValue) : Option ChunkInfo := do
  let d ← v.asStruct ["size_bytes", "duration_seconds"]
  pure {
    sizeBytes := ← d.required "size_bytes" asU64
    durationSeconds := ← d.required "duration_seconds" asF64 }

def SegmentInfo.fromValue (v : JsonValue) : Option SegmentInfo := do
  let d ← v.asStruct ["chunk_file", "blake3_hash", "start_time", "duration_seconds",
    "continuity_hash"]
  pure {
    chunkFile := ← d.required "chunk_file" asStr
    blake3Hash := ← d.required "blake3_hash" asStr
    startTime := ← d.required "start_time" asStr
    durationSeconds := ← d.required "duration_seconds" asF64
    continuityHash := ← d.required "continuity_hash" asStr }

def HpkeSuite.fromValue (v : JsonValue) : Option HpkeSuite := do
  let d ← v.asStruct ["kem", "kdf", "aead"]
  pure {
    kem := ← d.required "kem" asStr
    kdf := ← d.required "kdf" asStr
    aead := ← d.required "aead" asStr }

def RecipientEntry.fromValue (v : JsonValue) : Option RecipientEntry := do
  let d ← v.asStruct ["recipient_id", "recipient_pub", "enc", "wrapped_cek"]
  pure {
    recipientId := ← d.required "recipient_id" asStr
    recipientPub := ← d.required "recipient_pub" asStr
    enc := ← d.required "enc" asStr
    wrappedCek := ← d.required "wrapped_cek" asStr }

/-- A `Vec`. -/
def listFromValue {α : Type} (read : JsonValue → Option α) (v : JsonValue) : Option (List α) :=
  v.asArray.bind fun items => items.mapM read

def EncryptionBlock.fromValue (v : JsonValue) : Option EncryptionBlock := do
  let d ← v.asStruct ["content_aead", "hpke", "recipients"]
  pure {
    contentAead := ← d.required "content_aead" asStr
    hpke := ← d.required "hpke" HpkeSuite.fromValue
    recipients := ← d.required "recipients" (listFromValue RecipientEntry.fromValue) }

def TrstManifest.fieldNames : List String :=
  ["trst_version", "profile", "device", "metadata", "chunk", "segments", "claims", "encryption",
   "sequence", "prev_archive_hash", "signature"]

def TrstManifest.fromValue (v : JsonValue) : Option TrstManifest := do
  let d ← v.asStruct fieldNames
  pure {
    trstVersion := ← d.required "trst_version" asStr
    profile := ← d.required "profile" asStr
    device := ← d.required "device" DeviceInfo.fromValue
    metadata := ← d.required "metadata" ProfileMetadata.fromValue
    chunk := ← d.required "chunk" ChunkInfo.fromValue
    segments := ← d.required "segments" (listFromValue SegmentInfo.fromValue)
    claims := ← d.required "claims" (listFromValue asStr)
    encryption := ← d.defaulted "encryption" none (StructDoc.orNull EncryptionBlock.fromValue)
    sequence := ← d.defaulted "sequence" none (StructDoc.orNull asU64)
    prevArchiveHash := ← d.optional "prev_archive_hash" asStr
    signature := ← d.optional "signature" asStr }

end Sealedge
