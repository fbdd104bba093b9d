import Sealedge.ManifestDocument
import Sealedge.ManifestInjective

namespace Sealedge

open JsonValue

/-- Named fields of a struct in the order of its declaration; one that is skipped has no value. -/
abbrev Entries := List (String × Option JsonValue)

def GenericMetadata.entries (m : GenericMetadata) : Entries :=
  [("started_at", some (.string m.startedAt)), ("ended_at", some (.string m.endedAt)),
   ("data_type", m.dataType.map .string), ("source", m.source.map .string),
   ("description", m.description.map .string), ("mime_type", m.mimeType.map .string),
   ("labels", m.labels.toValue)]

def CamVideoMetadata.entries (m : CamVideoMetadata) : Entries :=
  [("started_at", some (.string m.startedAt)), ("ended_at", some (.string m.endedAt)),
   ("timezone", some (.string m.timezone)), ("fps", some (ofF64 m.fps)),
   ("resolution", some (.string m.resolution)), ("codec", some (.string m.codec))]

def SensorMetadata.entries (m : SensorMetadata) : Entries :=
  [("started_at", some (.string m.startedAt)), ("ended_at", some (.string m.endedAt)),
   ("sample_rate_hz", some (ofF64 m.sampleRateHz)), ("unit", some (.string m.unit)),
   ("sensor_model", some (.string m.sensorModel)), ("latitude", m.latitude.map ofF64),
   ("longitude", m.longitude.map ofF64), ("altitude", m.altitude.map ofF64),
   ("labels", m.labels.toValue)]

def AudioMetadata.entries (m : AudioMetadata) : Entries :=
  [("started_at", some (.string m.startedAt)), ("ended_at", some (.string m.endedAt)),
   ("sample_rate_hz", some (ofU64 m.sampleRateHz.toUInt64)),
   ("bit_depth", some (ofU64 m.bitDepth.toUInt64)), ("channels", some (ofU64 m.channels.toUInt64)),
   ("codec", some (.string m.codec))]

def LogMetadata.entries (m : LogMetadata) : Entries :=
  [("started_at", some (.string m.startedAt)), ("ended_at", some (.string m.endedAt)),
   ("application", some (.string m.application)), ("host", some (.string m.host)),
   ("log_level", some (.string m.logLevel)), ("log_format", some (.string m.logFormat))]

/-- A variant stands without a tag. -/
def ProfileMetadata.entries : ProfileMetadata → Entries
  | camVideo m => m.entries
  | sensor m => m.entries
  | audio m => m.entries
  | log m => m.entries
  | generic m => m.entries

def DeviceInfo.entries (d : DeviceInfo) : Entries :=
  [("id", some (.string d.id)), ("model", some (.string d.model)),
   ("firmware_version", some (.string d.firmwareVersion)),
   ("public_key", some (.string d.publicKey)),
   ("key_agreement_public", d.keyAgreementPublic.map .string),
   ("key_epoch", d.keyEpoch.map fun e => ofU64 e.toUInt64)]

def ChunkInfo.entries (c : ChunkInfo) : Entries :=
  [("size_bytes", some (ofU64 c.sizeBytes)), ("duration_seconds", some (ofF64 c.durationSeconds))]

def SegmentInfo.entries (s : SegmentInfo) : Entries :=
  [("chunk_file", some (.string s.chunkFile)), ("blake3_hash", some (.string s.blake3Hash)),
   ("start_time", some (.string s.startTime)),
   ("duration_seconds", some (ofF64 s.durationSeconds)),
   ("continuity_hash", some (.string s.continuityHash))]

def HpkeSuite.entries (h : HpkeSuite) : Entries :=
  [("kem", some (.string h.kem)), ("kdf", some (.string h.kdf)), ("aead", some (.string h.aead))]

def RecipientEntry.entries (r : RecipientEntry) : Entries :=
  [("recipient_id", some (.string r.recipientId)), ("recipient_pub", some (.string r.recipientPub)),
   ("enc", some (.string r.enc)), ("wrapped_cek", some (.string r.wrappedCek))]

/-- The fields of an encryption block, given the documents of its parts. -/
def EncryptionBlock.entriesWith (e : EncryptionBlock) (hpke : JsonValue)
    (recipients : List JsonValue) : Entries :=
  [("content_aead", some (.string e.contentAead)), ("hpke", some hpke),
   ("recipients", some (.array recipients))]

/-- The fields of a manifest, given the documents of its parts. -/
def TrstManifest.entriesWith (m : TrstManifest) (device metadata chunk : JsonValue)
    (segments : List JsonValue) (encryption : Option JsonValue) : Entries :=
  [("trst_version", some (.string m.trstVersion)), ("profile", some (.string m.profile)),
   ("device", some device), ("metadata", some metadata), ("chunk", some chunk),
   ("segments", some (.array segments)), ("claims", some (.array (m.claims.map .string))),
   ("encryption", encryption), ("sequence", m.sequence.map ofU64),
   ("prev_archive_hash", m.prevArchiveHash.map .string),
   ("signature", m.signature.map .string)]

def EncryptionBlock.toDocument (e : EncryptionBlock) : JsonValue :=
  fieldsOf (e.entriesWith (fieldsOf e.hpke.entries)
    (e.recipients.map fun r => fieldsOf r.entries))

/-- A manifest as a text has it: the fields in the order of their declaration. -/
def TrstManifest.toDocument (m : TrstManifest) : JsonValue :=
  fieldsOf (m.entriesWith (fieldsOf m.device.entries) (fieldsOf m.metadata.entries)
    (fieldsOf m.chunk.entries) (m.segments.map fun s => fieldsOf s.entries)
    (m.encryption.map EncryptionBlock.toDocument))

/-- The `manifest_json` of `ArchiveWriter::finalize`. -/
def manifestText (js : JsonCrate) (m : TrstManifest) : String :=
  String.ofList (render js (some 0) m.toDocument)

/-- `serde_json::from_slice::<TrstManifest>`. -/
def readManifestText (js : JsonCrate) (bytes : Bytes) : Option TrstManifest :=
  (js.parse bytes).bind TrstManifest.fromValue

section Lookup

/-- An object without repeated names that holds what the entries say, and nothing where they have
no value. -/
structure Lists (v : JsonValue) (entries : Entries) : Prop where
  isObject : ∃ fields, v = .object fields ∧ (fields.map Prod.fst).Nodup
  holds : ∀ e ∈ entries, v.get e.1 = e.2

/-- The fields of an object by their names. -/
def namedDoc (v : JsonValue) : StructDoc :=
  ⟨fun name => v.get name, true⟩

theorem Lists.asStruct {v : JsonValue} {entries : Entries} (h : Lists v entries)
    (names : List String) : v.asStruct names = some (namedDoc v) := by
  obtain ⟨fields, rfl, hnodup⟩ := h.isObject
  have honce : (names.all fun name => fields.countP (fun f => f.1 == name) ≤ 1) = true := by
    rw [List.all_eq_true]
    intro name _
    have hcount := List.nodup_iff_count_le_one.mp hnodup name
    rw [List.count, List.countP_map] at hcount
    exact decide_eq_true hcount
  rw [JsonValue.asStruct, if_pos honce]
  rfl

theorem fields_sublist (fields : Entries) :
    ((fields.filterMap fun f => f.2.map fun v => (f.1, v)).map Prod.fst).Sublist
      (fields.map Prod.fst) := by
  induction fields with
  | nil => exact List.Sublist.slnil
  | cons f rest ih =>
    obtain ⟨name, v⟩ := f
    cases v with
    | none => exact ih.cons name
    | some v => exact ih.cons_cons name

theorem get_fieldsOf_of_mem {fields : Entries} (hnodup : (fields.map Prod.fst).Nodup)
    {e : String × Option JsonValue} (h : e ∈ fields) : (fieldsOf fields).get e.1 = e.2 := by
  rw [get_fieldsOf]
  obtain ⟨name, v⟩ := e
  cases hfound : fields.find? fun f => f.1 == name && f.2.isSome with
  | none =>
    have hnone := List.find?_eq_none.mp hfound (name, v) h
    cases v with
    | none => rfl
    | some v => simp at hnone
  | some f =>
    have hname : f.1 = name := by
      have := List.find?_some hfound
      simp only [Bool.and_eq_true, beq_iff_eq] at this
      exact this.1
    have hf := List.inj_on_of_nodup_map hnodup (List.mem_of_find?_eq_some hfound) h hname
    rw [hf]
    rfl

theorem get_fieldsOf_absent {fields : Entries} {name : String}
    (h : name ∉ fields.map Prod.fst) : (fieldsOf fields).get name = none := by
  rw [get_fieldsOf]
  have hnone : (fields.find? fun f => f.1 == name && f.2.isSome) = none := by
    rw [List.find?_eq_none]
    intro f hf
    have hne : f.1 ≠ name := fun he => h (he ▸ List.mem_map_of_mem hf)
    simp [hne]
  rw [hnone]
  rfl

theorem lists_fieldsOf {fields entries : Entries} (hnodup : (fields.map Prod.fst).Nodup)
    (h : ∀ e ∈ entries, e ∈ fields) : Lists (fieldsOf fields) entries :=
  ⟨⟨_, rfl, hnodup.sublist (fields_sublist fields)⟩,
    fun e he => get_fieldsOf_of_mem hnodup (h e he)⟩

end Lookup

section Fields

variable {α : Type} {doc : JsonValue} {name : String}

theorem required_eq {read : JsonValue → Option α} {v : JsonValue} (h : doc.get name = some v) :
    (namedDoc doc).required name read = read v := by
  simp [StructDoc.required, namedDoc, h]

theorem optional_string {s : Option String} (h : doc.get name = s.map .string) :
    (namedDoc doc).optional name asStr = some s := by
  cases s <;> simp [StructDoc.optional, namedDoc, h, StructDoc.orNull, asStr]

theorem defaulted_string {s : Option String} (h : doc.get name = s.map .string) :
    (namedDoc doc).defaulted name none (StructDoc.orNull asStr) = some s := by
  cases s <;> simp [StructDoc.defaulted, namedDoc, h, StructDoc.orNull, asStr]

theorem asF64_ofF64 {f : F64} (h : f.isFinite = true) : (ofF64 f).asF64 = some f := by
  simp [ofF64, h, asF64]

theorem optional_f64 {f : Option F64} (hf : ∀ g ∈ f.toList, g.isFinite = true)
    (h : doc.get name = f.map ofF64) :
    (namedDoc doc).optional name asF64 = some f := by
  cases f with
  | none => simp [StructDoc.optional, namedDoc, h]
  | some g =>
    have hg : g.isFinite = true := hf g (by simp)
    simp [StructDoc.optional, namedDoc, h, ofF64, hg, StructDoc.orNull, asF64]

theorem asBelow_ofU64 {n : UInt64} {bound : Nat} (h : n.toNat < bound) :
    (ofU64 n).asBelow bound = some n.toNat := by
  simp [JsonValue.asBelow, ofU64, asU64, h]

end Fields

section Labels

theorem insertEntry_last {key value : String} {entries : List (String × String)}
    (h : ∀ e ∈ entries, e.1 < key) : insertEntry key value entries = entries ++ [(key, value)] := by
  induction entries with
  | nil => rfl
  | cons e rest ih =>
    have he := h e List.mem_cons_self
    have hnot : ¬ key < e.1 := fun hlt => String.lt_irrefl _ (String.lt_trans hlt he)
    have hne : key ≠ e.1 := fun heq => String.lt_irrefl _ (heq ▸ he)
    rw [insertEntry, if_neg hnot, if_neg hne, ih fun d hd => h d (List.mem_cons_of_mem _ hd)]
    rfl

theorem Labels.fromValue_toValue {l : Labels} {v : JsonValue} (h : l.toValue = some v) :
    Labels.fromValue v = some l := by
  have hfold : ∀ (rest : List (String × String)) (front : Labels),
      (front.entries ++ rest).Pairwise (fun a b => a.1 < b.1) →
      ∃ l', (rest.map fun e => (e.1, JsonValue.string e.2)).foldlM
          (fun (l : Labels) f => f.2.asStr.map fun value => l.insert f.1 value) front = some l' ∧
        l'.entries = front.entries ++ rest := by
    intro rest
    induction rest with
    | nil =>
      intro front _
      exact ⟨front, rfl, (List.append_nil _).symm⟩
    | cons e rest ih =>
      intro front hsorted
      have hbelow : ∀ d ∈ front.entries, d.1 < e.1 := fun d hd =>
        (List.pairwise_append.mp hsorted).2.2 d hd e List.mem_cons_self
      have hinsert : (front.insert e.1 e.2).entries = front.entries ++ [e] :=
        insertEntry_last hbelow
      obtain ⟨l', hl', hentries⟩ := ih (front.insert e.1 e.2) (by
        rw [hinsert, List.append_assoc]
        exact hsorted)
      refine ⟨l', ?_, by rw [hentries, hinsert, List.append_assoc]; rfl⟩
      rw [List.map_cons, List.foldlM_cons]
      exact hl'
  unfold Labels.toValue at h
  split at h
  next => simp at h
  next =>
    cases Option.some.inj h
    obtain ⟨l', hl', hentries⟩ := hfold l.entries Labels.empty (by
      rw [Labels.empty, List.nil_append]
      exact l.sorted)
    rw [Labels.fromValue, hl']
    cases l
    cases l'
    simp only [Labels.empty, List.nil_append] at hentries
    subst hentries
    rfl

theorem defaulted_labels {doc : JsonValue} {name : String} {l : Labels}
    (h : doc.get name = l.toValue) :
    (namedDoc doc).defaulted name Labels.empty Labels.fromValue = some l := by
  unfold StructDoc.defaulted
  simp only [namedDoc, h]
  cases hv : l.toValue with
  | some v => exact Labels.fromValue_toValue hv
  | none =>
    have hempty : l.entries = [] := by
      unfold Labels.toValue at hv
      split at hv
      next he => exact List.isEmpty_iff.mp he
      next => simp at hv
    cases l
    simp only at hempty
    subst hempty
    rfl

end Labels

section Structs

variable {v : JsonValue}

theorem CamVideoMetadata.fromValue_of_lists {m : CamVideoMetadata} (h : Lists v m.entries)
    (hfinite : m.fps.isFinite = true) : CamVideoMetadata.fromValue v = some m := by
  obtain ⟨hstart, hend, hzone, hfps, hresolution, hcodec, -⟩ := by
    simpa only [entries, List.forall_mem_cons] using h.holds
  simp [CamVideoMetadata.fromValue, h.asStruct, required_eq hstart, required_eq hend,
    required_eq hzone, required_eq hfps, required_eq hresolution, required_eq hcodec,
    asF64_ofF64 hfinite, asStr]

theorem SensorMetadata.fromValue_of_lists {m : SensorMetadata} (h : Lists v m.entries)
    (hfinite : ∀ f ∈ (ProfileMetadata.sensor m).floats, f.isFinite = true) :
    SensorMetadata.fromValue v = some m := by
  obtain ⟨hstart, hend, hrate, hunit, hmodel, hlat, hlon, halt, hlabels, -⟩ := by
    simpa only [entries, List.forall_mem_cons] using h.holds
  simp only [ProfileMetadata.floats, List.forall_mem_cons, List.forall_mem_append] at hfinite
  obtain ⟨frate, ⟨flat, flon⟩, falt⟩ := hfinite
  simp [SensorMetadata.fromValue, h.asStruct, required_eq hstart, required_eq hend,
    required_eq hrate, required_eq hunit, required_eq hmodel, optional_f64 flat hlat,
    optional_f64 flon hlon, optional_f64 falt halt, defaulted_labels hlabels, asF64_ofF64 frate,
    asStr]

theorem AudioMetadata.fromValue_of_lists {m : AudioMetadata} (h : Lists v m.entries) :
    AudioMetadata.fromValue v = some m := by
  obtain ⟨hstart, hend, hrate, hdepth, hchannels, hcodec, -⟩ := by
    simpa only [entries, List.forall_mem_cons] using h.holds
  have hrate' : (ofU64 m.sampleRateHz.toUInt64).asBelow (2 ^ 32) = some m.sampleRateHz.toNat :=
    asBelow_ofU64 m.sampleRateHz.toNat_lt
  have hdepth' : (ofU64 m.bitDepth.toUInt64).asBelow (2 ^ 16) = some m.bitDepth.toNat :=
    asBelow_ofU64 m.bitDepth.toNat_lt
  have hchannels' : (ofU64 m.channels.toUInt64).asBelow (2 ^ 8) = some m.channels.toNat :=
    asBelow_ofU64 m.channels.toNat_lt
  simp [AudioMetadata.fromValue, h.asStruct, required_eq hstart, required_eq hend,
    required_eq hrate, required_eq hdepth, required_eq hchannels, required_eq hcodec, hrate',
    hdepth', hchannels', asStr, -Nat.reducePow]

theorem LogMetadata.fromValue_of_lists {m : LogMetadata} (h : Lists v m.entries) :
    LogMetadata.fromValue v = some m := by
  obtain ⟨hstart, hend, happ, hhost, hlevel, hformat, -⟩ := by
    simpa only [entries, List.forall_mem_cons] using h.holds
  simp [LogMetadata.fromValue, h.asStruct, required_eq hstart, required_eq hend,
    required_eq happ, required_eq hhost, required_eq hlevel, required_eq hformat, asStr]

theorem GenericMetadata.fromValue_of_lists {m : GenericMetadata} (h : Lists v m.entries) :
    GenericMetadata.fromValue v = some m := by
  obtain ⟨hstart, hend, htype, hsource, hdescription, hmime, hlabels, -⟩ := by
    simpa only [entries, List.forall_mem_cons] using h.holds
  simp [GenericMetadata.fromValue, h.asStruct, required_eq hstart, required_eq hend,
    optional_string htype, optional_string hsource, optional_string hdescription,
    optional_string hmime, defaulted_labels hlabels, asStr]

theorem DeviceInfo.fromValue_of_lists {d : DeviceInfo} (h : Lists v d.entries) :
    DeviceInfo.fromValue v = some d := by
  obtain ⟨hid, hmodel, hversion, hkey, hagreement, hepoch, -⟩ := by
    simpa only [entries, List.forall_mem_cons] using h.holds
  have hepoch' : (namedDoc v).defaulted "key_epoch" none
      (StructDoc.orNull fun v => (v.asBelow (2 ^ 32)).map UInt32.ofNat) = some d.keyEpoch := by
    unfold StructDoc.defaulted
    simp only [namedDoc, hepoch]
    cases d.keyEpoch with
    | none => rfl
    | some e =>
      have he : (ofU64 e.toUInt64).asBelow (2 ^ 32) = some e.toNat := asBelow_ofU64 e.toNat_lt
      show (((ofU64 e.toUInt64).asBelow (2 ^ 32)).map UInt32.ofNat).map some = some (some e)
      rw [he]
      simp
  simp [DeviceInfo.fromValue, h.asStruct, required_eq hid, required_eq hmodel,
    required_eq hversion, required_eq hkey, defaulted_string hagreement, hepoch', asStr,
    -Nat.reducePow]

theorem ChunkInfo.fromValue_of_lists {c : ChunkInfo} (h : Lists v c.entries)
    (hfinite : c.durationSeconds.isFinite = true) : ChunkInfo.fromValue v = some c := by
  obtain ⟨hsize, hduration, -⟩ := by
    simpa only [entries, List.forall_mem_cons] using h.holds
  simp [ChunkInfo.fromValue, h.asStruct, required_eq hsize, required_eq hduration,
    asF64_ofF64 hfinite, ofU64, asU64]

theorem SegmentInfo.fromValue_of_lists {s : SegmentInfo} (h : Lists v s.entries)
    (hfinite : s.durationSeconds.isFinite = true) : SegmentInfo.fromValue v = some s := by
  obtain ⟨hfile, hhash, hstart, hduration, hlink, -⟩ := by
    simpa only [entries, List.forall_mem_cons] using h.holds
  simp [SegmentInfo.fromValue, h.asStruct, required_eq hfile, required_eq hhash,
    required_eq hstart, required_eq hduration, required_eq hlink, asF64_ofF64 hfinite, asStr]

theorem HpkeSuite.fromValue_of_lists {s : HpkeSuite} (h : Lists v s.entries) :
    HpkeSuite.fromValue v = some s := by
  obtain ⟨hkem, hkdf, haead, -⟩ := by
    simpa only [entries, List.forall_mem_cons] using h.holds
  simp [HpkeSuite.fromValue, h.asStruct, required_eq hkem, required_eq hkdf, required_eq haead,
    asStr]

theorem RecipientEntry.fromValue_of_lists {r : RecipientEntry} (h : Lists v r.entries) :
    RecipientEntry.fromValue v = some r := by
  obtain ⟨hid, hpub, henc, hwrapped, -⟩ := by
    simpa only [entries, List.forall_mem_cons] using h.holds
  simp [RecipientEntry.fromValue, h.asStruct, required_eq hid, required_eq hpub,
    required_eq henc, required_eq hwrapped, asStr]

theorem listFromValue_map {α : Type} {read : JsonValue → Option α} {write : α → JsonValue}
    {items : List α} (h : ∀ item ∈ items, read (write item) = some item) :
    listFromValue read (.array (items.map write)) = some items := by
  show (items.map write).mapM read = some items
  induction items with
  | nil => rfl
  | cons item rest ih =>
    rw [List.map_cons, List.mapM_cons, h item List.mem_cons_self,
      ih fun i hi => h i (List.mem_cons_of_mem _ hi)]
    rfl

/-- An encryption block from a document of its fields, if its parts are read back. -/
theorem EncryptionBlock.fromValue_of_lists {e : EncryptionBlock} {hpke : JsonValue}
    {write : RecipientEntry → JsonValue} (h : Lists v (e.entriesWith hpke (e.recipients.map write)))
    (hhpke : HpkeSuite.fromValue hpke = some e.hpke)
    (hwrite : ∀ r, RecipientEntry.fromValue (write r) = some r) :
    EncryptionBlock.fromValue v = some e := by
  obtain ⟨haead, hsuite, hrecipients, -⟩ := by
    simpa only [entriesWith, List.forall_mem_cons] using h.holds
  simp [EncryptionBlock.fromValue, h.asStruct, required_eq haead, required_eq hsuite,
    required_eq hrecipients, hhpke, listFromValue_map fun r _ => hwrite r, asStr]

end Structs

section Variants

variable {v : JsonValue}

theorem required_absent {α : Type} {read : JsonValue → Option α} {name : String}
    (h : v.get name = none) : (namedDoc v).required name read = none := by
  simp [StructDoc.required, namedDoc, h]

/-- A field that only the struct of a variant has and that this struct requires. -/
def ProfileMetadata.ownField : ProfileMetadata → Option String
  | camVideo _ => some "timezone"
  | sensor _ => some "unit"
  | audio _ => some "bit_depth"
  | log _ => some "application"
  | generic _ => none

def ProfileMetadata.ownFields : List String :=
  ["timezone", "unit", "bit_depth", "application"]

/-- Untagged metadata come back as the variant that was written: a struct tried before it requires
a field that the document does not have. -/
theorem ProfileMetadata.fromValue_of_lists {m : ProfileMetadata} (h : Lists v m.entries)
    (habsent : ∀ name ∈ ownFields, m.ownField ≠ some name → v.get name = none)
    (hfinite : ∀ f ∈ m.floats, f.isFinite = true) : ProfileMetadata.fromValue v = some m := by
  simp only [ownFields, List.forall_mem_cons] at habsent
  obtain ⟨hzone, hunit, hdepth, happ, -⟩ := habsent
  have hcam : v.get "timezone" = none → CamVideoMetadata.fromValue v = none := fun hnone => by
    simp [CamVideoMetadata.fromValue, h.asStruct, required_absent hnone]
  have hsensor : v.get "unit" = none → SensorMetadata.fromValue v = none := fun hnone => by
    simp [SensorMetadata.fromValue, h.asStruct, required_absent hnone]
  have haudio : v.get "bit_depth" = none → AudioMetadata.fromValue v = none := fun hnone => by
    simp [AudioMetadata.fromValue, h.asStruct, required_absent hnone]
  have hlog : v.get "application" = none → LogMetadata.fromValue v = none := fun hnone => by
    simp [LogMetadata.fromValue, h.asStruct, required_absent hnone]
  unfold ProfileMetadata.fromValue
  cases m with
  | camVideo m =>
    have hread := CamVideoMetadata.fromValue_of_lists h (hfinite m.fps (by simp [floats]))
    simp [hread]
  | sensor m =>
    have hread := SensorMetadata.fromValue_of_lists h hfinite
    simp [hcam (hzone (by simp [ownField])), hread]
  | audio m =>
    have hread := AudioMetadata.fromValue_of_lists h
    simp [hcam (hzone (by simp [ownField])), hsensor (hunit (by simp [ownField])), hread]
  | log m =>
    have hread := LogMetadata.fromValue_of_lists h
    simp [hcam (hzone (by simp [ownField])), hsensor (hunit (by simp [ownField])),
      haudio (hdepth (by simp [ownField])), hread]
  | generic m =>
    have hread := GenericMetadata.fromValue_of_lists h
    simp [hcam (hzone (by simp [ownField])), hsensor (hunit (by simp [ownField])),
      haudio (hdepth (by simp [ownField])), hlog (happ (by simp [ownField])), hread]

/-- Documents of the parts of a manifest. -/
structure PartsRead (m : TrstManifest) (device metadata chunk : JsonValue)
    (segment : SegmentInfo → JsonValue) (encryption : EncryptionBlock → JsonValue) : Prop where
  device : DeviceInfo.fromValue device = some m.device
  metadata : ProfileMetadata.fromValue metadata = some m.metadata
  chunk : ChunkInfo.fromValue chunk = some m.chunk
  segments : ∀ s ∈ m.segments, SegmentInfo.fromValue (segment s) = some s
  encryption : ∀ e ∈ m.encryption, ∃ fields, encryption e = .object fields ∧
    EncryptionBlock.fromValue (encryption e) = some e

theorem TrstManifest.fromValue_of_lists {m : TrstManifest} {device metadata chunk : JsonValue}
    {segment : SegmentInfo → JsonValue} {encryption : EncryptionBlock → JsonValue}
    (h : Lists v (m.entriesWith device metadata chunk (m.segments.map segment)
      (m.encryption.map encryption)))
    (hparts : PartsRead m device metadata chunk segment encryption) :
    TrstManifest.fromValue v = some m := by
  obtain ⟨hversion, hprofile, hdevice, hmetadata, hchunk, hsegments, hclaims, hencryption,
    hsequence, hprev, hsignature, -⟩ := by
    simpa only [entriesWith, List.forall_mem_cons] using h.holds
  have hclaims' : listFromValue asStr (.array (m.claims.map .string)) = some m.claims :=
    listFromValue_map fun _ _ => rfl
  have hencryption' : (namedDoc v).defaulted "encryption" none
      (StructDoc.orNull EncryptionBlock.fromValue) = some m.encryption := by
    unfold StructDoc.defaulted
    simp only [namedDoc, hencryption]
    cases he : m.encryption with
    | none => rfl
    | some e =>
      obtain ⟨fields, hobject, hread⟩ := hparts.encryption e he
      simp only [Option.map_some]
      rw [hobject] at hread ⊢
      simp [StructDoc.orNull, hread]
  have hsequence' : (namedDoc v).defaulted "sequence" none (StructDoc.orNull asU64) =
      some m.sequence := by
    unfold StructDoc.defaulted
    simp only [namedDoc, hsequence]
    cases m.sequence <;> rfl
  simp [TrstManifest.fromValue, h.asStruct, required_eq hversion, required_eq hprofile,
    required_eq hdevice, required_eq hmetadata, required_eq hchunk, required_eq hsegments,
    required_eq hclaims, hencryption', hsequence', optional_string hprev,
    optional_string hsignature, hparts.device, hparts.metadata, hparts.chunk,
    listFromValue_map hparts.segments, hclaims', asStr]

end Variants

section Documents

variable {m : TrstManifest}

theorem ProfileMetadata.entries_names_nodup (m : ProfileMetadata) :
    (m.entries.map Prod.fst).Nodup := by
  cases m <;> (simp only [entries, CamVideoMetadata.entries, SensorMetadata.entries,
    AudioMetadata.entries, LogMetadata.entries, GenericMetadata.entries, List.map]; decide)

theorem ProfileMetadata.absent_of_entries {m : ProfileMetadata} {name : String}
    (hname : name ∈ ownFields) (hother : m.ownField ≠ some name) :
    name ∉ m.entries.map Prod.fst := by
  simp only [ownFields, List.mem_cons, List.not_mem_nil, or_false] at hname
  rcases hname with rfl | rfl | rfl | rfl <;> cases m <;>
    simp_all [ownField, entries, CamVideoMetadata.entries, SensorMetadata.entries,
      AudioMetadata.entries, LogMetadata.entries, GenericMetadata.entries]

theorem fromValue_toDocument (hfinite : ∀ f ∈ m.floats, f.isFinite = true) :
    TrstManifest.fromValue m.toDocument = some m := by
  simp only [TrstManifest.floats, List.forall_mem_append, List.forall_mem_cons,
    List.forall_mem_map] at hfinite
  obtain ⟨hmetadata, hchunk, hsegments⟩ := hfinite
  have hlists : ∀ {entries : Entries}, (entries.map Prod.fst).Nodup →
      Lists (fieldsOf entries) entries := fun hnodup => lists_fieldsOf hnodup fun _ he => he
  refine TrstManifest.fromValue_of_lists (hlists (by simp [TrstManifest.entriesWith]))
    ⟨DeviceInfo.fromValue_of_lists (hlists (by simp [DeviceInfo.entries])),
      ProfileMetadata.fromValue_of_lists (hlists m.metadata.entries_names_nodup) ?_ hmetadata,
      ChunkInfo.fromValue_of_lists (hlists (by simp [ChunkInfo.entries])) hchunk,
      fun s hs => SegmentInfo.fromValue_of_lists (hlists (by simp [SegmentInfo.entries]))
        (hsegments s hs),
      fun e _ => ⟨_, rfl, ?_⟩⟩
  · intro name hname hother
    exact get_fieldsOf_absent (ProfileMetadata.absent_of_entries hname hother)
  · exact EncryptionBlock.fromValue_of_lists (hlists (by simp [EncryptionBlock.entriesWith]))
      (HpkeSuite.fromValue_of_lists (hlists (by simp [HpkeSuite.entries])))
      fun r => RecipientEntry.fromValue_of_lists (hlists (by simp [RecipientEntry.entries]))

theorem ProfileMetadata.fromValue_toValue {m : ProfileMetadata}
    (hfinite : ∀ f ∈ m.floats, f.isFinite = true) :
    ProfileMetadata.fromValue m.toValue = some m := by
  refine ProfileMetadata.fromValue_of_lists ?_ ?_ hfinite
  · cases m <;> exact lists_fieldsOf (by simp) (by
      simp [entries, CamVideoMetadata.entries, SensorMetadata.entries, AudioMetadata.entries,
        LogMetadata.entries, GenericMetadata.entries])
  · simp only [ownFields, List.forall_mem_cons]
    cases m <;> simp [ownField, toValue, get_fieldsOf_absent]

theorem DeviceInfo.fromValue_toValue (d : DeviceInfo) : DeviceInfo.fromValue d.toValue = some d :=
  DeviceInfo.fromValue_of_lists (lists_fieldsOf (by simp) (by simp [DeviceInfo.entries]))

theorem SegmentInfo.fromValue_toValue {s : SegmentInfo} (h : s.durationSeconds.isFinite = true) :
    SegmentInfo.fromValue s.toValue = some s :=
  SegmentInfo.fromValue_of_lists (lists_fieldsOf (by simp) (by simp [SegmentInfo.entries])) h

theorem RecipientEntry.fromValue_toValue (r : RecipientEntry) :
    RecipientEntry.fromValue r.toValue = some r :=
  RecipientEntry.fromValue_of_lists (lists_fieldsOf (by simp) (by simp [RecipientEntry.entries]))

theorem EncryptionBlock.fromValue_toValue (e : EncryptionBlock) :
    EncryptionBlock.fromValue e.toValue = some e := by
  have hhpke : HpkeSuite.fromValue (fieldsOf
      [("aead", some (.string e.hpke.aead)), ("kdf", some (.string e.hpke.kdf)),
       ("kem", some (.string e.hpke.kem))]) = some e.hpke :=
    HpkeSuite.fromValue_of_lists (lists_fieldsOf (by simp) (by simp [HpkeSuite.entries]))
  exact EncryptionBlock.fromValue_of_lists
    (lists_fieldsOf (by simp) (by simp [EncryptionBlock.entriesWith])) hhpke
    RecipientEntry.fromValue_toValue

theorem fromValue_toValue (hfinite : ∀ f ∈ m.floats, f.isFinite = true) :
    TrstManifest.fromValue m.toValue = some m := by
  simp only [TrstManifest.floats, List.forall_mem_append, List.forall_mem_cons,
    List.forall_mem_map] at hfinite
  obtain ⟨hmetadata, hchunk, hsegments⟩ := hfinite
  have hchunk' : ChunkInfo.fromValue (fieldsOf
      [("duration_seconds", some (ofF64 m.chunk.durationSeconds)),
       ("size_bytes", some (ofU64 m.chunk.sizeBytes))]) = some m.chunk :=
    ChunkInfo.fromValue_of_lists (lists_fieldsOf (by simp) (by simp [ChunkInfo.entries])) hchunk
  have hparts : PartsRead m m.device.toValue m.metadata.toValue _ SegmentInfo.toValue
      EncryptionBlock.toValue :=
    ⟨m.device.fromValue_toValue, ProfileMetadata.fromValue_toValue hmetadata, hchunk',
      fun s hs => SegmentInfo.fromValue_toValue (hsegments s hs),
      fun e _ => ⟨_, rfl, e.fromValue_toValue⟩⟩
  exact TrstManifest.fromValue_of_lists
    (lists_fieldsOf (by simp) (by simp [TrstManifest.entriesWith])) hparts

end Documents

section Text

variable {n : Nat}

theorem printable_ofF64 (f : F64) : Printable n (ofF64 f) := by
  unfold ofF64
  split
  next h => exact .float f h
  next => exact .null

theorem printable_fieldsOf {fields : Entries} (h : ∀ f ∈ fields, ∀ v ∈ f.2, Printable n v) :
    Printable (n + 1) (fieldsOf fields) := by
  refine .object _ fun f hf => ?_
  obtain ⟨e, he, hmap⟩ := List.mem_filterMap.mp hf
  obtain ⟨v, hv, rfl⟩ := Option.map_eq_some_iff.mp hmap
  exact h e he v hv

theorem printable_strings (items : List String) :
    Printable (n + 1) (.array (items.map .string)) := by
  refine .array _ fun v hv => ?_
  obtain ⟨s, -, rfl⟩ := List.mem_map.mp hv
  exact .string s

theorem Labels.printable_toValue {l : Labels} {v : JsonValue} (h : l.toValue = some v) :
    Printable (n + 1) v := by
  unfold Labels.toValue at h
  split at h
  next => simp at h
  next =>
    cases Option.some.inj h
    refine .object _ fun f hf => ?_
    obtain ⟨e, -, rfl⟩ := List.mem_map.mp hf
    exact .string e.2

theorem ProfileMetadata.printable_entries (m : ProfileMetadata) :
    Printable (n + 2) (fieldsOf m.entries) := by
  refine printable_fieldsOf ?_
  cases m <;> simp [entries, CamVideoMetadata.entries, SensorMetadata.entries,
    AudioMetadata.entries, LogMetadata.entries, GenericMetadata.entries, Printable.string,
    printable_ofF64, ofU64, Printable.posInt]
  all_goals exact fun v hv => Labels.printable_toValue hv

theorem EncryptionBlock.printable_toDocument (e : EncryptionBlock) :
    Printable (n + 3) e.toDocument := by
  have hhpke : Printable (n + 2) (fieldsOf e.hpke.entries) :=
    printable_fieldsOf (by simp [HpkeSuite.entries, Printable.string])
  have hrecipients : Printable (n + 2) (.array (e.recipients.map fun r => fieldsOf r.entries)) := by
    refine .array _ fun v hv => ?_
    obtain ⟨r, -, rfl⟩ := List.mem_map.mp hv
    exact printable_fieldsOf (by simp [RecipientEntry.entries, Printable.string])
  exact printable_fieldsOf (by simp [entriesWith, Printable.string, hhpke, hrecipients])

theorem TrstManifest.printable_toDocument (m : TrstManifest) :
    Printable (n + 4) m.toDocument := by
  have hdevice : Printable (n + 3) (fieldsOf m.device.entries) :=
    printable_fieldsOf (by simp [DeviceInfo.entries, Printable.string, ofU64, Printable.posInt])
  have hchunk : Printable (n + 3) (fieldsOf m.chunk.entries) :=
    printable_fieldsOf (by simp [ChunkInfo.entries, printable_ofF64, ofU64, Printable.posInt])
  have hsegments : Printable (n + 3) (.array (m.segments.map fun s => fieldsOf s.entries)) := by
    refine .array _ fun v hv => ?_
    obtain ⟨s, -, rfl⟩ := List.mem_map.mp hv
    exact printable_fieldsOf (by simp [SegmentInfo.entries, Printable.string, printable_ofF64])
  refine printable_fieldsOf ?_
  simp [entriesWith, Printable.string, ofU64, Printable.posInt, hdevice, hchunk, hsegments,
    m.metadata.printable_entries, printable_strings, EncryptionBlock.printable_toDocument]

theorem readManifestText_manifestText {js : JsonCrate} (hjs : js.Lossless) {m : TrstManifest}
    (hfinite : ∀ f ∈ m.floats, f.isFinite = true) :
    readManifestText js (intoBytes (manifestText js m)) = some m := by
  unfold readManifestText manifestText
  rw [hjs.reads m.printable_toDocument, Option.bind_some]
  exact fromValue_toDocument hfinite

end Text

end Sealedge
