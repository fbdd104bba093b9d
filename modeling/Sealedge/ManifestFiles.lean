import Sealedge.ManifestRoundTrip
import Sealedge.Storage

namespace Sealedge

open JsonValue

/-- Files whose manifests are in the text of `serde_json`. -/
def Storage.withManifestText (st : Storage) (js : JsonCrate) : Storage :=
  { st with
    parseManifest := fun bytes =>
      (readManifestText js bytes).elim (.error "JSON serialization error") .ok
    printManifest := manifestText js }

theorem parseManifest_withManifestText {js : JsonCrate} (hjs : js.Lossless) {m : TrstManifest}
    (hfinite : ∀ f ∈ m.floats, f.isFinite = true) (st : Storage) :
    (st.withManifestText js).parseManifest (intoBytes (manifestText js m)) = .ok m := by
  simp only [Storage.withManifestText, readManifestText_manifestText hjs hfinite, Option.elim_some]

/-- A manifest whose floats are finite is read back from its file. One with another float is not:
its file is refused, or read as a manifest that is signed otherwise. -/
structure Storage.KeepsManifests (st : Storage) (codec : TextCodec) : Prop where
  reads : ∀ m, (∀ f ∈ m.floats, f.isFinite = true) →
    st.parseManifest (intoBytes (st.printManifest m)) = .ok m
  finite : ∀ m m', st.parseManifest (intoBytes (st.printManifest m)) = .ok m' →
    m'.toCanonicalBytes codec = m.toCanonicalBytes codec → ∀ f ∈ m.floats, f.isFinite = true

section Finite

theorem isFinite_of_asF64 {f g : F64} (h : (ofF64 f).asF64 = some g) : f.isFinite = true := by
  unfold ofF64 at h
  split at h
  next hfinite => exact hfinite
  next => cases h

theorem isFinite_of_optional {doc : JsonValue} {name : String} {f g : Option F64}
    {same : F64 → F64 → Prop} (hdoc : doc.get name = f.map ofF64)
    (hread : (namedDoc doc).optional name asF64 = some g) (hsame : Option.Rel same g f) :
    ∀ h ∈ f.toList, h.isFinite = true := by
  intro value hvalue
  cases hsame with
  | none => cases hvalue
  | @some _ b _ =>
    cases List.mem_singleton.mp hvalue
    by_contra hnot
    have hnull : ofF64 value = .null := if_neg hnot
    simp [StructDoc.optional, namedDoc, hdoc, hnull, StructDoc.orNull] at hread

theorem ChunkInfo.finite_of_fromValue {v : JsonValue} {a b : ChunkInfo} (h : Lists v a.entries)
    (hread : ChunkInfo.fromValue v = some b) : a.durationSeconds.isFinite = true := by
  obtain ⟨hsize, hduration, -⟩ := by
    simpa only [entries, List.forall_mem_cons] using h.holds
  simp only [ChunkInfo.fromValue, h.asStruct, Option.bind_eq_bind, Option.bind_some,
    required_eq hsize, required_eq hduration, Option.bind_eq_some_iff] at hread
  obtain ⟨-, -, duration, hread, -⟩ := hread
  exact isFinite_of_asF64 hread

theorem SegmentInfo.finite_of_fromValue {v : JsonValue} {a b : SegmentInfo}
    (h : Lists v a.entries) (hread : SegmentInfo.fromValue v = some b) :
    a.durationSeconds.isFinite = true := by
  obtain ⟨hfile, hhash, hstart, hduration, -⟩ := by
    simpa only [entries, List.forall_mem_cons] using h.holds
  simp only [SegmentInfo.fromValue, h.asStruct, Option.bind_eq_bind, Option.bind_some,
    required_eq hfile, required_eq hhash, required_eq hstart, required_eq hduration,
    Option.bind_eq_some_iff] at hread
  obtain ⟨-, -, -, -, -, -, duration, hread, -⟩ := hread
  exact isFinite_of_asF64 hread

theorem CamVideoMetadata.finite_of_fromValue {v : JsonValue} {a b : CamVideoMetadata}
    (h : Lists v a.entries) (hread : CamVideoMetadata.fromValue v = some b) :
    a.fps.isFinite = true := by
  obtain ⟨hstart, hend, hzone, hfps, -⟩ := by
    simpa only [entries, List.forall_mem_cons] using h.holds
  simp only [CamVideoMetadata.fromValue, h.asStruct, Option.bind_eq_bind, Option.bind_some,
    required_eq hstart, required_eq hend, required_eq hzone, required_eq hfps,
    Option.bind_eq_some_iff] at hread
  obtain ⟨-, -, -, -, -, -, fps, hread, -⟩ := hread
  exact isFinite_of_asF64 hread

theorem SensorMetadata.finite_of_fromValue {v : JsonValue} {a b : SensorMetadata}
    {same : F64 → F64 → Prop} (h : Lists v a.entries) (hread : SensorMetadata.fromValue v = some b)
    (hsame : SameMetadata same (.sensor b) (.sensor a)) :
    ∀ f ∈ (ProfileMetadata.sensor a).floats, f.isFinite = true := by
  obtain ⟨-, -, hlat, hlon, halt⟩ := hsame
  obtain ⟨hstart, hend, hrate, hunit, hmodel, hlatitude, hlongitude, haltitude, -⟩ := by
    simpa only [entries, List.forall_mem_cons] using h.holds
  simp only [SensorMetadata.fromValue, h.asStruct, Option.bind_eq_bind, Option.bind_some,
    required_eq hstart, required_eq hend, required_eq hrate, required_eq hunit,
    required_eq hmodel, Option.bind_eq_some_iff] at hread
  obtain ⟨_, -, _, -, rate, hread, _, -, _, -, lat, hlatRead, lon, hlonRead, alt, haltRead, _, -,
    hb⟩ := hread
  cases Option.some.inj hb
  simp only [ProfileMetadata.floats, List.forall_mem_cons, List.forall_mem_append]
  exact ⟨isFinite_of_asF64 hread, ⟨isFinite_of_optional hlatitude hlatRead hlat,
    isFinite_of_optional hlongitude hlonRead hlon⟩, isFinite_of_optional haltitude haltRead halt⟩

/-- What the untagged reader reads as video was read as video, and likewise for a sensor. -/
theorem ProfileMetadata.variant_of_fromValue {v : JsonValue} {m : ProfileMetadata}
    (h : ProfileMetadata.fromValue v = some m) :
    (∀ cam, m = .camVideo cam → CamVideoMetadata.fromValue v = some cam) ∧
      ∀ sensor, m = .sensor sensor → SensorMetadata.fromValue v = some sensor := by
  unfold ProfileMetadata.fromValue at h
  simp only [Option.or_eq_some_iff, Option.map_eq_some_iff, Option.map_eq_none_iff] at h
  constructor
  · rintro cam rfl
    simpa using h
  · rintro sensor rfl
    simp at h
    exact h.2

theorem ProfileMetadata.finite_of_fromValue {m m' : ProfileMetadata} {same : F64 → F64 → Prop}
    (hread : ProfileMetadata.fromValue (fieldsOf m.entries) = some m')
    (hsame : SameMetadata same m' m) : ∀ f ∈ m.floats, f.isFinite = true := by
  have hlists : Lists (fieldsOf m.entries) m.entries :=
    lists_fieldsOf m.entries_names_nodup fun _ he => he
  obtain ⟨hcam, hsensor⟩ := ProfileMetadata.variant_of_fromValue hread
  cases m with
  | camVideo a =>
    cases m' with
    | camVideo b =>
      intro f hf
      cases List.mem_singleton.mp hf
      exact CamVideoMetadata.finite_of_fromValue hlists (hcam b rfl)
    | _ => exact hsame.elim
  | sensor a =>
    cases m' with
    | sensor b => exact SensorMetadata.finite_of_fromValue hlists (hsensor b rfl) hsame
    | _ => exact hsame.elim
  | _ =>
    intro f hf
    cases hf

theorem fromValue_of_listFromValue {α : Type} {read : JsonValue → Option α} {items : List α}
    {values : List JsonValue} (h : listFromValue read (.array values) = some items) :
    ∀ v ∈ values, ∃ a, read v = some a := by
  have h : values.mapM read = some items := h
  induction values generalizing items with
  | nil =>
    intro v hv
    cases hv
  | cons first rest ih =>
    simp only [List.mapM_cons, Option.bind_eq_bind, Option.bind_eq_some_iff] at h
    obtain ⟨a, hfirst, as, hrest, -⟩ := h
    intro v hv
    rcases List.mem_cons.mp hv with rfl | hv
    · exact ⟨a, hfirst⟩
    · exact ih hrest hrest v hv

/-- A manifest that is read from its document with the same canonical text has finite floats. -/
theorem TrstManifest.finite_of_fromValue {m m' : TrstManifest} {same : F64 → F64 → Prop}
    (hread : TrstManifest.fromValue m.toDocument = some m') (hsame : SameText same m' m) :
    ∀ f ∈ m.floats, f.isFinite = true := by
  have hlists : ∀ {entries : Entries}, (entries.map Prod.fst).Nodup →
      Lists (fieldsOf entries) entries := fun hnodup => lists_fieldsOf hnodup fun _ he => he
  have h : Lists m.toDocument _ := hlists (by simp [TrstManifest.entriesWith])
  obtain ⟨hversion, hprofile, hdevice, hmetadata, hchunk, hsegments, -⟩ := by
    simpa only [entriesWith, List.forall_mem_cons] using h.holds
  simp only [TrstManifest.fromValue, h.asStruct, Option.bind_eq_bind, Option.bind_some,
    required_eq hversion, required_eq hprofile, required_eq hdevice, required_eq hmetadata,
    required_eq hchunk, required_eq hsegments, Option.bind_eq_some_iff] at hread
  obtain ⟨_, -, _, -, _, -, metadata, hmetadataRead, chunk, hchunkRead, segments, hsegmentsRead,
    hrest⟩ := hread
  have hkept : m'.metadata = metadata := by
    obtain ⟨_, -, _, -, _, -, _, -, _, -, hm⟩ := hrest
    cases Option.some.inj hm
    rfl
  simp only [TrstManifest.floats, List.forall_mem_append, List.forall_mem_cons,
    List.forall_mem_map]
  refine ⟨ProfileMetadata.finite_of_fromValue hmetadataRead (hkept ▸ hsame.metadata),
    ChunkInfo.finite_of_fromValue (hlists (by simp [ChunkInfo.entries])) hchunkRead, ?_⟩
  intro s hs
  obtain ⟨read, hread⟩ := fromValue_of_listFromValue hsegmentsRead _ (List.mem_map_of_mem hs)
  exact SegmentInfo.finite_of_fromValue (hlists (by simp [SegmentInfo.entries])) hread

end Finite

theorem withManifestText_keepsManifests {js : JsonCrate} (hjs : js.Lossless) {codec : TextCodec}
    (htext : codec.Lawful) (st : Storage) : (st.withManifestText js).KeepsManifests codec where
  reads m hfinite := parseManifest_withManifestText hjs hfinite st
  finite m m' hread hbytes := by
    have hdocument : TrstManifest.fromValue m.toDocument = some m' := by
      have hread : (readManifestText js (intoBytes (manifestText js m))).elim
        (Except.error "JSON serialization error") .ok = .ok m' := hread
      unfold readManifestText manifestText at hread
      rw [hjs.reads m.printable_toDocument, Option.bind_some] at hread
      exact Fallible.elim_eq_ok.mp hread
    exact TrstManifest.finite_of_fromValue hdocument
      (sameText_of_serializeCanonical_eq htext (toCanonicalBytes_inj.mp hbytes))

end Sealedge
