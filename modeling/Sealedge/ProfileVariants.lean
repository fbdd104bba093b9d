import Sealedge.ManifestRoundTrip

namespace Sealedge

open JsonValue Fallible

/-- The profile that a variant of the metadata belongs to. -/
def ProfileMetadata.profile : ProfileMetadata → String
  | camVideo _ => "cam.video"
  | sensor _ => "sensor"
  | audio _ => "audio"
  | log _ => "log"
  | generic _ => "generic"

/-- The texts that a profile requires. -/
def ProfileMetadata.requiredTexts : ProfileMetadata → List String
  | camVideo m => [m.startedAt, m.endedAt, m.timezone, m.resolution, m.codec]
  | sensor m => [m.startedAt, m.endedAt, m.unit, m.sensorModel]
  | audio m => [m.startedAt, m.endedAt, m.codec]
  | log m => [m.startedAt, m.endedAt, m.application, m.host, m.logLevel, m.logFormat]
  | generic m => [m.startedAt, m.endedAt]

/-- The metadata are those of the declared profile, with everything that it requires. -/
structure TrstManifest.CarriesProfile (m : TrstManifest) : Prop where
  variant : m.metadata.profile = m.profile
  present : ∀ text ∈ m.metadata.requiredTexts, text ≠ ""

/-- The profiles in the order in which the untagged reader tries their structs. -/
def variantOrder : List String :=
  ["cam.video", "sensor", "audio", "log", "generic"]

/-- A section that can be read as the struct of a profile. -/
def readsAs (metadata : JsonValue) (profile : String) : Bool :=
  if profile = "cam.video" then (CamVideoMetadata.fromValue metadata).isSome
  else if profile = "sensor" then (SensorMetadata.fromValue metadata).isSome
  else if profile = "audio" then (AudioMetadata.fromValue metadata).isSome
  else if profile = "log" then (LogMetadata.fromValue metadata).isSome
  else if profile = "generic" then (GenericMetadata.fromValue metadata).isSome
  else false

/-- A member of a document that is read as a struct. -/
def JsonValue.member (names : List String) (name : String) (v : JsonValue) : Option JsonValue :=
  (v.asStruct names).bind fun d => d.find name

/-- A metadata section of a profile: its own struct can be read, none that is tried before can,
and a camera gives its time zone, resolution and codec. -/
structure FitsProfile (profile : String) (metadata : JsonValue) : Prop where
  own : readsAs metadata profile = true
  earlier : ∀ other ∈ variantOrder.takeWhile (· != profile), readsAs metadata other = false
  texts : profile = "cam.video" → ∀ name ∈ ["timezone", "resolution", "codec"],
    metadata.member CamVideoMetadata.fieldNames name ≠ some (.string "")

/-- A document whose metadata section is one of the profile it declares. -/
def FitsDeclaredProfile (v : JsonValue) : Prop :=
  ∃ profile metadata, v.member TrstManifest.fieldNames "profile" = some (.string profile) ∧
    v.member TrstManifest.fieldNames "metadata" = some metadata ∧ FitsProfile profile metadata

section Choice

theorem find?_eq_some_iff_takeWhile {α : Type} [DecidableEq α] {p : α → Bool} {l : List α}
    {a : α} :
    l.find? p = some a ↔ a ∈ l ∧ p a = true ∧ ∀ b ∈ l.takeWhile (· != a), p b = false := by
  induction l with
  | nil => simp
  | cons b rest ih =>
    by_cases hb : b = a
    · subst hb
      cases hp : p b with
      | true => simp [hp]
      | false =>
        have hne : rest.find? p ≠ some b := fun h => by
          have := List.find?_some h
          rw [hp] at this
          cases this
        simp [hp, hne]
    · have hne : a ≠ b := fun h => hb h.symm
      cases hp : p b with
      | true => simp [hp, hb]
      | false => simp [hp, hb, hne, ih]

theorem ProfileMetadata.find_profile {metadata : JsonValue} {md : ProfileMetadata}
    (h : ProfileMetadata.fromValue metadata = some md) :
    variantOrder.find? (readsAs metadata) = some md.profile := by
  unfold ProfileMetadata.fromValue at h
  cases hcam : CamVideoMetadata.fromValue metadata with
  | some c =>
    simp only [hcam, Option.map_some, Option.some_or, Option.some.injEq] at h
    subst h
    simp [variantOrder, readsAs, hcam, profile]
  | none =>
    cases hsensor : SensorMetadata.fromValue metadata with
    | some c =>
      simp only [hcam, hsensor, Option.map_none, Option.map_some, Option.none_or, Option.some_or,
        Option.some.injEq] at h
      subst h
      simp [variantOrder, readsAs, hcam, hsensor, profile]
    | none =>
      cases haudio : AudioMetadata.fromValue metadata with
      | some c =>
        simp only [hcam, hsensor, haudio, Option.map_none, Option.map_some, Option.none_or,
          Option.some_or, Option.some.injEq] at h
        subst h
        simp [variantOrder, readsAs, hcam, hsensor, haudio, profile]
      | none =>
        cases hlog : LogMetadata.fromValue metadata with
        | some c =>
          simp only [hcam, hsensor, haudio, hlog, Option.map_none, Option.map_some, Option.none_or,
            Option.some_or, Option.some.injEq] at h
          subst h
          simp [variantOrder, readsAs, hcam, hsensor, haudio, hlog, profile]
        | none =>
          simp only [hcam, hsensor, haudio, hlog, Option.map_none, Option.none_or,
            Option.map_eq_some_iff] at h
          obtain ⟨g, hg, rfl⟩ := h
          simp [variantOrder, readsAs, hcam, hsensor, haudio, hlog, hg, profile]

end Choice

section Sections

/-- Among the texts that a profile requires only those of a camera are not all checked. -/
theorem ProfileMetadata.requiredTexts_of_validate {md : ProfileMetadata}
    (h : md.validate = .ok ()) :
    (∀ text ∈ md.requiredTexts, text ≠ "") ↔
      ∀ m, md = .camVideo m → m.timezone ≠ "" ∧ m.resolution ≠ "" ∧ m.codec ≠ "" := by
  have htext : ∀ (field value : String) (u : Unit),
      requireText field value = .ok u ↔ value ≠ "" := fun _ _ _ => requireText_eq_ok
  cases md <;> simp only [validate, bind_eq_ok, htext, invalidWhen, exists_const] at h <;>
    simp_all [requiredTexts]

theorem string_of_required {d : StructDoc} {name s : String} (h : d.required name asStr = some s) :
    d.find name = some (.string s) := by
  obtain ⟨v, hfind, hv⟩ := Option.bind_eq_some_iff.mp h
  cases v <;> simp [asStr] at hv
  rw [hfind, hv]

theorem CamVideoMetadata.member_texts {metadata : JsonValue} {m : CamVideoMetadata}
    (h : CamVideoMetadata.fromValue metadata = some m) :
    metadata.member fieldNames "timezone" = some (.string m.timezone) ∧
      metadata.member fieldNames "resolution" = some (.string m.resolution) ∧
      metadata.member fieldNames "codec" = some (.string m.codec) := by
  simp only [CamVideoMetadata.fromValue, Option.bind_eq_bind, Option.bind_eq_some_iff] at h
  obtain ⟨d, hd, _, -, _, -, zone, hzone, _, -, resolution, hresolution, codec, hcodec, hm⟩ := h
  cases Option.some.inj hm
  simp only [JsonValue.member, hd, Option.bind_some]
  exact ⟨string_of_required hzone, string_of_required hresolution, string_of_required hcodec⟩

theorem TrstManifest.member_profile {v : JsonValue} {m : TrstManifest}
    (h : TrstManifest.fromValue v = some m) :
    v.member fieldNames "profile" = some (.string m.profile) ∧
      ∃ metadata, v.member fieldNames "metadata" = some metadata ∧
        ProfileMetadata.fromValue metadata = some m.metadata := by
  simp only [TrstManifest.fromValue, Option.bind_eq_bind, Option.bind_eq_some_iff] at h
  obtain ⟨d, hd, _, -, profile, hprofile, _, -, md, hmetadata, h⟩ := h
  obtain ⟨_, -, _, -, _, -, _, -, _, -, _, -, _, -, hm⟩ := h
  cases Option.some.inj hm
  obtain ⟨metadata, hfind, hread⟩ := Option.bind_eq_some_iff.mp hmetadata
  simp only [JsonValue.member, hd, Option.bind_some]
  exact ⟨string_of_required hprofile, metadata, hfind, hread⟩

theorem camVideo_of_fromValue {metadata : JsonValue} {m : CamVideoMetadata}
    (h : ProfileMetadata.fromValue metadata = some (.camVideo m)) :
    CamVideoMetadata.fromValue metadata = some m := by
  simpa [ProfileMetadata.fromValue, Option.or_eq_some_iff] using h

theorem mem_variantOrder_of_readsAs {metadata : JsonValue} {profile : String}
    (h : readsAs metadata profile = true) : profile ∈ variantOrder := by
  by_contra hnot
  simp only [variantOrder, List.mem_cons, List.not_mem_nil, or_false, not_or] at hnot
  obtain ⟨hcam, hsensor, haudio, hlog, hgeneric⟩ := hnot
  simp [readsAs, hcam, hsensor, haudio, hlog, hgeneric] at h

/-- Of metadata that passed `validate`, the variant is that of a profile and nothing that the
profile requires is empty exactly if the section fits the profile. -/
theorem fitsProfile_iff {metadata : JsonValue} {md : ProfileMetadata} (profile : String)
    (hread : ProfileMetadata.fromValue metadata = some md) (hvalid : md.validate = .ok ()) :
    (md.profile = profile ∧ ∀ text ∈ md.requiredTexts, text ≠ "") ↔
      FitsProfile profile metadata := by
  have hfind := ProfileMetadata.find_profile hread
  rw [ProfileMetadata.requiredTexts_of_validate hvalid]
  constructor
  · rintro ⟨rfl, htexts⟩
    obtain ⟨-, hown, hearlier⟩ := find?_eq_some_iff_takeWhile.mp hfind
    refine ⟨hown, hearlier, fun hcam => ?_⟩
    cases md with
    | camVideo m =>
      obtain ⟨hzone, hresolution, hcodec⟩ := htexts m rfl
      obtain ⟨mzone, mresolution, mcodec⟩ :=
        CamVideoMetadata.member_texts (camVideo_of_fromValue hread)
      simp [mzone, mresolution, mcodec, hzone, hresolution, hcodec]
    | _ => simp [ProfileMetadata.profile] at hcam
  · intro h
    have hsome := find?_eq_some_iff_takeWhile.mpr
      ⟨mem_variantOrder_of_readsAs h.own, h.own, h.earlier⟩
    have hprofile : md.profile = profile := Option.some.inj (hfind.symm.trans hsome)
    refine ⟨hprofile, ?_⟩
    rintro m rfl
    obtain ⟨mzone, mresolution, mcodec⟩ :=
      CamVideoMetadata.member_texts (camVideo_of_fromValue hread)
    have htexts := h.texts hprofile.symm
    simpa [mzone, mresolution, mcodec] using htexts

end Sections

/-- A document that reads as a valid manifest gives the metadata of its profile exactly if its
metadata section fits the declared profile. -/
theorem validated_carries_profile_iff {v : JsonValue} {m : TrstManifest}
    (hread : TrstManifest.fromValue v = some m) (hvalid : m.validate = .ok ()) :
    m.CarriesProfile ↔ FitsDeclaredProfile v := by
  obtain ⟨hprofile, metadata, hmember, hmetadata⟩ := TrstManifest.member_profile hread
  have hfits := fitsProfile_iff m.profile hmetadata
    (TrstManifest.validate_eq_ok.mp hvalid).metadata
  constructor
  · rintro ⟨hvariant, hpresent⟩
    exact ⟨m.profile, metadata, hprofile, hmember, hfits.mp ⟨hvariant, hpresent⟩⟩
  · rintro ⟨profile, section', hprofile', hmember', h⟩
    rw [hprofile] at hprofile'
    rw [hmember] at hmember'
    cases Option.some.inj hprofile'
    cases Option.some.inj hmember'
    obtain ⟨hvariant, hpresent⟩ := hfits.mpr h
    exact ⟨hvariant, hpresent⟩

/-- The document of the sample manifest fits the camera profile. -/
theorem sample_carries_profile :
    sampleManifest.CarriesProfile ∧ FitsDeclaredProfile sampleManifest.toDocument := by
  have hcarries : sampleManifest.CarriesProfile := ⟨rfl, by decide⟩
  exact ⟨hcarries, (validated_carries_profile_iff (fromValue_toDocument (by decide))
    (by decide)).mp hcarries⟩

/-- A camera document with no field of a camera but its times. -/
def bareCameraDocument : JsonValue :=
  .object
    [("trst_version", .string "0.2.0"), ("profile", .string "cam.video"),
     ("device", .object
       [("id", .string "te:cam:0001"), ("model", .string "TrustEdgeRefCam"),
        ("firmware_version", .string "1.0.0"), ("public_key", .string "ed25519:a2V5")]),
     ("metadata", .object
       [("started_at", .string "2025-01-01T00:00:00Z"),
        ("ended_at", .string "2025-01-01T00:00:02Z"), ("fps", .string "30")]),
     ("chunk", .object [("size_bytes", .number (.posInt 1048576)),
        ("duration_seconds", .number (.posInt 2))]),
     ("segments", .array
       [.object [("chunk_file", .string "00000.bin"), ("blake3_hash", .string "ab"),
          ("start_time", .string "0.000s"), ("duration_seconds", .number (.posInt 2)),
          ("continuity_hash", .string "cd")]]),
     ("claims", .array [])]

/-- It is accepted with generic metadata. -/
theorem bare_camera_accepted :
    ∃ m, TrstManifest.fromValue bareCameraDocument = some m ∧ m.validate = .ok () ∧
      m.profile = "cam.video" ∧ m.metadata.profile = "generic" ∧ ¬ m.CarriesProfile := by
  refine ⟨_, rfl, by decide, rfl, rfl, fun h => ?_⟩
  exact absurd h.variant (by decide)

end Sealedge
