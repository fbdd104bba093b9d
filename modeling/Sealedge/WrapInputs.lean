import Sealedge.ChunkReader
import Sealedge.ManifestFiles
import Sealedge.WrapValid

namespace Sealedge

open Fallible PieceReader

/-- A frame rate is a finite number, and the end of a capture is a text. -/
structure Figures.Lawful (fig : Figures) : Prop where
  finite : ∀ n, (fig.ofU32 n).isFinite = true
  ends : ∀ {start first last text}, start ≠ "" → fig.captureEnd start first last = .ok text →
    text ≠ ""

/-- What the readers ask of the options of a profile and a wrap does not. -/
structure WrapCmd.OptionsFit (args : WrapCmd) (fig : Figures) : Prop where
  sensor : args.profile = "sensor" →
    (∀ f ∈ args.sampleRate, f.isFinite = true ∧ f.leZero = false) ∧ args.unit ≠ some "" ∧
      args.sensorModel ≠ some "" ∧
      ∀ f ∈ args.latitude.toList ++ args.longitude.toList ++ args.altitude.toList,
        f.isFinite = true
  audio : args.profile = "audio" →
    (∀ f ∈ args.sampleRate, fig.toU32 f ≠ 0) ∧ args.bitDepth ≠ some 0 ∧ args.channels ≠ some 0 ∧
      args.codec ≠ some ""
  log : args.profile = "log" →
    args.application ≠ some "" ∧ args.host ≠ some "" ∧ args.logLevel ≠ some "" ∧
      args.logFormat ≠ some ""

/-- The archive that a wrap continues does not have the last number, and the state file, where the
link comes from it, names a digest. -/
structure WrapCmd.ChronicleFits (args : WrapCmd) (st : Storage) (stateFile : Node) : Prop where
  archive : ∀ dir m sig n, args.prevArchive = some dir → readManifest st dir = .ok (m, sig) →
    m.sequence = some n → n + 1 ≠ 0
  given : args.prevArchive = none → ∀ n, args.prevSeq = some n → n + 1 ≠ 0
  state : args.prevArchive = none → args.prevHash = none → ∀ path s, args.chronicle = some path →
    ChronicleState.load st stateFile = .ok s → s.sequence + 1 ≠ 0 ∧ wellFormedDigest s.tip = true

/-- What the input holds. -/
def InputFile.content (input : InputFile) : Bytes :=
  match input.opened with
  | .ok reader => reader.rest
  | .error _ => []

/-- Arguments and surroundings of a wrap whose manifest its readers take. -/
structure InputsFit (fig : Figures) (st : Storage) (env : WrapEnv) (args : WrapCmd) : Prop where
  profile : args.profile ∈ knownProfiles
  size : 0 < args.chunkSize
  nonempty : env.input.content ≠ []
  started : env.timeFor args.seed ≠ ""
  duration : args.duration.isFinite = true
  options : args.OptionsFit fig
  chronicle : args.ChronicleFits st env.stateFile

theorem wellFormedDigest_formatArchiveId (digest : Digest) :
    wellFormedDigest (formatArchiveId digest) = true := by
  have hlen := Numerals.hexEncode_length digest.val
  rw [digest.property] at hlen
  unfold wellFormedDigest formatArchiveId
  rw [Texts.stripPrefix_append]
  simp only [hlen, beq_self_eq_true, Bool.true_and, List.all_eq_true]
  intro c hc
  obtain ⟨d, hd, rfl⟩ := Numerals.digit_of_mem_hexEncode hc
  rw [Numerals.hexValue_digitChar d hd]
  rfl

section Metadata

variable {fig : Figures} {args : WrapCmd} {start : String} {n : Nat} {data : ProfileMetadata}

theorem profileMetadata_camVideo (hfig : fig.Lawful) (hprofile : args.profile = "cam.video")
    (h : profileMetadata fig args start n = .ok data) :
    ∃ text, (start ≠ "" → text ≠ "") ∧ data = .camVideo {
      startedAt := start
      endedAt := text
      timezone := "UTC"
      fps := fig.ofU32 (args.fps.getD 30)
      resolution := "1920x1080"
      codec := "raw" } := by
  unfold profileMetadata at h
  rw [if_pos hprofile] at h
  dsimp only at h
  split at h
  next =>
    obtain ⟨text, htext, h⟩ := bind_eq_ok.mp h
    exact ⟨text, fun hstart => hfig.ends hstart htext, (Except.ok.inj h).symm⟩
  next => exact ⟨start, id, (Except.ok.inj h).symm⟩

/-- The metadata of a wrap pass the validator, and come back from their text, exactly for options
that fit. -/
theorem profileMetadata_valid_iff (hfig : fig.Lawful)
    (h : profileMetadata fig args start n = .ok data) :
    (data.validate = .ok () ∧ ∀ f ∈ data.floats, f.isFinite = true) ↔
      start ≠ "" ∧ args.OptionsFit fig := by
  have hmetadata := h
  unfold profileMetadata at h
  split at h
  next hprofile =>
    have hother : args.OptionsFit fig := by
      constructor <;> intro hp <;> rw [hprofile] at hp <;> exact absurd hp (by decide)
    obtain ⟨text, hend, rfl⟩ := profileMetadata_camVideo hfig hprofile hmetadata
    simp only [ProfileMetadata.validate, bind_eq_ok, requireText_eq_ok, exists_const,
      ProfileMetadata.floats, List.forall_mem_singleton]
    exact ⟨fun hvalid => ⟨hvalid.1.1, hother⟩,
      fun hfits => ⟨⟨hfits.1, hend hfits.1⟩, hfig.finite _⟩⟩
  next hcam =>
  split at h
  next hprofile =>
    obtain ⟨rate, hrate, h⟩ := bind_eq_ok.mp h
    obtain ⟨unit, hunit, h⟩ := bind_eq_ok.mp h
    obtain ⟨model, hmodel, h⟩ := bind_eq_ok.mp h
    cases h
    have hfits : args.OptionsFit fig ↔ _ := ⟨fun hfit => hfit.sensor hprofile, fun hsensor =>
      ⟨fun _ => hsensor, fun hp => absurd (hp.symm.trans hprofile) (by decide),
        fun hp => absurd (hp.symm.trans hprofile) (by decide)⟩⟩
    rw [hfits, orFail_eq_ok.mp hrate, orFail_eq_ok.mp hunit, orFail_eq_ok.mp hmodel]
    simp only [ProfileMetadata.validate, bind_eq_ok, requireText_eq_ok, exists_const, invalidWhen,
      failWhen_eq_ok, ProfileMetadata.floats, List.forall_mem_cons, Option.mem_def,
      Option.some.injEq, forall_eq', ne_eq]
    tauto
  next hsensor =>
  split at h
  next hprofile =>
    obtain ⟨rate, hrate, h⟩ := bind_eq_ok.mp h
    obtain ⟨depth, hdepth, h⟩ := bind_eq_ok.mp h
    obtain ⟨channels, hchannels, h⟩ := bind_eq_ok.mp h
    obtain ⟨codec, hcodec, h⟩ := bind_eq_ok.mp h
    cases h
    have hfits : args.OptionsFit fig ↔ _ := ⟨fun hfit => hfit.audio hprofile, fun haudio =>
      ⟨fun hp => absurd hp hsensor, fun _ => haudio,
        fun hp => absurd (hp.symm.trans hprofile) (by decide)⟩⟩
    rw [hfits, orFail_eq_ok.mp hrate, orFail_eq_ok.mp hdepth, orFail_eq_ok.mp hchannels,
      orFail_eq_ok.mp hcodec]
    simp only [ProfileMetadata.validate, bind_eq_ok, requireText_eq_ok, exists_const, invalidWhen,
      failWhen_eq_ok, ProfileMetadata.floats, List.not_mem_nil, Option.mem_def, Option.some.injEq,
      forall_eq', ne_eq, beq_eq_false_iff_ne]
    tauto
  next haudio =>
  split at h
  next hprofile =>
    obtain ⟨application, happlication, h⟩ := bind_eq_ok.mp h
    obtain ⟨host, hhost, h⟩ := bind_eq_ok.mp h
    obtain ⟨level, hlevel, h⟩ := bind_eq_ok.mp h
    obtain ⟨format, hformat, h⟩ := bind_eq_ok.mp h
    cases h
    have hfits : args.OptionsFit fig ↔ _ := ⟨fun hfit => hfit.log hprofile, fun hlog =>
      ⟨fun hp => absurd hp hsensor, fun hp => absurd hp haudio, fun _ => hlog⟩⟩
    rw [hfits, orFail_eq_ok.mp happlication, orFail_eq_ok.mp hhost, orFail_eq_ok.mp hlevel,
      orFail_eq_ok.mp hformat]
    simp only [ProfileMetadata.validate, bind_eq_ok, requireText_eq_ok, exists_const,
      ProfileMetadata.floats, List.not_mem_nil, Option.some.injEq, ne_eq]
    tauto
  next hlog =>
    cases h
    have hother : args.OptionsFit fig :=
      ⟨fun hp => absurd hp hsensor, fun hp => absurd hp haudio, fun hp => absurd hp hlog⟩
    simp only [ProfileMetadata.validate, bind_eq_ok, requireText_eq_ok, exists_const,
      ProfileMetadata.floats, List.not_mem_nil]
    tauto

end Metadata

theorem validateChronicle_succ_iff (n : UInt64) (prev : String) :
    validateChronicle (some (n + 1)) (some prev) = .ok () ↔
      n + 1 ≠ 0 ∧ wellFormedDigest prev = true := by
  unfold validateChronicle
  by_cases hzero : n + 1 = 0
  · simp [hzero]
  · simp [hzero, invalidWhen, failWhen_eq_ok]

/-- The place in the chronicle passes the validator exactly when what it continues fits. -/
theorem validateChronicle_link_iff {x : Crates} {st : Storage} {stateFile : Node} {args : WrapCmd}
    {publicKey : String} {link : Option ChronicleLink}
    (h : resolveChronicle x st stateFile args publicKey = .ok link) :
    validateChronicle (link.map ChronicleLink.sequence) (link.bind ChronicleLink.prev) = .ok () ↔
      args.ChronicleFits st stateFile := by
  unfold resolveChronicle at h
  split at h
  next dir hdir =>
    obtain ⟨⟨m, sig⟩, hread, h⟩ := bind_eq_ok.mp h
    obtain ⟨n, hn, h⟩ := bind_eq_ok.mp h
    cases h
    have hread := mapError_eq_ok.mp hread
    have hn := orFail_eq_ok.mp hn
    refine (validateChronicle_succ_iff n _).trans ⟨fun hvalid => ⟨?_, ?_, ?_⟩, fun hfits =>
      ⟨hfits.archive dir m sig n hdir hread hn, wellFormedDigest_formatArchiveId _⟩⟩
    · intro dir' m' sig' n' hdir' hread' hn'
      cases Option.some.inj (hdir.symm.trans hdir')
      cases Except.ok.inj (hread.symm.trans hread')
      cases Option.some.inj (hn.symm.trans hn')
      exact hvalid.1
    · intro hnone
      rw [hdir] at hnone
      cases hnone
    · intro hnone
      rw [hdir] at hnone
      cases hnone
  next hnone =>
    have harchive : ∀ dir m sig n, args.prevArchive = some dir →
        readManifest st dir = .ok (m, sig) → m.sequence = some n → n + 1 ≠ 0 := by
      intro dir m sig n hdir
      rw [hnone] at hdir
      cases hdir
    split at h
    next hash n hhash hseq =>
      obtain ⟨_, hform, h⟩ := bind_eq_ok.mp h
      cases h
      have hform := failWhen_eq_ok.mp hform
      refine (validateChronicle_succ_iff n _).trans ⟨fun hvalid => ⟨harchive, ?_, ?_⟩, fun hfits =>
        ⟨hfits.given hnone n hseq, by simpa using hform⟩⟩
      · intro _ n' hn'
        cases Option.some.inj (hseq.symm.trans hn')
        exact hvalid.1
      · intro _ hnoHash
        rw [hhash] at hnoHash
        cases hnoHash
    next => cases h
    next => cases h
    next hhash hseq =>
      have hgiven : args.prevArchive = none → ∀ n, args.prevSeq = some n → n + 1 ≠ 0 := by
        intro _ n hn
        rw [hseq] at hn
        cases hn
      split at h
      next hchronicle =>
        cases h
        refine ⟨fun _ => ⟨harchive, hgiven, ?_⟩, fun _ => rfl⟩
        intro _ _ path s hpath
        rw [hchronicle] at hpath
        cases hpath
      next path hchronicle =>
        split at h
        next habsent =>
          cases h
          refine ⟨fun _ => ⟨harchive, hgiven, ?_⟩, fun _ => rfl⟩
          intro _ _ path s _ hload
          rw [habsent] at hload
          cases hload
        next =>
          obtain ⟨s, hload, h⟩ := bind_eq_ok.mp h
          obtain ⟨_, -, h⟩ := bind_eq_ok.mp h
          cases h
          have hload := mapError_eq_ok.mp hload
          refine (validateChronicle_succ_iff _ _).trans ⟨fun hvalid => ⟨harchive, hgiven, ?_⟩,
            fun hfits => hfits.state hnone hhash path s hchronicle hload⟩
          intro _ _ path' s' _ hload'
          cases Except.ok.inj (hload.symm.trans hload')
          exact hvalid

section Made

variable {x : Crates} {c : ContentCrates} {fig : Figures} {st : Storage} {env : WrapEnv}
  {args : WrapCmd} {a : SignedArchive} {reader : Reader UInt8} {w : ArchiveWriter}
  {chunks : List Bytes} {out : ChunksOut} {deviceId : String} {data : ProfileMetadata}

theorem segmentsFrom_duration {job : ChunkJob} {i : Nat} {w : ArchiveWriter} {stored : List Bytes} :
    ∀ s ∈ segmentsFrom x fig job i w stored, s.durationSeconds = job.duration := by
  induction stored generalizing i w with
  | nil => simp [segmentsFrom]
  | cons bytes rest ih =>
    intro s hs
    rcases List.mem_cons.mp hs with rfl | hs
    · rfl
    · exact ih s hs

theorem SignedArchive.Made.content
    (h : a.Made x c fig st env args reader w chunks out deviceId data) :
    env.input.content = reader.rest := by
  unfold InputFile.content
  rw [h.opened]

/-- Something is stored exactly when there is something to store, in chunks of some size. -/
theorem SignedArchive.Made.stored_ne_nil_iff
    (h : a.Made x c fig st env args reader w chunks out deviceId data) :
    a.stored ≠ [] ↔ 0 < args.chunkSize ∧ env.input.content ≠ [] := by
  rw [h.content]
  have hlen := storedFrom_length h.chunks.stored
  rw [← h.stored] at hlen
  have hchunks : a.stored ≠ [] ↔ chunks ≠ [] := by
    rw [← List.length_pos_iff, ← List.length_pos_iff, hlen]
  rw [hchunks]
  constructor
  · intro hne
    obtain ⟨chunk, hmem⟩ := List.exists_mem_of_ne_nil _ hne
    obtain ⟨hpos, hle⟩ := h.chunks.sizes chunk hmem
    have hsize : 0 < args.chunkSize := Nat.lt_of_lt_of_le hpos hle
    refine ⟨hsize, fun hnil => ?_⟩
    have hwhole := h.chunks.whole hsize
    rw [hnil, List.flatten_eq_nil_iff] at hwhole
    rw [hwhole chunk hmem] at hpos
    cases hpos
  · rintro ⟨hsize, hrest⟩ hnil
    have hwhole := h.chunks.whole hsize
    rw [hnil] at hwhole
    exact hrest hwhole.symm

theorem SignedArchive.Made.floats_finite_iff
    (h : a.Made x c fig st env args reader w chunks out deviceId data) :
    (∀ f ∈ a.manifest.floats, f.isFinite = true) ↔
      (∀ f ∈ data.floats, f.isFinite = true) ∧ args.duration.isFinite = true := by
  have hchunk : a.manifest.chunk.durationSeconds = args.duration := by
    have hsealed := congrArg TrstManifest.chunk (sealManifest_eq_ok h.finished)
    refine (congrArg ChunkInfo.durationSeconds hsealed).trans ?_
    cases a.link <;> rfl
  simp only [TrstManifest.floats, List.forall_mem_append, List.forall_mem_cons, List.forall_mem_map,
    h.kept.metadata, hchunk]
  refine and_congr_right fun _ => ⟨And.left, fun hduration => ⟨hduration, fun s hs => ?_⟩⟩
  rw [h.segments] at hs
  rw [segmentsFrom_duration s hs]
  exact hduration

/-- The manifest of a wrap is valid and has finite floats exactly for inputs that fit. -/
theorem SignedArchive.Made.valid_iff (hfig : fig.Lawful)
    (h : a.Made x c fig st env args reader w chunks out deviceId data) :
    (a.manifest.validate = .ok () ∧ ∀ f ∈ a.manifest.floats, f.isFinite = true) ↔
      InputsFit fig st env args := by
  have hsealed := sealManifest_eq_ok h.finished
  have hsequence : a.manifest.sequence = a.link.map ChronicleLink.sequence := by
    refine (congrArg TrstManifest.sequence hsealed).trans ?_
    cases a.link <;> rfl
  have hprev : a.manifest.prevArchiveHash = a.link.bind ChronicleLink.prev := by
    refine (congrArg TrstManifest.prevArchiveHash hsealed).trans ?_
    cases a.link <;> rfl
  have hlink := validateChronicle_link_iff h.link
  rw [← hsequence, ← hprev] at hlink
  have hmetadata := profileMetadata_valid_iff hfig h.metadata
  rw [h.floats_finite_iff]
  constructor
  · rintro ⟨hvalid, hfloats, hduration⟩
    have hvalid := TrstManifest.validate_eq_ok.mp hvalid
    have hdata := hvalid.metadata
    rw [h.kept.metadata] at hdata
    obtain ⟨hstarted, hoptions⟩ := hmetadata.mp ⟨hdata, hfloats⟩
    have hstored : a.stored ≠ [] := by
      intro hnil
      apply hvalid.segments
      rw [h.segments, hnil]
      rfl
    obtain ⟨hsize, hinput⟩ := h.stored_ne_nil_iff.mp hstored
    exact ⟨h.kept.profile ▸ hvalid.profile, hsize, hinput, hstarted, hduration, hoptions,
      hlink.mp hvalid.chronicle⟩
  · intro hfits
    obtain ⟨hdata, hfloats⟩ := hmetadata.mpr ⟨hfits.started, hfits.options⟩
    exact ⟨h.validate hfits.profile hdata
      (h.stored_ne_nil_iff.mpr ⟨hfits.size, hfits.nonempty⟩) (hlink.mpr hfits.chronicle), hfloats,
      hfits.duration⟩

end Made

end Sealedge
