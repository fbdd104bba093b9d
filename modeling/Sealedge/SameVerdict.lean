import Sealedge.ReceiptSound

namespace Sealedge

open Fallible

section Verdicts

variable {x : Crates} {sv : ManifestSerde} {st : Storage}

/-- The platform passes the signature and the continuity of a request. -/
def PlatformPasses (x : Crates) (sv : ManifestSerde) (request : VerifyRequest) : Prop :=
  ∃ report, verifyToReport x sv request.manifest request.segments request.devicePub = .ok report ∧
    report.passes = true

/-- Everything `seal verify` checks apart from unreferenced files. -/
structure AcceptsUnscanned (x : Crates) (st : Storage) (args : VerifyCmd) (m : TrstManifest)
    (sig : Bytes) (signature : String) (files : List Bytes) : Prop where
  read : readManifest st args.archive = .ok (m, sig)
  version : m.trstVersion = "0.2.0"
  signed : m.signature = some signature
  verified : verifyManifest x (withAlgorithm args.devicePub) (m.toCanonicalBytes x.text) signature =
    .ok true
  valid : m.validate = .ok ()
  segments : SegmentsHold x args.archive.chunks 0 (chainGenesis x) m.segments files

/-- `seal verify` accepts, its check for unreferenced files aside. -/
def CliAccepts (x : Crates) (st : Storage) (args : VerifyCmd) : Prop :=
  ∃ m sig signature files, AcceptsUnscanned x st args m sig signature files

/-- With that check, it accepts what is free of unreferenced files. -/
theorem handleVerify_iff_unscanned {args : VerifyCmd} :
    handleVerify x st args = .ok () ↔
      ∃ m sig signature files, AcceptsUnscanned x st args m sig signature files ∧
        NoStrayChunk st (m.segments.map SegmentInfo.chunkFile) args.archive.chunks := by
  rw [handleVerify_eq_ok]
  constructor
  · rintro ⟨m, sig, signature, h⟩
    obtain ⟨m', sig', files, hholds⟩ := validateArchive_eq_ok.mp h.valid
    obtain ⟨rfl, rfl⟩ : m = m' ∧ sig = sig' :=
      Prod.mk.inj (Except.ok.inj (h.read.symm.trans hholds.read))
    exact ⟨m, sig, signature, files, ⟨h.read, h.version, h.signed, h.verified, hholds.valid,
      hholds.segments⟩, hholds.referenced⟩
  · rintro ⟨m, sig, signature, files, h, hreferenced⟩
    exact ⟨m, sig, signature, h.read, h.version, h.signed, h.verified,
      validateArchive_eq_ok.mpr ⟨m, sig, files, h.read, hreferenced, h.valid, h.segments⟩⟩

theorem withAlgorithm_of_startsWith {key : String}
    (h : Texts.startsWith key "ed25519:" = true ∨ Texts.startsWith key "ecdsa-p256:" = true) :
    withAlgorithm key = key := by
  unfold withAlgorithm
  rw [if_pos (Bool.or_eq_true_iff.mpr h)]

theorem FilesNamed.unique {chunks : ChunksDir} {index : Nat} {segments : List SegmentInfo}
    {files files' : List Bytes} (h : FilesNamed chunks index segments files)
    (h' : FilesNamed chunks index segments files') : files = files' := by
  induction h generalizing files' with
  | nil =>
    cases h'
    rfl
  | cons _ stored _ _ ih =>
    cases h' with
    | cons _ stored' _ tail' =>
      rw [Node.file.inj (stored.symm.trans stored'), ih tail']

/-- `seal verify` accepts exactly the signed chains whose manifest is valid and spells its hashes
plainly. It does not look at the key that the manifest names. -/
theorem cliAccepts_iff {dir : SealDir} {devicePub : String} {m : TrstManifest} {sig : Bytes}
    {files : List Bytes}
    (halgorithm : Texts.startsWith devicePub "ed25519:" = true ∨
      Texts.startsWith devicePub "ecdsa-p256:" = true)
    (hread : readManifest st dir = .ok (m, sig)) (hfiles : FilesNamed dir.chunks 0 m.segments files) :
    CliAccepts x st ⟨dir, devicePub⟩ ↔
      SignedChain x m devicePub files ∧ m.validate = .ok () ∧ ∀ s ∈ m.segments, s.Plain := by
  have hkey := withAlgorithm_of_startsWith halgorithm
  constructor
  · rintro ⟨m', sig', signature, files', h⟩
    obtain ⟨rfl, rfl⟩ : m = m' ∧ sig = sig' :=
      Prod.mk.inj (Except.ok.inj (hread.symm.trans h.read))
    obtain ⟨hfiles', hchain, hplain⟩ := segmentsHold_iff.mp h.segments
    cases hfiles.unique hfiles'
    have hverified := h.verified
    rw [hkey] at hverified
    exact ⟨⟨h.version, ⟨signature, h.signed, hverified⟩, hchain⟩, h.valid, hplain⟩
  · rintro ⟨⟨hversion, ⟨signature, hsigned, hverified⟩, hchain⟩, hvalid, hplain⟩
    refine ⟨m, sig, signature, files, hread, hversion, hsigned, ?_, hvalid,
      segmentsHold_iff.mpr ⟨hfiles, hchain, hplain⟩⟩
    rw [hkey]
    exact hverified

/-- The platform and `seal verify` agree on an emitted request exactly when a signed chain names
the key of the request just if its manifest is valid and spells its hashes plainly. -/
theorem platform_agrees_iff
    (hround : ∀ bytes m, st.parseManifest bytes = .ok m → sv.fromValue m.toValue = .ok m)
    (hsized : ∀ bytes m, st.parseManifest bytes = .ok m → m.segments.length ≤ bytes.length)
    {args : EmitRequestCmd} {request : VerifyRequest}
    (hemit : handleEmitRequest x st args = .ok request)
    (halgorithm : Texts.startsWith request.devicePub "ed25519:" = true ∨
      Texts.startsWith request.devicePub "ecdsa-p256:" = true) :
    ∃ m sig files, readManifest st args.archive = .ok (m, sig) ∧
      FilesNamed args.archive.chunks 0 m.segments files ∧
      ((PlatformPasses x sv request ↔ CliAccepts x st ⟨args.archive, request.devicePub⟩) ↔
        (SignedChain x m request.devicePub files →
          (m.device.publicKey = request.devicePub ↔
            m.validate = .ok () ∧ ∀ s ∈ m.segments, s.Plain))) := by
  obtain ⟨m, sig, files, content, hread, hfiles, -, rfl⟩ := handleEmitRequest_eq_ok.mp hemit
  obtain ⟨bytes, hfrom⟩ := readManifest_eq_ok.mp hread
  have hlen := hfiles.length_eq
  -- The manifest file is capped, so the positions fit the 32 bits of a submitted index.
  have hcount : files.length ≤ 2 ^ 32 := by
    have hsize := hsized bytes m hfrom.parsed
    have hcap := hfrom.jsonCapped
    have hmax : manifestMaxBytes ≤ 2 ^ 32 := by decide
    omega
  have hplatform : PlatformPasses x sv ⟨selectDevicePub content, m.toValue, digestsFrom x 0 files,
      ⟨true, some m.device.id⟩⟩ ↔ _ :=
    emitted_passes_iff (hround bytes m hfrom.parsed) halgorithm hlen hcount
  have hcli : CliAccepts x st ⟨args.archive, selectDevicePub content⟩ ↔ _ :=
    cliAccepts_iff halgorithm hread hfiles
  refine ⟨m, sig, files, hread, hfiles, ?_⟩
  rw [hplatform, hcli]
  constructor
  · intro h hchain
    constructor
    · intro hkey
      exact (h.mp ⟨hkey, hchain⟩).2
    · intro hvalid
      exact (h.mpr ⟨hchain, hvalid⟩).1
  · intro h
    constructor
    · rintro ⟨hkey, hchain⟩
      exact ⟨hchain, (h hchain).mp hkey⟩
    · rintro ⟨hchain, hvalid⟩
      exact ⟨(h hchain).mpr hvalid, hchain⟩

end Verdicts

theorem runStorage_parse_eq {m m' : TrstManifest} {bytes : Bytes}
    (h : (runStorage m).parseManifest bytes = .ok m') : m' = m ∧ bytes = intoBytes "manifest" := by
  unfold runStorage at h
  simp only at h
  split at h
  next hbytes => exact ⟨(Except.ok.inj h).symm, hbytes⟩
  next => cases h

/-- The `.pub` file of the sample device. -/
def samplePubFile : Node := .file (intoBytes ((sampleKey 1).public sampleCrates))

theorem samplePubFile_read :
    readToString samplePubFile = .ok ((sampleKey 1).public sampleCrates) := by
  unfold readToString samplePubFile
  refine bind_eq_ok.mpr ⟨_, rfl, ?_⟩
  rw [utf8Decode_intoBytes]

theorem selectDevicePub_sample :
    selectDevicePub ((sampleKey 1).public sampleCrates) = (sampleKey 1).public sampleCrates := by
  decide +kernel

/-- The request that is emitted for a sample archive. -/
def sampleRequest (m : TrstManifest) (stored : List Bytes) : VerifyRequest :=
  ⟨(sampleKey 1).public sampleCrates, m.toValue, digestsFrom sampleCrates 0 stored,
    ⟨true, some m.device.id⟩⟩

theorem sampleRequest_emitted {st : Storage} {dir : SealDir} {m : TrstManifest} {sig : Bytes}
    {stored : List Bytes} (hread : readManifest st dir = .ok (m, sig))
    (hfiles : FilesNamed dir.chunks 0 m.segments stored) :
    handleEmitRequest sampleCrates st ⟨dir, samplePubFile⟩ = .ok (sampleRequest m stored) := by
  refine handleEmitRequest_eq_ok.mpr ⟨m, sig, stored, _, hread, hfiles, samplePubFile_read, ?_⟩
  rw [selectDevicePub_sample]
  rfl

theorem sampleRequest_algorithm (m : TrstManifest) (stored : List Bytes) :
    Texts.startsWith (sampleRequest m stored).devicePub "ed25519:" = true :=
  Texts.startsWith_append _ _

theorem platform_agrees_sample :
    ∃ (a : SignedArchive) (dir : SealDir) (request : VerifyRequest),
      handleEmitRequest sampleCrates (runStorage a.manifest) ⟨dir, samplePubFile⟩ = .ok request ∧
      ∃ m sig files, readManifest (runStorage a.manifest) dir = .ok (m, sig) ∧
        FilesNamed dir.chunks 0 m.segments files ∧
        ((PlatformPasses sampleCrates (sampleSerde a.manifest) request ↔
            CliAccepts sampleCrates (runStorage a.manifest) ⟨dir, request.devicePub⟩) ↔
          (SignedChain sampleCrates m request.devicePub files →
            (m.device.publicKey = request.devicePub ↔
              m.validate = .ok () ∧ ∀ s ∈ m.segments, s.Plain))) := by
  have hx := sampleCrates_signsLawfully
  have hp : Plain "generic" := by unfold Plain; decide
  obtain ⟨a, result, ha, -, hfinal, -⟩ := sample_wrap hx.base64 hx.publicLength sampleFigures
    (sampleKey 1) sampleCrates_signsShort
  obtain ⟨-, hcount, -, -, -⟩ := sample_made sampleFigures _ (sampleKey 1)
    sampleContent_wellFormed hp ha
  obtain ⟨hread, hfiles, -, -⟩ := sample_signedChain hx sampleCrates_signsShort hp ha hfinal
  have hemit := sampleRequest_emitted hread hfiles
  have hround : ∀ bytes m, (runStorage a.manifest).parseManifest bytes = .ok m →
      (sampleSerde a.manifest).fromValue m.toValue = .ok m := by
    intro bytes m h
    rw [(runStorage_parse_eq h).1]
    exact sampleSerde_toValue a.manifest
  have hsized : ∀ bytes m, (runStorage a.manifest).parseManifest bytes = .ok m →
      m.segments.length ≤ bytes.length := by
    intro bytes m h
    obtain ⟨hm, hbytes⟩ := runStorage_parse_eq h
    have hlen := hfiles.length_eq
    have htext : (intoBytes "manifest").length = 8 := by decide
    rw [hm, hbytes]
    omega
  exact ⟨a, result.dir, _, hemit, platform_agrees_iff hround hsized hemit
    (Or.inl (sampleRequest_algorithm _ _))⟩

section Renamed

variable (x : Crates)

/-- A manifest that names another key, signed again by the first one. -/
def renamed (k other : DeviceKeypair) (m : TrstManifest) : TrstManifest :=
  let unsigned : TrstManifest :=
    { m with device := { m.device with publicKey := other.public x }, signature := none }
  { unsigned with signature := some (signManifest x k (unsigned.toCanonicalBytes x.text)) }

variable {x} (hx : x.SignsLawfully) (hshort : x.SignsShort) {k other : DeviceKeypair}
  {m : TrstManifest}

theorem renamed_validate (h : m.validate = .ok ()) : (renamed x k other m).validate = .ok () := by
  have hvalid := TrstManifest.validate_eq_ok.mp h
  refine TrstManifest.validate_eq_ok.mpr { hvalid with publicKey := ?_ }
  intro he
  have hlen := congrArg (fun s : String => s.toList.length) he
  simp [renamed, DeviceKeypair.public] at hlen

theorem renamed_canonical :
    (renamed x k other m).toCanonicalBytes x.text =
      ({ m with device := { m.device with publicKey := other.public x }, signature := none } :
        TrstManifest).toCanonicalBytes x.text := by
  unfold renamed TrstManifest.toCanonicalBytes
  rfl

include hx hshort in
theorem renamed_accepted (k other : DeviceKeypair) {dir : SealDir} {sig : Bytes} {files : List Bytes}
    (hversion : m.trstVersion = "0.2.0")
    (hholds : ArchiveHolds x (runStorage m) dir m sig files) :
    ∃ dir', dir'.chunks = dir.chunks ∧
      readManifest (runStorage (renamed x k other m)) dir' = .ok (renamed x k other m,
        intoBytes (signManifest x k ((renamed x k other m).toCanonicalBytes x.text))) ∧
      handleVerify x (runStorage (renamed x k other m)) ⟨dir', k.public x⟩ = .ok () := by
  have hsignature : (renamed x k other m).signature =
      some (signManifest x k ((renamed x k other m).toCanonicalBytes x.text)) := by
    rw [renamed_canonical]
    rfl
  let dir' : SealDir := ⟨dir.path, .file (intoBytes "manifest"),
    .file (intoBytes (signManifest x k ((renamed x k other m).toCanonicalBytes x.text))),
    .absent, dir.chunks⟩
  have hread : readManifest (runStorage (renamed x k other m)) dir' = .ok (renamed x k other m,
      intoBytes (signManifest x k ((renamed x k other m).toCanonicalBytes x.text))) := by
    refine readManifest_eq_ok.mpr ⟨intoBytes "manifest", rfl, by decide, ?_, rfl, hshort _ _, ?_⟩
    · unfold runStorage
      simp
    · intro embedded hembedded
      rw [hsignature] at hembedded
      rw [← Option.some.inj hembedded]
      exact (sampleLossy_text _).symm
  refine ⟨dir', rfl, hread, handleVerify_eq_ok.mpr ⟨_, _, _, hread, hversion, hsignature, ?_, ?_⟩⟩
  · rw [withAlgorithm_public]
    exact verifyManifest_signManifest hx k _
  · exact validateArchive_eq_ok.mpr ⟨_, _, files, hread, hholds.referenced,
      renamed_validate hholds.valid, hholds.segments⟩

end Renamed

/-- The platform issues a receipt for a manifest that `validate` rejects, and with it
`seal verify`; and `seal verify` accepts under a key a manifest that names another one,
which the platform does not pass. -/
theorem platform_disagrees :
    (∃ (a : SignedArchive) (dir : SealDir) (request : VerifyRequest) (response : VerifyResponse),
      handleEmitRequest sampleCrates (runStorage a.manifest) ⟨dir, samplePubFile⟩ = .ok request ∧
      PlatformPasses sampleCrates (sampleSerde a.manifest) request ∧
      verifyHandler sampleCrates (sampleSerde a.manifest) samplePlatform .stateless request =
        .ok response ∧
      response.receipt = some "header.payload.signature" ∧ a.manifest.validate ≠ .ok () ∧
      ¬ CliAccepts sampleCrates (runStorage a.manifest) ⟨dir, request.devicePub⟩) ∧
    ∃ (m : TrstManifest) (dir : SealDir) (request : VerifyRequest),
      handleEmitRequest sampleCrates (runStorage m) ⟨dir, samplePubFile⟩ = .ok request ∧
      handleVerify sampleCrates (runStorage m) ⟨dir, request.devicePub⟩ = .ok () ∧
      m.device.publicKey ≠ request.devicePub ∧
      ¬ PlatformPasses sampleCrates (sampleSerde m) request := by
  have hx := sampleCrates_signsLawfully
  constructor
  · have hp : Plain "video" := by unfold Plain; decide
    obtain ⟨a, result, ha, -, hfinal⟩ := sample_wrapped hx.base64 hx.publicLength sampleFigures
      (sampleKey 1) hp
    obtain ⟨hstored, hcount, -, -, -⟩ := sample_made sampleFigures _ (sampleKey 1)
      sampleContent_wellFormed hp ha
    obtain ⟨hread, hfiles, hkey, hchain⟩ :=
      sample_signedChain hx sampleCrates_signsShort hp ha hfinal
    have halgorithm := sampleRequest_algorithm a.manifest a.stored
    obtain ⟨report, hreport, hpasses⟩ := (emitted_passes_iff (sampleSerde_toValue a.manifest)
      (Or.inl halgorithm) hfiles.length_eq (by omega)).mpr ⟨hkey, hchain⟩
    have hinvalid : a.manifest.validate ≠ .ok () := by
      obtain ⟨reader, w, chunks, out, deviceId, data, hmade⟩ := signArchive_eq_ok ha
      intro h
      have hprofile := (TrstManifest.validate_eq_ok.mp h).profile
      rw [hmade.kept.profile] at hprofile
      exact absurd hprofile (by decide)
    obtain ⟨hsignature, hcontinuity⟩ := Bool.and_eq_true_iff.mp hpasses
    have hpub : (sampleKey 1).public sampleCrates ≠ "" := by
      intro he
      have hstarts : Texts.startsWith ((sampleKey 1).public sampleCrates) "ed25519:" = true :=
        halgorithm
      rw [he] at hstarts
      exact absurd hstarts (by decide)
    have hbuilt : buildReceiptIfRequested sampleCrates (sampleSerde a.manifest) samplePlatform
        (sampleRequest a.manifest a.stored) report = .ok (some "header.payload.signature") := by
      unfold buildReceiptIfRequested
      rw [hsignature, hcontinuity]
      rfl
    refine ⟨a, result.dir, sampleRequest a.manifest a.stored, _, sampleRequest_emitted hread hfiles,
      ⟨report, hreport, hpasses⟩, bind_eq_ok.mpr ⟨(), mapError_eq_ok.mpr
        (validateVerifyRequestFull_emitted hstored hpub), bind_eq_ok.mpr ⟨report,
          mapError_eq_ok.mpr hreport, bind_eq_ok.mpr ⟨_, mapError_eq_ok.mpr hbuilt, rfl⟩⟩⟩, rfl,
      hinvalid, ?_⟩
    intro haccepts
    exact hinvalid ((cliAccepts_iff (Or.inl halgorithm) hread hfiles).mp haccepts).2.1
  · obtain ⟨a, result, ha, -, hfinal, hvalid⟩ := sample_wrap hx.base64 hx.publicLength sampleFigures
      (sampleKey 1) sampleCrates_signsShort
    have hp : Plain "generic" := by unfold Plain; decide
    obtain ⟨-, hcount, -, -, -⟩ := sample_made sampleFigures _ (sampleKey 1)
      sampleContent_wellFormed hp ha
    obtain ⟨hread, hfiles, -, hchain⟩ := sample_signedChain hx sampleCrates_signsShort hp ha hfinal
    obtain ⟨m, sig, files, hholds⟩ := validateArchive_eq_ok.mp hvalid
    obtain ⟨rfl, rfl⟩ : a.manifest = m ∧ intoBytes a.signature = sig :=
      Prod.mk.inj (Except.ok.inj (hread.symm.trans hholds.read))
    obtain ⟨dir, hchunks, hread', haccepts⟩ := renamed_accepted hx sampleCrates_signsShort
      (sampleKey 1) (sampleKey 2) hchain.version hholds
    have hfiles' : FilesNamed dir.chunks 0
        (renamed sampleCrates (sampleKey 1) (sampleKey 2) a.manifest).segments a.stored := by
      rw [hchunks]
      exact hfiles
    have hother : (renamed sampleCrates (sampleKey 1) (sampleKey 2) a.manifest).device.publicKey ≠
        (sampleKey 1).public sampleCrates := by
      show (sampleKey 2).public sampleCrates ≠ (sampleKey 1).public sampleCrates
      decide +kernel
    refine ⟨_, dir, _, sampleRequest_emitted hread' hfiles', haccepts, hother, ?_⟩
    intro hpasses
    have hpassed := (emitted_passes_iff (sampleSerde_toValue _)
      (Or.inl (sampleRequest_algorithm _ a.stored)) hfiles'.length_eq (by omega)).mp hpasses
    exact hother hpassed.1

end Sealedge
