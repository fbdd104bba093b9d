import Sealedge.ManifestReads
import Sealedge.Unwrap
import Sealedge.WrapValid
import Mathlib.Data.Set.Function

namespace Sealedge

open Delimited Fallible PieceReader

section Texts

variable {x : TextCodec}

theorem segmentText_eq_of_same {a b : SegmentInfo}
    (h : SameSegment (fun f g => x.f64Display f = x.f64Display g) a b) :
    segmentText x a = segmentText x b := by
  obtain ⟨hfields, hduration⟩ := h
  rw [← hfields]
  unfold segmentText
  simp only [hduration]

theorem segmentsText_eq_of_same {a b : List SegmentInfo}
    (h : List.Forall₂ (SameSegment (fun f g => x.f64Display f = x.f64Display g)) a b) :
    segmentsText x a = segmentsText x b := by
  have hmap : a.map (segmentText x) = b.map (segmentText x) := by
    induction h with
    | nil => rfl
    | cons hhead _ ih => rw [List.map_cons, List.map_cons, segmentText_eq_of_same hhead, ih]
  unfold segmentsText
  rw [sepBy_congr hmap]

theorem optDisplay_eq_of_same {key : String} {v w : Option F64}
    (h : Option.Rel (fun f g => x.f64Display f = x.f64Display g) v w) :
    opt key x.f64Display v = opt key x.f64Display w := by
  cases h with
  | none => rfl
  | some hsame => rw [opt_some, opt_some, hsame]

theorem metadataText_eq_of_same {a b : ProfileMetadata}
    (h : SameMetadata (fun f g => x.f64Display f = x.f64Display g) a b) :
    metadataText x a = metadataText x b := by
  unfold SameMetadata at h
  split at h
  next a b =>
    obtain ⟨hfields, hfps⟩ := h
    rw [← hfields]
    simp only [metadataText, camVideoText, hfps]
  next a b =>
    obtain ⟨hfields, hrate, hlat, hlong, halt⟩ := h
    rw [← hfields]
    simp only [metadataText, sensorText, hrate, optDisplay_eq_of_same hlat,
      optDisplay_eq_of_same hlong, optDisplay_eq_of_same halt]
  next => rw [h]
  next => rw [h]
  next => rw [h]
  next => exact h.elim

theorem deviceText_eq_of_same {a b : DeviceInfo} (h : SameDevice a b) :
    deviceText x a = deviceText x b := by
  obtain ⟨hfields, hepoch⟩ := h
  rw [← hfields]
  unfold deviceText
  simp only [hepoch]

/-- Manifests with one text still have one without their encryption blocks. -/
theorem SameText.without_encryption {a b : TrstManifest}
    (h : SameText (fun f g => x.f64Display f = x.f64Display g) a b) :
    serializeCanonical x { a with encryption := none } =
      serializeCanonical x { b with encryption := none } := by
  have hchunk : chunkText x a.chunk = chunkText x b.chunk := by
    unfold chunkText
    rw [h.chunk.1, h.chunk.2]
  unfold serializeCanonical
  simp only [h.trstVersion, h.profile, deviceText_eq_of_same h.device,
    metadataText_eq_of_same h.metadata, hchunk, segmentsText_eq_of_same h.segments, h.claims,
    h.sequence, h.prevArchiveHash]

end Texts

theorem SameMetadata.startedAt_eq {same : F64 → F64 → Prop} {a b : TrstManifest}
    (h : SameMetadata same a.metadata b.metadata) : manifestStartedAt a = manifestStartedAt b := by
  unfold manifestStartedAt
  unfold SameMetadata at h
  split at h
  next ha hb => rw [ha, hb, ← h.1]
  next ha hb => rw [ha, hb, ← h.1]
  next ha hb => rw [ha, hb, h]
  next ha hb => rw [ha, hb, h]
  next ha hb => rw [ha, hb, h]
  next => exact h.elim

theorem SameDevice.publicKey_eq {a b : DeviceInfo} (h : SameDevice a b) :
    a.publicKey = b.publicKey := by
  have hfields := congrArg DeviceInfo.publicKey h.1
  exact hfields

section Recovery

variable {x : Crates} {c : ContentCrates} {fig : Figures} {st : Storage}

theorem profileMetadata_startedAt {args : WrapCmd} {startedAt : String} {n : Nat}
    {data : ProfileMetadata} (h : profileMetadata fig args startedAt n = .ok data)
    {m : TrstManifest} (hm : m.metadata = data) : manifestStartedAt m = startedAt := by
  unfold profileMetadata at h
  unfold manifestStartedAt
  rw [hm]
  split at h
  next =>
    dsimp only at h
    split at h
    · obtain ⟨_, -, h⟩ := bind_eq_ok.mp h
      rw [← Except.ok.inj h]
    · rw [← Except.ok.inj h]
  next =>
  split at h
  next =>
    obtain ⟨_, -, h⟩ := bind_eq_ok.mp h
    obtain ⟨_, -, h⟩ := bind_eq_ok.mp h
    obtain ⟨_, -, h⟩ := bind_eq_ok.mp h
    rw [← Except.ok.inj h]
  next =>
  split at h
  next =>
    obtain ⟨_, -, h⟩ := bind_eq_ok.mp h
    obtain ⟨_, -, h⟩ := bind_eq_ok.mp h
    obtain ⟨_, -, h⟩ := bind_eq_ok.mp h
    obtain ⟨_, -, h⟩ := bind_eq_ok.mp h
    rw [← Except.ok.inj h]
  next =>
  split at h
  next =>
    obtain ⟨_, -, h⟩ := bind_eq_ok.mp h
    obtain ⟨_, -, h⟩ := bind_eq_ok.mp h
    obtain ⟨_, -, h⟩ := bind_eq_ok.mp h
    obtain ⟨_, -, h⟩ := bind_eq_ok.mp h
    rw [← Except.ok.inj h]
  next => rw [← Except.ok.inj h]

theorem recoverChunk_stored (hc : c.Correct) {job : ChunkJob} {i : Nat} {chunk bytes : Bytes}
    (h : storeChunk c job i chunk = .ok bytes) :
    recoverChunk c (job.cek.map (fun key => (key, job.aad))) i bytes = .ok chunk := by
  unfold storeChunk at h
  cases hcek : job.cek with
  | none =>
    rw [hcek] at h
    rw [← Except.ok.inj h]
    rfl
  | some key =>
    rw [hcek] at h
    obtain ⟨ct, hct, h⟩ := bind_eq_ok.mp h
    have hct := mapError_eq_ok.mp (mapError_eq_ok.mp hct)
    have hbytes := Except.ok.inj h
    have hlen : bytes.length = 24 + ct.length := by
      rw [← hbytes, List.length_append, (job.nonce i).property]
    have hnonce : bytes.take 24 = (job.nonce i).val := by
      rw [← hbytes]
      exact List.take_left' (job.nonce i).property
    have hrest : bytes.drop 24 = ct := by
      rw [← hbytes]
      exact List.drop_left' (job.nonce i).property
    simp only [Option.map_some, recoverChunk]
    rw [dif_neg (by omega)]
    simp only [hnonce, hrest]
    exact mapError_eq_ok.mpr (decryptSegment_of_encryptSegment hc hct)

theorem recovered_eq_of_stored (hc : c.Correct) {job : ChunkJob} {i : Nat}
    {chunks stored plain : List Bytes} (hstored : StoredFrom c job i chunks stored)
    (hrecovered : RecoveredFrom c (job.cek.map (fun key => (key, job.aad))) i stored plain) :
    plain = chunks := by
  induction hstored generalizing plain with
  | nil =>
    cases hrecovered
    rfl
  | cons head tail ih =>
    cases hrecovered with
    | cons hplain hrest =>
      rw [recoverChunk_stored hc head] at hplain
      rw [ih hrest, Except.ok.inj hplain]

section Made

variable {env : WrapEnv} {args : WrapCmd} {a : SignedArchive} {reader : Reader UInt8}
  {w : ArchiveWriter} {chunks : List Bytes} {out : ChunksOut} {deviceId : String}
  {data : ProfileMetadata}

theorem SignedArchive.Made.whole
    (h : a.Made x c fig st env args reader w chunks out deviceId data) (hne : a.stored ≠ []) :
    chunks.flatten = reader.rest := by
  apply h.chunks.whole
  by_contra hzero
  have hempty : chunks = [] := by
    refine List.eq_nil_iff_forall_not_mem.mpr (fun chunk hchunk => ?_)
    have hsizes := h.chunks.sizes chunk hchunk
    omega
  have hstored := h.chunks.stored
  rw [hempty, ← h.stored] at hstored
  generalize a.stored = l at hstored hne
  cases hstored
  exact hne rfl

/-- Without its block a signed manifest has the text of the one that was sealed. -/
theorem SignedArchive.Made.without_encryption
    (h : a.Made x c fig st env args reader w chunks out deviceId data) :
    serializeCanonical x.text { a.manifest with encryption := none } =
      serializeCanonical x.text ((unsignedManifest args deviceId (a.bundle.signing.public x)
        (a.bundle.keyAgreement.publicString x c) data out.segments).stamp a.link) := by
  have hsealed := congrArg (fun m : TrstManifest => { m with encryption := none })
    (sealManifest_eq_ok h.finished)
  have htext := congrArg (serializeCanonical x.text) hsealed
  refine Eq.trans ?_ (htext.trans ?_)
  · exact (serializeCanonical_signature x.text { a.manifest with encryption := none } none).symm
  · cases a.link <;> rfl

/-- A manifest with the text of one that a run signed leads to that run's content key. -/
theorem SignedArchive.Made.openContentKey_eq
    (hbase : ∀ bytes, x.base64Decode (x.base64Encode bytes) = .ok bytes) (hc : c.Correct)
    (h : a.Made x c fig st env args reader w chunks out deviceId data) {m : TrstManifest}
    (hsame : SameText (fun f g => x.text.f64Display f = x.text.f64Display g) m a.manifest)
    {bundle : DeviceBundle} {ctx : DecryptContext}
    (hopen : openContentKey x c bundle m = .ok ctx) :
    ctx = (chunkJob x env args (a.bundle.signing.public x)).cek.map
      (fun key => (key, (chunkJob x env args (a.bundle.signing.public x)).aad)) := by
  have hkept := h.kept
  have hpublic : m.device.publicKey = a.bundle.signing.public x :=
    hsame.device.publicKey_eq.trans hkept.publicKey
  have hprofile : m.profile = args.profile := hsame.profile.trans hkept.profile
  have hstarted : manifestStartedAt m = env.timeFor args.seed :=
    hsame.metadata.startedAt_eq.trans (profileMetadata_startedAt h.metadata hkept.metadata)
  have hencryption := hsame.encryption
  have hfinished := h.finished
  unfold openContentKey at hopen
  cases hcek : (chunkJob x env args (a.bundle.signing.public x)).cek with
  | none =>
    rw [hcek] at hfinished
    rw [hencryption, h.encryption_none hcek] at hopen
    exact (Except.ok.inj hopen).symm
  | some cek =>
    rw [hcek] at hfinished
    obtain ⟨recipients, hrecipients, hblock⟩ := sealManifest_some_eq_ok hfinished
    have hblock : a.manifest.encryption = _ := hblock
    rw [hencryption, hblock] at hopen
    obtain ⟨entry, hentry, hopen⟩ := bind_eq_ok.mp hopen
    obtain ⟨opened, hopened, hopen⟩ := bind_eq_ok.mp hopen
    have hfound := orFail_eq_ok.mp hentry
    have hmine : entry.recipientPub = bundle.keyAgreement.publicString x c := by
      simpa using List.find?_some hfound
    obtain ⟨random, hseal⟩ := sealRecipients_sealed hrecipients entry (List.mem_of_find?_eq_some hfound)
    -- The manifest that was sealed is the signed one without its block.
    have hpre : ({ m with encryption := none } : TrstManifest).toCanonicalBytes x.text =
        ((unsignedManifest args deviceId (a.bundle.signing.public x)
          (a.bundle.keyAgreement.publicString x c) data out.segments).stamp a.link).toCanonicalBytes
          x.text := by
      apply toCanonicalBytes_inj.mpr
      rw [hsame.without_encryption, h.without_encryption]
    have hopened := mapError_eq_ok.mp hopened
    rw [hpre, hpublic, hsame.trstVersion, hkept.version] at hopened
    rw [hmine, stamp_trstVersion] at hseal
    have hkey := hpkeOpenCek_of_hpkeSealCek hbase hc hseal hopened
    rw [← Except.ok.inj hopen, hkey, hpublic, hprofile, hstarted]
    rfl

end Made

theorem SegmentsHold.length_eq {chunks : ChunksDir} {index : Nat} {previous : Digest}
    {segments : List SegmentInfo} {files : List Bytes}
    (h : SegmentsHold x chunks index previous segments files) : segments.length = files.length := by
  induction h with
  | nil => rfl
  | cons _ _ ih => simp [ih]

theorem ArchiveHolds.files_ne_nil {dir : SealDir} {m : TrstManifest} {sig : Bytes}
    {files : List Bytes} (h : ArchiveHolds x st dir m sig files) : files ≠ [] := by
  intro hnil
  have hcount := h.segments.length_eq
  rw [hnil] at hcount
  exact (TrstManifest.validate_eq_ok.mp h.valid).segments (List.length_eq_zero_iff.mp hcount)

theorem SegmentsHold.node {chunks : ChunksDir} {index : Nat} {previous : Digest}
    {segments : List SegmentInfo} {files : List Bytes}
    (h : SegmentsHold x chunks index previous segments files) {i : Nat} {bytes : Bytes}
    (hi : files[i]? = some bytes) : chunks.node (chunkFileName (index + i)) = .file bytes := by
  induction h generalizing i bytes with
  | nil => simp at hi
  | @cons index _ _ _ _ _ head _ ih =>
    exact Slices.forall_place_cons
      (P := fun place bytes => chunks.node (chunkFileName place) = .file bytes)
      head.stored (fun _ _ htail => ih htail) i bytes hi

end Recovery

/-- A directory whose `.bin` files are some chunks under the names of their positions. -/
def ChunksDir.HoldsExactly (stored : List Bytes) : ChunksDir → Prop
  | .directory listing =>
    (∀ i bytes, stored[i]? = some bytes →
      listing.node (intoBytes (chunkFileName i)) = .file bytes) ∧
    ∀ name ∈ listing.files.keys, intoBytes ".bin" <:+ name →
      ∃ i < stored.length, name = intoBytes (chunkFileName i)
  | _ => False

theorem chunkFileName_no_replacement (index : Nat) : '\uFFFD' ∉ (chunkFileName index).toList := by
  intro h
  unfold chunkFileName Numerals.padded at h
  simp only [String.toList_append, String.toList_ofList, List.mem_append] at h
  rcases h with (hzero | hdigit) | hend
  · exact absurd (List.eq_of_mem_replicate hzero) (by decide)
  · exact absurd (Numerals.repr_isDigit hdigit) (by decide)
  · exact absurd hend (by decide)

theorem SegmentsHold.directory {x : Crates} {chunks : ChunksDir} {index : Nat} {previous : Digest}
    {segments : List SegmentInfo} {files : List Bytes}
    (h : SegmentsHold x chunks index previous segments files) (hne : segments ≠ []) :
    ∃ listing, chunks = .directory listing := by
  cases h with
  | nil => exact absurd rfl hne
  | cons head _ =>
    have hstored := head.stored
    cases chunks with
    | directory listing => exact ⟨listing, rfl⟩
    | absent => cases hstored
    | notDirectory => cases hstored

/-- An archive that holds has the files of its segments in `chunks` and no others. -/
theorem ArchiveHolds.holdsExactly {x : Crates} {st : Storage} (hst : st.KeepsNames) {dir : SealDir}
    {m : TrstManifest} {sig : Bytes} {files : List Bytes} (h : ArchiveHolds x st dir m sig files) :
    dir.chunks.HoldsExactly files := by
  have hsegments := h.segments
  have hstray := h.referenced
  obtain ⟨listing, hchunks⟩ := hsegments.directory (TrstManifest.validate_eq_ok.mp h.valid).segments
  rw [hchunks] at hsegments hstray ⊢
  refine ⟨?_, ?_⟩
  · intro i bytes hi
    have hnode := hsegments.node hi
    rwa [Nat.zero_add] at hnode
  · intro name hname hbin
    have hmem := hstray.2 name hname (hst.ending name hbin)
    obtain ⟨i, hi, hfile⟩ := hsegments.mem_chunkFiles.mp hmem
    rw [Nat.zero_add] at hfile
    refine ⟨i, hi, ?_⟩
    rw [← hfile]
    exact (hst.exact name (hfile ▸ chunkFileName_no_replacement i)).symm

/-- The files that a directory holds exactly are the only ones its positions can be read as. -/
theorem SegmentsHold.eq_of_nodes {x : Crates} {chunks : ChunksDir} {previous : Digest}
    {segments : List SegmentInfo} {files stored : List Bytes}
    (h : SegmentsHold x chunks 0 previous segments files) (hlen : stored.length = segments.length)
    (hnodes : ∀ i b, stored[i]? = some b → chunks.node (chunkFileName (0 + i)) = .file b) :
    stored = files := by
  have hcount := h.length_eq
  refine List.ext_getElem (by omega) ?_
  intro i hi hi'
  have hleft := hnodes i _ (List.getElem?_eq_getElem hi)
  have hright := h.node (List.getElem?_eq_getElem hi')
  rw [hleft] at hright
  exact Node.file.inj hright

end Sealedge
