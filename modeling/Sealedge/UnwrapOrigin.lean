import Sealedge.SignedDocuments
import Sealedge.WriterAgreement

namespace Sealedge

open Fallible PieceReader

/-- A call of the program that signs with a device key. -/
inductive SigningEvent
  | wrap (env : WrapEnv) (args : WrapCmd)
  | rotation (oldSigning : DeviceKeypair) (oldEpoch : UInt32) (newSigning : DeviceKeypair)
      (newKeyAgreement : String) (sequence : UInt64) (prevArchiveHash rotatedAt : String)
  | witness (signing : DeviceKeypair) (sequence : UInt64) (tip signedAt : String)
  | attestation (subject evidence : PointAttestation.Artifact) (keypair : DeviceKeypair)
      (nonceBytes : Bytes) (timestamp : String)

section Events

variable (x : Crates) (c : ContentCrates) (fig : Figures) (st : Storage)

/-- The call has signed these bytes with the key. A wrap has signed when its manifest is, even if
it fails after that. -/
def SigningEvent.Signs (k : DeviceKeypair) : SigningEvent → Bytes → Prop
  | wrap env args, bytes =>
    ∃ a, signArchive x c fig st env args = .ok a ∧ a.bundle.signing = k ∧
      bytes = a.manifest.toCanonicalBytes x.text
  | rotation oldSigning oldEpoch newSigning newKeyAgreement sequence prevArchiveHash rotatedAt,
    bytes =>
    (oldSigning = k ∨ newSigning = k) ∧
      bytes = (RotationRecord.createSigned x oldSigning oldEpoch newSigning newKeyAgreement sequence
        prevArchiveHash rotatedAt).signingBytes x.text
  | witness signing sequence tip signedAt, bytes =>
    signing = k ∧
      bytes = (WitnessRequest.createSigned x signing sequence tip signedAt).signingBytes x.text
  | attestation subject evidence keypair nonceBytes timestamp, bytes =>
    keypair = k ∧ ∃ a,
      PointAttestation.create x st subject evidence keypair nonceBytes timestamp = .ok a ∧
      bytes = a.canonicalBytes x.text

/-- The signature that a document carries is no forgery: if it verifies under the key, one of the
calls signed the message. -/
def Unforgeable (k : DeviceKeypair) (history : Set SigningEvent) (msg : Bytes)
    (signature : String) : Prop :=
  verifyManifest x (k.public x) msg signature = .ok true → ∃ e ∈ history, e.Signs x c fig st k msg

/-- The chunk contents that are hashed: those in a directory and those the wraps of a history
stored. -/
def chunkContents (chunks : ChunksDir) (history : Set SigningEvent) : Set Bytes :=
  { bytes | (∃ name, chunks.node name = .file bytes) ∨
    ∃ env args a, .wrap env args ∈ history ∧ signArchive x c fig st env args = .ok a ∧
      bytes ∈ a.stored }

end Events

theorem SigningEvent.Signs.wrap_of_manifest {x : Crates} {c : ContentCrates} {fig : Figures}
    {st : Storage} (hx : x.text.Escapes) {k : DeviceKeypair} {e : SigningEvent} {m : TrstManifest}
    (h : e.Signs x c fig st k (m.toCanonicalBytes x.text)) :
    ∃ env args a, e = .wrap env args ∧ signArchive x c fig st env args = .ok a ∧
      a.bundle.signing = k ∧ m.toCanonicalBytes x.text = a.manifest.toCanonicalBytes x.text := by
  obtain ⟨s, hs⟩ := toCanonicalBytes_head x.text m
  cases e with
  | wrap env args =>
    obtain ⟨a, ha, hk, hbytes⟩ := h
    exact ⟨env, args, a, rfl, ha, hk, hbytes⟩
  | rotation => exact absurd h.2 (toCanonicalBytes_ne_signingBytes hx m _)
  | witness =>
    obtain ⟨t, ht⟩ :=
      WitnessRequest.signingBytes_head x.text (WitnessRequest.createSigned x _ _ _ _)
    exact absurd (hs.symm.trans (h.2.trans ht)) (intoBytes_ne_of_diverge (by decide))
  | attestation =>
    obtain ⟨-, a, -, hbytes⟩ := h
    obtain ⟨t, ht⟩ := PointAttestation.canonicalBytes_head x.text a
    exact absurd (hs.symm.trans (hbytes.trans ht)) (intoBytes_ne_of_diverge (by decide))

/-- Unwrapping an archive under the key of a device that signs through this program only returns
what that device wrapped. -/
theorem unwrap_returns_wrapped {x : Crates} {c : ContentCrates} {fig : Figures} {st : Storage}
    (hx : x.text.Lawful) (hbase : ∀ bytes, x.base64Decode (x.base64Encode bytes) = .ok bytes)
    (hc : c.Correct) (hst : st.KeepsNames) {k : DeviceKeypair} {history : Set SigningEvent}
    {env : UnwrapEnv} {args : UnwrapCmd}
    (hinj : Set.InjOn x.blake3 (chunkContents x c fig st args.archive.chunks history))
    {m : TrstManifest} {sig : Bytes} (hread : readManifest st args.archive = .ok (m, sig))
    (hdevice : m.device.publicKey = k.public x)
    (hunforgeable : ∀ signature ∈ m.signature,
      Unforgeable x c fig st k history (m.toCanonicalBytes x.text) signature)
    {files files' : OutputFiles}
    (h : handleUnwrap x c st env args files = (.ok (), files')) :
    ∃ wenv wargs a reader, .wrap wenv wargs ∈ history ∧
      signArchive x c fig st wenv wargs = .ok a ∧ a.bundle.signing = k ∧
      a.manifest.toCanonicalBytes x.text = m.toCanonicalBytes x.text ∧
      args.archive.chunks.HoldsExactly a.stored ∧
      wenv.input.opened = .ok reader ∧ files'.target = .file reader.rest := by
  obtain ⟨bundle, m', sig', signature, ctx, bytes, hprepared, hchunks, rfl⟩ := handleUnwrap_eq_ok h
  obtain ⟨rfl, rfl⟩ : m' = m ∧ sig' = sig := by
    have hsame := hprepared.read.symm.trans hread
    exact Prod.mk.inj (Except.ok.inj hsame)
  -- The signature is one of the device, over the bytes of a wrap.
  have hverified := hprepared.verified
  rw [hdevice] at hverified
  obtain ⟨e, hmem, hsigns⟩ := hunforgeable signature hprepared.signed hverified
  obtain ⟨wenv, wargs, a, rfl, hsigned, hk, hbytes⟩ := hsigns.wrap_of_manifest hx.escapes
  obtain ⟨reader, w, chunks, out, deviceId, data, hmade⟩ := signArchive_eq_ok hsigned
  have hsame := sameText_of_serializeCanonical_eq hx (toCanonicalBytes_inj.mp hbytes)
  -- The files are the chunks of that wrap.
  obtain ⟨m₁, sig₁, stored, hholds⟩ := validateArchive_eq_ok.mp hprepared.valid
  obtain ⟨rfl, rfl⟩ : m₁ = m' ∧ sig₁ = sig' := by
    have hsame := hholds.read.symm.trans hread
    exact Prod.mk.inj (Except.ok.inj hsame)
  have hsegments := hsame.segments
  rw [hmade.segments] at hsegments
  have hfiles : stored = a.stored := by
    refine (describes_segmentsFrom.of_same hsegments).files_eq hholds.segments hinj ?_ ?_
    · intro b hb
      obtain ⟨i, hi, rfl⟩ := List.mem_iff_getElem.mp hb
      exact Or.inl ⟨_, hholds.segments.node (List.getElem?_eq_getElem hi)⟩
    · intro b hb
      exact Or.inr ⟨wenv, wargs, a, hmem, hsigned, hb⟩
  have hexact := hholds.holdsExactly hst
  rw [hfiles] at hexact
  -- The chunks are recovered to what the wrap read.
  obtain ⟨recovered, plain, hlen, hrecovered, hflat, hnodes⟩ := recoverChunks_eq_ok hchunks
  have hsame_files := hholds.segments.eq_of_nodes hlen hnodes
  rw [hmade.openContentKey_eq hbase hc hsame hprepared.opened, hsame_files, hfiles,
    hmade.stored] at hrecovered
  have hplain := recovered_eq_of_stored hc hmade.chunks.stored hrecovered
  have hne : a.stored ≠ [] := hfiles ▸ hholds.files_ne_nil
  refine ⟨wenv, wargs, a, reader, hmem, hsigned, hk, hbytes.symm, hexact, hmade.opened, ?_⟩
  rw [← hflat, hplain]
  exact congrArg Node.file (hmade.whole hne)

section Sample

variable {x : Crates} (hx : x.SignsLawfully) (hshort : x.SignsShort) (htext : x.text.Lawful)
  {fig : Figures} {st : Storage} {k : DeviceKeypair} {a : SignedArchive} {dir : SealDir}

include hx hshort htext in
/-- The sample archive is read and unwrapped. -/
theorem sample_unwraps
    (ha : signArchive x sampleContent fig (runStorage a.manifest) (sampleWrapEnv k) sampleWrapCmd =
      .ok a)
    (hfinal : ArchiveWriter.Finalized (runStorage a.manifest) a.writer a.manifest
      (intoBytes a.signature) dir) (output : String) (files : OutputFiles) :
    readManifest (runStorage a.manifest) dir = .ok (a.manifest, intoBytes a.signature) ∧
      a.manifest.device.publicKey = k.public x ∧
      handleUnwrap x sampleContent (runStorage a.manifest) ⟨.ok (sampleBundle k), noFaults⟩
          ⟨dir, none, output⟩ files =
        (.ok (), ⟨.file [1, 2, 3], .absent⟩) := by
  have hp : Plain "generic" := by unfold Plain; decide
  obtain ⟨-, -, hcapped, -, -⟩ := sample_made fig _ k sampleContent_wellFormed hp ha
  have hvalid := sample_valid fig _ k sampleContent_wellFormed ha
  obtain ⟨reader, w, chunks, out, deviceId, data, hmade⟩ := signArchive_eq_ok ha
  have hbundle : sampleBundle k = a.bundle := Except.ok.inj hmade.bundle
  have hreader : reader = ⟨[1, 2, 3], [1]⟩ := (Except.ok.inj hmade.opened).symm
  have hleft := hmade.leftBehind hfinal
  have hclean := sample_outputClean (runStorage a.manifest) k a.stored.length
  have hback : ReadsBack x (runStorage a.manifest) a.manifest a.manifest :=
    ⟨runStorage_parse _, rfl, rfl, hvalid⟩
  have hverified : verifyManifest x (a.bundle.signing.public x) (a.manifest.toCanonicalBytes x.text)
      a.signature = .ok true := by
    rw [hmade.signature]
    exact verifyManifest_signManifest hx _ _
  have hmay : MayOpen x sampleContent sampleWrapCmd a.bundle (sampleBundle k) :=
    Or.inr (Or.inl (by rw [hbundle]))
  have hholds := hmade.archiveHolds htext sampleLossy_text hshort hleft hclean hcapped hback
  refine ⟨hholds.read, ?_, ?_⟩
  · rw [hmade.kept.publicKey, ← hbundle]
    rfl
  · have hunwrap := hmade.unwraps hx.base64 hshort htext sampleContent_correct
      sampleContent_wellFormed sampleLossy_text hleft hclean hcapped hback hverified hmay output
      files
    rw [hunwrap, hreader]

theorem sample_chunkContents_injOn {chunks : ChunksDir} {history : Set SigningEvent}
    (ha : signArchive x sampleContent fig st (sampleWrapEnv k) sampleWrapCmd = .ok a)
    (hchunks : chunks = .directory (Listing.empty.putChunks 0 a.stored))
    (hhistory : history = {.wrap (sampleWrapEnv k) sampleWrapCmd}) :
    Set.InjOn headHash (chunkContents x sampleContent fig st chunks history) := by
  refine (sample_stored_injOn ha).mono ?_
  rintro bytes (⟨name, hnode⟩ | ⟨env, args, a', hevent, ha', hstored⟩)
  · rw [hchunks] at hnode
    exact mem_stored_of_node hnode
  · rw [hhistory] at hevent
    cases hevent
    rw [← Except.ok.inj (ha'.symm.trans ha)]
    exact hstored

theorem sample_unforgeable (signature : String)
    (ha : signArchive x sampleContent fig st (sampleWrapEnv k) sampleWrapCmd = .ok a) :
    Unforgeable x sampleContent fig st k {.wrap (sampleWrapEnv k) sampleWrapCmd}
      (a.manifest.toCanonicalBytes x.text) signature := by
  intro _
  obtain ⟨reader, w, pieces, out, deviceId, data, hmade⟩ := signArchive_eq_ok ha
  have hbundle : sampleBundle k = a.bundle := Except.ok.inj hmade.bundle
  refine ⟨_, rfl, a, ha, ?_, rfl⟩
  rw [← hbundle]
  rfl

end Sample

theorem unwrap_returns_wrapped_sample :
    ∃ (a : SignedArchive) (dir : SealDir),
      handleUnwrap headCrates sampleContent (runStorage a.manifest)
        ⟨.ok (sampleBundle (sampleKey 1)), noFaults⟩ ⟨dir, none, "clip.out"⟩ ⟨.absent, .absent⟩ =
        (.ok (), ⟨.file [1, 2, 3], .absent⟩) ∧
      ∃ wenv wargs a' reader,
        SigningEvent.wrap wenv wargs ∈
          ({.wrap (sampleWrapEnv (sampleKey 1)) sampleWrapCmd} : Set SigningEvent) ∧
        signArchive headCrates sampleContent sampleFigures (runStorage a.manifest) wenv wargs =
          .ok a' ∧
        dir.chunks.HoldsExactly a'.stored ∧ wenv.input.opened = .ok reader ∧
        Node.file [1, 2, 3] = .file reader.rest := by
  have hx := headCrates_signsLawfully
  obtain ⟨a, result, ha, -, hfinal, -⟩ := sample_wrap hx.base64 hx.publicLength sampleFigures
    (sampleKey 1) headCrates_signsShort
  obtain ⟨hread, hdevice, hunwrap⟩ := sample_unwraps hx headCrates_signsShort serdeText_lawful ha
    hfinal "clip.out" ⟨.absent, .absent⟩
  have hchunks : result.dir.chunks = .directory (Listing.empty.putChunks 0 a.stored) := by
    obtain ⟨reader, w, chunks, out, deviceId, data, hmade⟩ := signArchive_eq_ok ha
    exact (hmade.leftBehind hfinal).chunks
  refine ⟨a, result.dir, hunwrap, ?_⟩
  obtain ⟨wenv, wargs, a', reader, hmem, hsigned, -, -, hexact, hopened, hfile⟩ :=
    unwrap_returns_wrapped serdeText_lawful hx.base64 sampleContent_correct
      (runStorage_keepsNames _) (sample_chunkContents_injOn ha hchunks rfl) hread hdevice
      (fun signature _ => sample_unforgeable signature ha) hunwrap
  exact ⟨wenv, wargs, a', reader, hmem, hsigned, hexact, hopened, hfile⟩

end Sealedge
