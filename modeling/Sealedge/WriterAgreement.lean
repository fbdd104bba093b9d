import Sealedge.ChronicleTip
import Sealedge.WrapReadable

namespace Sealedge

open Fallible

section Writing

variable (x : Crates) (st : Storage) (faults : Faults)

/-- A chunk pushed for each of some byte strings, with what the pushes return. -/
def ArchiveWriter.pushChunks (w : ArchiveWriter) :
    List Bytes → Except ArchiveError (List ChunkOutcome × ArchiveWriter)
  | [] => .ok ([], w)
  | bytes :: rest => do
    let (outcome, w) ← ArchiveWriter.pushChunk x faults w bytes
    let (outcomes, w) ← ArchiveWriter.pushChunks w rest
    pure (outcome :: outcomes, w)

/-- The chunk loop of `write_archive`. Its position is not cut to 32 bits. -/
def writeChunks (path : String) : Nat → List Bytes → ChunksDir → Except ArchiveError ChunksDir
  | _, [], chunks => .ok chunks
  | index, bytes :: rest, chunks => do
    (faults.attempt (path ++ "/chunks/" ++ chunkFileName index)).mapError .io
    writeChunks path (index + 1) rest (chunks.write (chunkFileName index) bytes)

/-- `write_archive`. Unlike `finalize` it does not cap the manifest, and it writes the manifest
before the chunks. -/
def writeArchive (dir : SealDir) (m : TrstManifest) (chunkCiphertexts : List Bytes)
    (detachedSig : Bytes) : Except ArchiveError SealDir := do
  failWhen (chunkCiphertexts.length != m.segments.length)
    (.schemaMismatch ("Chunk count mismatch: " ++ chunkCiphertexts.length.repr ++
      " chunks provided, " ++ m.segments.length.repr ++ " segments in manifest"))
  (faults.attempt dir.path).mapError .io
  (faults.attempt (dir.path ++ "/signatures")).mapError .io
  (faults.attempt (dir.path ++ "/chunks")).mapError .io
  let chunks ← ArchiveWriter.createChunks dir.chunks
  (faults.attempt (dir.path ++ "/manifest.json")).mapError .io
  (faults.attempt (dir.path ++ "/signatures/manifest.sig")).mapError .io
  let chunks ← writeChunks faults dir.path 0 chunkCiphertexts chunks
  pure
    { dir with
      manifestJson := dir.manifestJson.write (intoBytes (st.printManifest m))
      manifestSig := dir.manifestSig.write detachedSig
      chunks := chunks }

end Writing

/-- A segment that carries the name and the hashes of a chunk that was pushed. -/
structure SegmentInfo.BuiltFrom (segment : SegmentInfo) (o : ChunkOutcome) : Prop where
  name : segment.chunkFile = chunkFileName o.index.toNat
  hash : segment.blake3Hash = Numerals.hexEncode o.blake3.val
  link : segment.continuityHash = Numerals.hexEncode o.continuity.val

/-- What the directory `chunks` has under a name, whatever its bytes are. -/
def ChunksDir.entry : ChunksDir → Bytes → Node
  | directory listing, name => listing.node name
  | _, _ => .absent

section Agreement

variable {x : Crates} {st : Storage} {faults : Faults}

/-- The pushes leave the writer past their chunks, and segments built from what they return
describe these. -/
theorem ArchiveWriter.pushChunks_eq_ok {w w' : ArchiveWriter} {stored : List Bytes}
    {outcomes : List ChunkOutcome} (h : w.pushChunks x faults stored = .ok (outcomes, w')) :
    w' = w.after x stored ∧
      ∀ {segments}, List.Forall₂ SegmentInfo.BuiltFrom segments outcomes →
        Describes x w segments stored := by
  induction stored generalizing w outcomes with
  | nil =>
    obtain ⟨houtcomes, hw⟩ := Prod.mk.inj (Except.ok.inj h)
    subst houtcomes
    refine ⟨hw.symm, ?_⟩
    intro segments hbuilt
    cases hbuilt
    exact .nil
  | cons bytes rest ih =>
    obtain ⟨⟨o, w₁⟩, hpush, h⟩ := bind_eq_ok.mp h
    obtain ⟨⟨os, w₂⟩, hrest, h⟩ := bind_eq_ok.mp h
    obtain ⟨houtcomes, hw⟩ := Prod.mk.inj (Except.ok.inj h)
    obtain ⟨ho, hw₁⟩ := pushChunk_eq_ok hpush
    subst houtcomes hw ho hw₁
    obtain ⟨hafter, hdescribes⟩ := ih hrest
    refine ⟨hafter, ?_⟩
    intro segments hbuilt
    obtain ⟨segment, segments', hhead, htail, rfl⟩ := List.forall₂_cons_right_iff.mp hbuilt
    exact .cons hhead.name hhead.hash hhead.link (hdescribes htail)

theorem writeChunks_ok (hfaults : ∀ p, faults p = none) {path : String} {index : Nat}
    {stored : List Bytes} {listing : Listing} :
    writeChunks faults path index stored (.directory listing) =
      .ok (.directory (listing.putChunks index stored)) := by
  induction stored generalizing index listing with
  | nil => rfl
  | cons bytes rest ih =>
    have hattempt : (faults.attempt (path ++ "/chunks/" ++ chunkFileName index)).mapError
        ArchiveError.io = .ok () := by
      rw [Faults.attempt, hfaults]
      rfl
    unfold writeChunks
    exact bind_eq_ok.mpr ⟨(), hattempt, ih⟩

theorem writeArchive_empty (hfaults : ∀ p, faults p = none) {path : String} {m : TrstManifest}
    {stored : List Bytes} {sig : Bytes} (hcount : stored.length = m.segments.length) :
    writeArchive st faults (.empty path) m stored sig =
      .ok ⟨path, .file (intoBytes (st.printManifest m)), .file sig, .absent,
        .directory (Listing.empty.putChunks 0 stored)⟩ := by
  have hattempt : ∀ p, (faults.attempt p).mapError ArchiveError.io = .ok () := by
    intro p
    rw [Faults.attempt, hfaults]
    rfl
  unfold writeArchive
  refine bind_eq_ok.mpr ⟨(), failWhen_eq_ok.mpr (by simp [hcount]), ?_⟩
  refine bind_eq_ok.mpr ⟨(), hattempt _, bind_eq_ok.mpr ⟨(), hattempt _, ?_⟩⟩
  refine bind_eq_ok.mpr ⟨(), hattempt _, bind_eq_ok.mpr ⟨.directory .empty, rfl, ?_⟩⟩
  refine bind_eq_ok.mpr ⟨(), hattempt _, bind_eq_ok.mpr ⟨(), hattempt _, ?_⟩⟩
  exact bind_eq_ok.mpr ⟨_, writeChunks_ok hfaults, rfl⟩

/-- Chunks that are held exactly fix what stands under every name that ends in `.bin`. -/
theorem ChunksDir.HoldsExactly.entry_eq {chunks chunks' : ChunksDir} {stored : List Bytes}
    (h : chunks.HoldsExactly stored) (h' : chunks'.HoldsExactly stored) {name : Bytes}
    (hbin : intoBytes ".bin" <:+ name) : chunks.entry name = chunks'.entry name := by
  cases chunks with
  | absent => exact h.elim
  | notDirectory => exact h.elim
  | directory listing =>
    cases chunks' with
    | absent => exact h'.elim
    | notDirectory => exact h'.elim
    | directory listing' =>
      show listing.node name = listing'.node name
      by_cases hname : ∃ i < stored.length, name = intoBytes (chunkFileName i)
      · obtain ⟨i, hi, hi'⟩ := hname
        rw [hi', h.1 i _ (List.getElem?_eq_getElem hi), h'.1 i _ (List.getElem?_eq_getElem hi)]
      · have hout : name ∉ listing.files.keys := fun hmem => hname (h.2 name hmem hbin)
        have hout' : name ∉ listing'.files.keys := fun hmem => hname (h'.2 name hmem hbin)
        unfold Listing.node
        rw [AList.lookup_eq_none.mpr hout, AList.lookup_eq_none.mpr hout']

theorem ArchiveWriter.finalized_empty {path : String} {w : ArchiveWriter} {stored : List Bytes}
    {m : TrstManifest} {sig : Bytes} {dir : SealDir}
    (hcreate : ArchiveWriter.create x faults (.empty path) = .ok w)
    (hfinal : ArchiveWriter.Finalized st (w.after x stored) m sig dir)
    (hfits : stored.length < 2 ^ 32) :
    dir = ⟨path, .file (intoBytes (st.printManifest m)), .file sig, .absent,
      .directory (Listing.empty.putChunks 0 stored)⟩ := by
  obtain ⟨chunks, hchunks, rfl⟩ := ArchiveWriter.create_eq_ok hcreate
  cases hchunks
  have hafter : (ArchiveWriter.after x
      ⟨{ SealDir.empty path with chunks := .directory .empty }, 0, chainGenesis x⟩ stored).dir.chunks =
      .directory (Listing.empty.putChunks 0 stored) :=
    ArchiveWriter.after_chunks rfl (show 0 + stored.length ≤ 2 ^ 32 by omega)
  rw [hfinal.written, ArchiveWriter.after_dir, hafter]
  rfl

/-- The contents that are hashed when a directory is compared with the chunks written to it. -/
def comparedContents (chunks : ChunksDir) (stored : List Bytes) : Set Bytes :=
  { bytes | (∃ name, chunks.node name = .file bytes) ∨ bytes ∈ stored }

/-- An archive of the streaming writer is accepted, is the one that `write_archive` writes, and is
refused once a `.bin` name has other contents. -/
theorem archiveWriter_agrees_with_validateArchive (hlossy : ∀ s, st.utf8Lossy (intoBytes s) = s)
    (hnames : st.KeepsNames) {path : String} {stored : List Bytes}
    (hcapped : ∀ bytes ∈ stored, bytes.length ≤ maxStoredChunkBytes) {w w' : ArchiveWriter}
    {outcomes : List ChunkOutcome} {m : TrstManifest} {sig : String} {dir : SealDir}
    (hcreate : ArchiveWriter.create x faults (.empty path) = .ok w)
    (hpush : w.pushChunks x faults stored = .ok (outcomes, w')) (hvalid : m.validate = .ok ())
    (hbuilt : List.Forall₂ SegmentInfo.BuiltFrom m.segments outcomes)
    (hsig : m.signature = some sig) (hshort : (intoBytes sig).length ≤ sigMaxBytes)
    (hlossless : st.parseManifest (intoBytes (st.printManifest m)) = .ok m)
    (hfinal : w'.finalize st faults m (intoBytes sig) = .ok dir) :
    validateArchive x st dir = .ok () ∧
      (∀ path' faults', (∀ p, faults' p = none) →
        writeArchive st faults' (.empty path') m stored (intoBytes sig) =
          .ok { dir with path := path' }) ∧
      ∀ chunks, Set.InjOn x.blake3 (comparedContents chunks stored) →
        (∃ name, intoBytes ".bin" <:+ name ∧ chunks.entry name ≠ dir.chunks.entry name) →
        validateArchive x st { dir with chunks := chunks } ≠ .ok () := by
  obtain ⟨rfl, hdescribe⟩ := ArchiveWriter.pushChunks_eq_ok hpush
  have hdescribes := hdescribe hbuilt
  have hdone := ArchiveWriter.finalize_eq_ok hfinal
  have hlength := hdescribes.length_eq
  -- The writer counts in 32 bits, so the count check of `finalize` bounds the number of chunks.
  have hcount : stored.length < 2 ^ 32 := by
    have hcounted := hdone.counted
    have hlt := (w.after x stored).nextIndex.toNat_lt
    omega
  have hdir := ArchiveWriter.finalized_empty hcreate hdone hcount
  obtain ⟨created, -, hw⟩ := ArchiveWriter.create_eq_ok hcreate
  have hread : readManifest st dir = .ok (m, intoBytes sig) := by
    refine readManifest_eq_ok.mpr ⟨_, by rw [hdir], hdone.capped, hlossless, by rw [hdir], hshort, ?_⟩
    intro embedded hembedded
    rw [hlossy]
    exact Option.some.inj (hembedded.symm.trans hsig)
  have hholds : ArchiveHolds x st dir m (intoBytes sig) stored := by
    refine hdescribes.archiveHolds (by rw [hw]; rfl) (by rw [hw]) hcount hread hvalid ?_
      (by rw [hdir]) (Listing.breaksOff_putChunks _ _ _) ?_
    · intro i bytes hi
      refine ⟨?_, hcapped bytes (List.mem_of_getElem? hi)⟩
      rw [hdir]
      exact Listing.node_putChunks _ hi
    · intro name hname _
      rcases Listing.mem_keys_putChunks.mp hname with ⟨i, hi, hnew⟩ | hold
      · exact ⟨i, hi, by rw [hnew, hlossy, Nat.zero_add]⟩
      · cases hold
  refine ⟨validateArchive_eq_ok.mpr ⟨_, _, _, hholds⟩, ?_, ?_⟩
  · intro path' faults' hfaults
    rw [writeArchive_empty hfaults hlength.symm, hdir]
  · rintro chunks hinj ⟨name, hbin, hchanged⟩ haccepts
    obtain ⟨m', sig', files, hholds'⟩ := validateArchive_eq_ok.mp haccepts
    obtain ⟨rfl, rfl⟩ : m = m' ∧ intoBytes sig = sig' := by
      have hsame := hread.symm.trans hholds'.read
      exact Prod.mk.inj (Except.ok.inj hsame)
    have hfiles : files = stored := by
      refine hdescribes.files_eq hholds'.segments hinj ?_ (fun b hb => Or.inr hb)
      intro b hb
      obtain ⟨i, hi, rfl⟩ := List.mem_iff_getElem.mp hb
      exact Or.inl ⟨_, hholds'.segments.node (List.getElem?_eq_getElem hi)⟩
    rw [hfiles] at hholds'
    exact hchanged ((hholds'.holdsExactly hnames).entry_eq (hholds.holdsExactly hnames) hbin)

end Agreement

theorem sample_stored_injOn {x : Crates} {fig : Figures} {st : Storage} {k : DeviceKeypair}
    {a : SignedArchive}
    (ha : signArchive x sampleContent fig st (sampleWrapEnv k) sampleWrapCmd = .ok a) :
    Set.InjOn headHash { bytes | bytes ∈ a.stored } := by
  have hp : Plain "generic" := by unfold Plain; decide
  obtain ⟨-, hcount, -, -, -⟩ := sample_made fig _ k sampleContent_wellFormed hp ha
  obtain ⟨reader, w, pieces, out, deviceId, data, hmade⟩ := signArchive_eq_ok ha
  have hhead : ∀ {j : Nat} {bytes : Bytes}, a.stored[j]? = some bytes →
      ∃ rest, bytes = UInt8.ofNat j :: rest := by
    intro j bytes hj
    rw [hmade.stored] at hj
    obtain ⟨rest, hrest⟩ := sample_stored_head rfl rfl hmade.chunks.stored hj
    exact ⟨rest, by rw [hrest, Nat.zero_add]⟩
  intro bytes hbytes bytes' hbytes' heq
  obtain ⟨i, hi, hget⟩ := List.mem_iff_getElem.mp hbytes
  obtain ⟨j, hj, hget'⟩ := List.mem_iff_getElem.mp hbytes'
  obtain ⟨rest, hrest⟩ := hhead (List.getElem?_eq_some_iff.mpr ⟨hi, hget⟩)
  obtain ⟨rest', hrest'⟩ := hhead (List.getElem?_eq_some_iff.mpr ⟨hj, hget'⟩)
  rw [hrest, hrest'] at heq
  have hsame := congrArg UInt8.toNat (headHash_head heq)
  rw [UInt8.toNat_ofNat', UInt8.toNat_ofNat', Nat.mod_eq_of_lt (by omega),
    Nat.mod_eq_of_lt (by omega)] at hsame
  subst hsame
  exact hget.symm.trans hget'

/-- Pushing succeeds where no write fails, and the segments of a wrap are built from what it
returns. -/
theorem ArchiveWriter.pushChunks_ok {x : Crates} {faults : Faults} (hfaults : ∀ p, faults p = none)
    (fig : Figures) (job : ChunkJob) (i : Nat) (w : ArchiveWriter) (stored : List Bytes) :
    ∃ outcomes, w.pushChunks x faults stored = .ok (outcomes, w.after x stored) ∧
      List.Forall₂ SegmentInfo.BuiltFrom (segmentsFrom x fig job i w stored) outcomes := by
  induction stored generalizing i w with
  | nil => exact ⟨[], rfl, .nil⟩
  | cons bytes rest ih =>
    obtain ⟨outcomes, hrest, hbuilt⟩ := ih (i + 1) (w.advance x bytes)
    have hpush : ArchiveWriter.pushChunk x faults w bytes =
        .ok (w.outcome x bytes, w.advance x bytes) := by
      unfold ArchiveWriter.pushChunk Faults.attempt
      rw [hfaults]
      rfl
    refine ⟨w.outcome x bytes :: outcomes, ?_, .cons ⟨rfl, rfl, rfl⟩ hbuilt⟩
    unfold ArchiveWriter.pushChunks
    exact bind_eq_ok.mpr ⟨_, hpush, bind_eq_ok.mpr ⟨_, hrest, rfl⟩⟩

theorem archiveWriter_agrees_sample :
    ∃ (a : SignedArchive) (w : ArchiveWriter) (outcomes : List ChunkOutcome) (dir : SealDir),
      ArchiveWriter.create headCrates (fun _ => none) (.empty "day0.seal") = .ok w ∧
      w.pushChunks headCrates (fun _ => none) a.stored = .ok (outcomes, a.writer) ∧
      a.writer.finalize (runStorage a.manifest) (fun _ => none) a.manifest
        (intoBytes a.signature) = .ok dir ∧
      validateArchive headCrates (runStorage a.manifest) dir = .ok () ∧
      writeArchive (runStorage a.manifest) (fun _ => none) (.empty "copy.seal") a.manifest a.stored
        (intoBytes a.signature) = .ok { dir with path := "copy.seal" } ∧
      validateArchive headCrates (runStorage a.manifest)
        { dir with chunks := .directory .empty } ≠ .ok () := by
  have hx := headCrates_signsLawfully
  have hp : Plain "generic" := by unfold Plain; decide
  obtain ⟨a, result, ha, hwrap, hfinal, -⟩ := sample_wrap hx.base64 hx.publicLength sampleFigures
    (sampleKey 1) headCrates_signsShort
  obtain ⟨hstored, -, hcapped, -, -⟩ := sample_made sampleFigures _ (sampleKey 1)
    sampleContent_wellFormed hp ha
  have hvalid := sample_valid sampleFigures _ (sampleKey 1) sampleContent_wellFormed ha
  obtain ⟨reader, w, chunks, out, deviceId, data, hmade⟩ := signArchive_eq_ok ha
  obtain ⟨outcomes, hpush, hbuilt⟩ := ArchiveWriter.pushChunks_ok (x := headCrates)
    (fun _ => rfl : ∀ p, (sampleWrapEnv (sampleKey 1)).faults p = none) sampleFigures
    (chunkJob headCrates (sampleWrapEnv (sampleKey 1)) sampleWrapCmd
      (a.bundle.signing.public headCrates)) 0 w a.stored
  have hwriter : a.writer = w.after headCrates a.stored := by
    rw [hmade.writer, hmade.stored, hmade.chunks.writer]
  rw [← hwriter] at hpush
  rw [← hmade.segments] at hbuilt
  have hshort : (intoBytes a.signature).length ≤ sigMaxBytes := by
    rw [hmade.signature]
    exact headCrates_signsShort _ _
  have hdone : a.writer.finalize (runStorage a.manifest) (fun _ => none) a.manifest
      (intoBytes a.signature) = .ok result.dir := by
    obtain ⟨a', ha', hwrap⟩ := bind_eq_ok.mp hwrap
    obtain ⟨dir, hdir, hwrap⟩ := bind_eq_ok.mp hwrap
    obtain ⟨stateFile, -, hwrap⟩ := bind_eq_ok.mp hwrap
    cases Except.ok.inj (ha.symm.trans ha')
    rw [← Except.ok.inj hwrap]
    exact mapError_eq_ok.mp hdir
  obtain ⟨haccepts, hsame, hrefuses⟩ := archiveWriter_agrees_with_validateArchive sampleLossy_text
    (runStorage_keepsNames a.manifest) hcapped hmade.created hpush hvalid hbuilt hmade.signed hshort
    (runStorage_parse a.manifest) hdone
  refine ⟨a, w, outcomes, result.dir, hmade.created, hpush, hdone, haccepts,
    hsame "copy.seal" _ (fun _ => rfl), hrefuses (.directory .empty) ?_ ?_⟩
  · refine (sample_stored_injOn ha).mono ?_
    rintro bytes (⟨name, hnode⟩ | hmem)
    · cases hnode
    · exact hmem
  · obtain ⟨bytes, rest, hcons⟩ := List.exists_cons_of_ne_nil hstored
    have hget : a.stored[0]? = some bytes := by rw [hcons]; rfl
    refine ⟨intoBytes (chunkFileName 0), ?_, ?_⟩
    · exact ⟨_, (intoBytes_append _ _).symm⟩
    · have hnode : (Listing.empty.putChunks 0 a.stored).node (intoBytes (chunkFileName (0 + 0))) =
          (Node.absent).write bytes := Listing.node_putChunks _ hget
      rw [(hmade.leftBehind hfinal).chunks]
      show Node.absent ≠ (Listing.empty.putChunks 0 a.stored).node (intoBytes (chunkFileName 0))
      rw [hnode]
      intro h
      cases h

end Sealedge
