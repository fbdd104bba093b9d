import Sealedge.Archive

namespace Sealedge

open Fallible

/-- The writes that fail, by the path they go to. -/
abbrev Faults := String → Option IoError

def Faults.attempt (faults : Faults) (path : String) : Except IoError Unit :=
  match faults path with
  | some e => .error e
  | none => .ok ()

/-- What stands at a path after a file was written there. What could not be read before still
cannot be. -/
def Node.write (bytes : Bytes) : Node → Node
  | unreadable regular reason => unreadable regular reason
  | _ => file bytes

def ChunksDir.write (name : String) (bytes : Bytes) : ChunksDir → ChunksDir
  | directory listing =>
    directory (listing.put (intoBytes name) ((listing.node (intoBytes name)).write bytes))
  | other => other

/-- The hashes of a chunk that was written. -/
structure ChunkOutcome where
  index : UInt32
  blake3 : Digest
  continuity : Digest
  deriving DecidableEq

/-- The streaming writer: the directory so far, the next position and the last link. -/
structure ArchiveWriter where
  dir : SealDir
  nextIndex : UInt32
  chainState : Digest

namespace ArchiveWriter

section Writing

variable (x : Crates) (st : Storage) (faults : Faults)

/-- The directory `chunks` after `create_dir_all`. -/
def createChunks : ChunksDir → Except ArchiveError ChunksDir
  | .absent => .ok (.directory .empty)
  | .notDirectory => .error (.io (.other "File exists (os error 17)"))
  | .directory listing => .ok (.directory listing)

/-- `ArchiveWriter::create`. -/
def create (dir : SealDir) : Except ArchiveError ArchiveWriter := do
  (faults.attempt dir.path).mapError .io
  (faults.attempt (dir.path ++ "/signatures")).mapError .io
  (faults.attempt (dir.path ++ "/chunks")).mapError .io
  let chunks ← createChunks dir.chunks
  pure { dir := { dir with chunks := chunks }, nextIndex := 0, chainState := chainGenesis x }

/-- What pushing a chunk returns. -/
def outcome (w : ArchiveWriter) (storedBytes : Bytes) : ChunkOutcome where
  index := w.nextIndex
  blake3 := segmentHash x storedBytes
  continuity := chainNext x w.chainState (segmentHash x storedBytes)

/-- The writer past a chunk. The position is counted in 32 bits. -/
def advance (w : ArchiveWriter) (storedBytes : Bytes) : ArchiveWriter where
  dir := { w.dir with chunks := w.dir.chunks.write (chunkFileName w.nextIndex.toNat) storedBytes }
  nextIndex := w.nextIndex + 1
  chainState := (w.outcome x storedBytes).continuity

def pushChunk (w : ArchiveWriter) (storedBytes : Bytes) :
    Except ArchiveError (ChunkOutcome × ArchiveWriter) := do
  (faults.attempt (w.dir.path ++ "/chunks/" ++ chunkFileName w.nextIndex.toNat)).mapError .io
  pure (w.outcome x storedBytes, w.advance x storedBytes)

/-- `ArchiveWriter::finalize`: the directory with its manifest and its detached signature. -/
def finalize (w : ArchiveWriter) (m : TrstManifest) (detachedSig : Bytes) :
    Except ArchiveError SealDir := do
  failWhen (m.segments.length != w.nextIndex.toNat)
    (.schemaMismatch ("Chunk count mismatch: " ++ w.nextIndex.toNat.repr ++ " chunks written, " ++
      m.segments.length.repr ++ " segments in manifest"))
  let manifestJson := intoBytes (st.printManifest m)
  failWhen (decide (manifestMaxBytes < manifestJson.length))
    (.schemaMismatch ("manifest exceeds the reader cap (" ++ manifestJson.length.repr ++ " > " ++
      manifestMaxBytes.repr ++ " bytes); increase --chunk-size"))
  (faults.attempt (w.dir.path ++ "/manifest.json")).mapError .io
  (faults.attempt (w.dir.path ++ "/signatures/manifest.sig")).mapError .io
  pure
    { w.dir with
      manifestJson := w.dir.manifestJson.write manifestJson
      manifestSig := w.dir.manifestSig.write detachedSig }

/-- The writer past some chunks. -/
def after (w : ArchiveWriter) (stored : List Bytes) : ArchiveWriter :=
  stored.foldl (advance x) w

end Writing

section Facts

variable {x : Crates} {st : Storage} {faults : Faults}

@[simp] theorem after_cons (w : ArchiveWriter) (bytes : Bytes) (rest : List Bytes) :
    w.after x (bytes :: rest) = (w.advance x bytes).after x rest := rfl

theorem create_eq_ok {dir : SealDir} {w : ArchiveWriter} (h : create x faults dir = .ok w) :
    ∃ chunks, createChunks dir.chunks = .ok chunks ∧
      w = ⟨{ dir with chunks := chunks }, 0, chainGenesis x⟩ := by
  obtain ⟨_, -, h⟩ := bind_eq_ok.mp h
  obtain ⟨_, -, h⟩ := bind_eq_ok.mp h
  obtain ⟨_, -, h⟩ := bind_eq_ok.mp h
  obtain ⟨chunks, hchunks, h⟩ := bind_eq_ok.mp h
  exact ⟨chunks, hchunks, (Except.ok.inj h).symm⟩

theorem pushChunk_eq_ok {w w' : ArchiveWriter} {bytes : Bytes} {o : ChunkOutcome}
    (h : pushChunk x faults w bytes = .ok (o, w')) : o = w.outcome x bytes ∧ w' = w.advance x bytes := by
  obtain ⟨_, -, h⟩ := bind_eq_ok.mp h
  obtain ⟨ho, hw⟩ := Prod.mk.inj (Except.ok.inj h)
  exact ⟨ho.symm, hw.symm⟩

/-- What finalizing has checked and written. -/
structure Finalized (st : Storage) (w : ArchiveWriter) (m : TrstManifest) (detachedSig : Bytes)
    (dir : SealDir) : Prop where
  counted : m.segments.length = w.nextIndex.toNat
  capped : (intoBytes (st.printManifest m)).length ≤ manifestMaxBytes
  written : dir =
    { w.dir with
      manifestJson := w.dir.manifestJson.write (intoBytes (st.printManifest m))
      manifestSig := w.dir.manifestSig.write detachedSig }

theorem finalize_eq_ok {w : ArchiveWriter} {m : TrstManifest} {detachedSig : Bytes} {dir : SealDir}
    (h : finalize st faults w m detachedSig = .ok dir) : Finalized st w m detachedSig dir := by
  obtain ⟨_, hcount, h⟩ := bind_eq_ok.mp h
  obtain ⟨_, hcap, h⟩ := bind_eq_ok.mp h
  obtain ⟨_, -, h⟩ := bind_eq_ok.mp h
  obtain ⟨_, -, h⟩ := bind_eq_ok.mp h
  have hcount := failWhen_eq_ok.mp hcount
  have hcap := failWhen_eq_ok.mp hcap
  exact ⟨by simpa using hcount, by simpa using hcap, (Except.ok.inj h).symm⟩

theorem after_dir (w : ArchiveWriter) (stored : List Bytes) :
    (w.after x stored).dir = { w.dir with chunks := (w.after x stored).dir.chunks } := by
  induction stored generalizing w with
  | nil => rfl
  | cons bytes rest ih => exact ih (w.advance x bytes)

end Facts

end ArchiveWriter

section Agreement

variable {x : Crates}

/-- What is written there can be read. -/
def Node.Writable (node : Node) : Prop :=
  ∀ bytes, node.write bytes = .file bytes

theorem Node.write_eq_file {node : Node} {bytes content : Bytes}
    (h : node.write bytes = .file content) : node.Writable ∧ content = bytes := by
  cases node with
  | absent => exact ⟨fun _ => rfl, (Node.file.inj h).symm⟩
  | file old => exact ⟨fun _ => rfl, (Node.file.inj h).symm⟩
  | unreadable regular reason => cases h

theorem ArchiveWriter.advance_nextIndex {w : ArchiveWriter} (bytes : Bytes)
    (h : w.nextIndex.toNat + 1 < 2 ^ 32) :
    (w.advance x bytes).nextIndex.toNat = w.nextIndex.toNat + 1 := by
  show (w.nextIndex + 1).toNat = _
  rw [UInt32.toNat_add]
  exact Nat.mod_eq_of_lt h

theorem ArchiveWriter.after_nextIndex {w : ArchiveWriter} {stored : List Bytes}
    (h : w.nextIndex.toNat + stored.length < 2 ^ 32) :
    (w.after x stored).nextIndex.toNat = w.nextIndex.toNat + stored.length := by
  induction stored generalizing w with
  | nil => rfl
  | cons bytes rest ih =>
    rw [List.length_cons] at h ⊢
    have hnext := w.advance_nextIndex (x := x) bytes (by omega)
    rw [ArchiveWriter.after_cons, ih (by omega)]
    omega

end Agreement

end Sealedge
