import Mathlib.Algebra.Group.Nat.Defs
import Sealedge.PieceReader
import Sealedge.Storage

namespace Sealedge

open Fallible PieceReader

def manifestMaxBytes : Nat := 8 * 1024 * 1024
def sigMaxBytes : Nat := 4 * 1024
def maxChunkSizeBytes : Nat := 256 * 1024 * 1024

/-- The plaintext cap with the nonce and the tag of the content cipher. -/
def maxStoredChunkBytes : Nat := maxChunkSizeBytes + 24 + 16

inductive ChainError
  | gap (index : Nat)
  | outOfOrder (expected found : String)
  deriving DecidableEq

def ChainError.display : ChainError → String
  | gap index => "Gap in chain at segment index " ++ index.repr
  | outOfOrder expected found =>
    "Segments out of order: expected continuity hash " ++ expected ++ ", found " ++ found

inductive ArchiveError
  | io (e : IoError)
  | json (reason : String)
  | schemaMismatch (reason : String)
  | missingChunk (name : String)
  | unreferencedChunk (name : String)
  | invalidChunkIndex (expected found : Nat)
  | signatureMismatch
  | chain (e : ChainError)
  | validationFailed (reason : String)
  deriving DecidableEq

def ArchiveError.display : ArchiveError → String
  | io e => "IO error: " ++ e.display
  | json reason => "JSON error: " ++ reason
  | schemaMismatch reason => "Schema mismatch: " ++ reason
  | missingChunk name => "Missing chunk file: " ++ name
  | unreferencedChunk name => "Unreferenced chunk file in archive: " ++ name
  | invalidChunkIndex expected found =>
    "Invalid chunk index: expected " ++ expected.repr ++ ", found " ++ found.repr
  | signatureMismatch =>
    "Signature mismatch: manifest.signature does not match signatures/manifest.sig"
  | chain e => "Continuity chain error: " ++ e.display
  | validationFailed reason => "Archive validation failed: " ++ reason

section Chain

variable (x : Crates)

/-- `chain_next`: the hash of both digests one after the other. -/
def chainNext (prev curr : Digest) : Digest := x.blake3 (prev.val ++ curr.val)

def chainGenesis : Digest := x.blake3 (intoBytes "sealedge:genesis")

structure ChainSegment where
  index : Nat
  storedHash : Digest
  storedContinuity : Digest

def checkIndices : Nat → List ChainSegment → Except ChainError Unit
  | _, [] => .ok ()
  | i, segment :: rest =>
    if segment.index ≠ i then .error (.gap i) else checkIndices (i + 1) rest

def checkContinuity : Digest → List ChainSegment → Except ChainError Unit
  | _, [] => .ok ()
  | previous, segment :: rest =>
    let expected := chainNext x previous segment.storedHash
    if expected ≠ segment.storedContinuity then
      .error (.outOfOrder (Numerals.hexEncode expected.val)
        (Numerals.hexEncode segment.storedContinuity.val))
    else checkContinuity expected rest

def validateChain (segments : List ChainSegment) : Except ChainError Unit :=
  if segments.isEmpty then .ok ()
  else do
    checkIndices 0 segments
    checkContinuity x (chainGenesis x) segments

end Chain

/-- The name of the chunk file at a position. -/
def chunkFileName (index : Nat) : String :=
  Numerals.padded 5 index ++ ".bin"

theorem chunkFileName_injective : Function.Injective chunkFileName := by
  intro i j h
  exact Numerals.padded_injective 5 ((String.append_left_inj ".bin").mp h)

/-- `str::parse::<usize>` on a text too short to overflow. -/
def parseUsize (s : String) : Option Nat :=
  let digits := if s.toList.head? = some '+' then s.toList.tail else s.toList
  if digits.isEmpty || !digits.all Char.isDigit then none
  else some (Nat.ofDigitChars 10 digits 0)

def parseChunkIndex (filename : String) : Except ArchiveError Nat :=
  if !Texts.endsWith filename ".bin" || filename.utf8ByteSize != 9 then
    .error (.schemaMismatch ("Invalid chunk filename format: " ++ filename))
  else
    match parseUsize (String.ofList (filename.toList.take (filename.toList.length - 4))) with
    | some index => .ok index
    | none => .error (.schemaMismatch ("Invalid chunk index in filename: " ++ filename))

section Reading

variable (x : Crates) (st : Storage)

def readCapped (path : String) (node : Node) (max : Nat) : Except ArchiveError Bytes := do
  let content ← node.read.mapError .io
  let buf := content.take (max + 1)
  failWhen (decide (max < buf.length))
    (.schemaMismatch (path ++ " exceeds the " ++ max.repr ++ "-byte cap"))
  pure buf

/-- `read_manifest`: the manifest and the detached signature, which must agree with an embedded
one. -/
def readManifest (dir : SealDir) : Except ArchiveError (TrstManifest × Bytes) := do
  let manifestBytes ← readCapped (dir.path ++ "/manifest.json") dir.manifestJson manifestMaxBytes
  let manifest ← (st.parseManifest manifestBytes).mapError .json
  let detachedSig ← readCapped (dir.path ++ "/signatures/manifest.sig") dir.manifestSig sigMaxBytes
  match manifest.signature with
  | some embeddedSig => failWhen (embeddedSig != st.utf8Lossy detachedSig) .signatureMismatch
  | none => pure ()
  pure (manifest, detachedSig)

def openChunk (node : Node) (filename : String) : Except ArchiveError Bytes :=
  match node.read with
  | .ok bytes => .ok bytes
  | .error .notFound => .error (.missingChunk filename)
  | .error (.other reason) => .error (.io (.other reason))

/-- The loop of `stream_hash_chunk`: the hasher is fed one buffer after the other. -/
def streamHash (filename : String) (reader : Reader UInt8) (total : Nat) (hashed : Bytes) :
    Except ArchiveError Digest :=
  if h : (reader.read (64 * 1024)).1 = [] then .ok (x.blake3 hashed)
  else
    let total := min (total + (reader.read (64 * 1024)).1.length) (2 ^ 64 - 1)
    if maxStoredChunkBytes < total then
      .error (.schemaMismatch ("chunk " ++ filename ++ " exceeds the " ++
        maxStoredChunkBytes.repr ++ "-byte cap"))
    else
      streamHash filename (reader.read (64 * 1024)).2 total (hashed ++ (reader.read (64 * 1024)).1)
termination_by reader.rest.length
decreasing_by exact Reader.read_rest_lt h

def streamHashChunk (node : Node) (filename : String) : Except ArchiveError Digest := do
  let bytes ← openChunk node filename
  streamHash x filename (Reader.full bytes) 0 []

/-- The unreferenced file check over the names of a directory. -/
def checkReferenced (expected : List String) : List Bytes → Except ArchiveError Unit
  | [] => .ok ()
  | name :: rest =>
    let fileName := st.utf8Lossy name
    if Texts.endsWith fileName ".bin" && !expected.contains fileName then
      .error (.unreferencedChunk fileName)
    else checkReferenced expected rest

def scanChunks (expected : List String) : ChunksDir → Except ArchiveError Unit
  | .directory listing => do
    checkReferenced st expected listing.readDir.1
    match listing.readDir.2 with
    | some e => .error (.io e)
    | none => .ok ()
  | _ => .ok ()

/-- The declared name of a chunk must be the one of its position. -/
def checkChunkName (index : Nat) (chunkFile : String) : Except ArchiveError Unit :=
  if chunkFile = chunkFileName index then .ok ()
  else do
    let found ← parseChunkIndex chunkFile
    .error (.invalidChunkIndex index found)

def storedContinuity (continuityHash : String) : Except ArchiveError Digest :=
  match Numerals.hexDecode continuityHash with
  | none => .error (.validationFailed ("Invalid continuity hash format: " ++ continuityHash))
  | some stored =>
    if h : stored.length = 32 then .ok ⟨stored, h⟩
    else .error (.validationFailed
      ("Continuity hash must be 32 bytes, got " ++ stored.length.repr))

/-- The checks of one segment: its name, the hash of its file and the form of its link. -/
def hashSegment (chunks : ChunksDir) (index : Nat) (segment : SegmentInfo) :
    Except ArchiveError ChainSegment := do
  checkChunkName index segment.chunkFile
  let computed ← streamHashChunk x (chunks.node (chunkFileName index)) (chunkFileName index)
  failWhen (segment.blake3Hash != Numerals.hexEncode computed.val)
    (.validationFailed ("Chunk " ++ index.repr ++ " hash mismatch: expected " ++
      segment.blake3Hash ++ ", computed " ++ Numerals.hexEncode computed.val))
  let continuity ← storedContinuity segment.continuityHash
  pure ⟨index, computed, continuity⟩

def hashSegments (chunks : ChunksDir) :
    Nat → List SegmentInfo → Except ArchiveError (List ChainSegment)
  | _, [] => .ok []
  | index, segment :: rest => do
    let head ← hashSegment x chunks index segment
    let tail ← hashSegments chunks (index + 1) rest
    pure (head :: tail)

/-- `validate_archive`. -/
def validateArchive (dir : SealDir) : Except ArchiveError Unit := do
  let (manifest, _) ← readManifest st dir
  scanChunks st (manifest.segments.map SegmentInfo.chunkFile) dir.chunks
  manifest.validate.mapError
    (fun e => .validationFailed ("Manifest validation failed: " ++ e.display))
  let segments ← hashSegments x dir.chunks 0 manifest.segments
  (validateChain x segments).mapError .chain

end Reading

theorem readCapped_eq_ok {path : String} {node : Node} {max : Nat} {bytes : Bytes} :
    readCapped path node max = .ok bytes ↔ node = .file bytes ∧ bytes.length ≤ max := by
  unfold readCapped
  rw [bind_eq_ok]
  constructor
  · rintro ⟨content, hread, h⟩
    obtain ⟨_, hcap, h⟩ := bind_eq_ok.mp h
    have hcap : (content.take (max + 1)).length ≤ max := by simpa using failWhen_eq_ok.mp hcap
    have hlen : content.length ≤ max := by
      rw [List.length_take] at hcap
      omega
    have hcontent : content = bytes := by
      have h := Except.ok.inj h
      rwa [List.take_of_length_le (by omega)] at h
    subst hcontent
    exact ⟨Node.read_eq_ok.mp (mapError_eq_ok.mp hread), hlen⟩
  · rintro ⟨rfl, hlen⟩
    have htake : bytes.take (max + 1) = bytes := List.take_of_length_le (by omega)
    refine ⟨bytes, rfl, bind_eq_ok.mpr ⟨(), failWhen_eq_ok.mpr ?_, ?_⟩⟩
    · rw [htake]
      simpa using hlen
    · rw [htake]
      rfl

/-- What a manifest that was read comes from. -/
structure ManifestRead (st : Storage) (dir : SealDir) (m : TrstManifest) (sig bytes : Bytes) :
    Prop where
  json : dir.manifestJson = .file bytes
  jsonCapped : bytes.length ≤ manifestMaxBytes
  parsed : st.parseManifest bytes = .ok m
  detached : dir.manifestSig = .file sig
  detachedCapped : sig.length ≤ sigMaxBytes
  agrees : ∀ embedded, m.signature = some embedded → embedded = st.utf8Lossy sig

theorem readManifest_eq_ok {st : Storage} {dir : SealDir} {m : TrstManifest} {sig : Bytes} :
    readManifest st dir = .ok (m, sig) ↔ ∃ bytes, ManifestRead st dir m sig bytes := by
  unfold readManifest
  constructor
  · intro h
    obtain ⟨bytes, hjson, h⟩ := bind_eq_ok.mp h
    obtain ⟨m', hparse, h⟩ := bind_eq_ok.mp h
    obtain ⟨sig', hsig, h⟩ := bind_eq_ok.mp h
    obtain ⟨hfile, hcap⟩ := readCapped_eq_ok.mp hjson
    obtain ⟨hsigFile, hsigCap⟩ := readCapped_eq_ok.mp hsig
    cases hembedded : m'.signature with
    | none =>
      simp only [hembedded] at h
      cases h
      exact ⟨bytes, hfile, hcap, mapError_eq_ok.mp hparse, hsigFile, hsigCap, by simp [hembedded]⟩
    | some embedded =>
      simp only [hembedded] at h
      obtain ⟨_, hsame, h⟩ := bind_eq_ok.mp h
      have hsame : embedded = st.utf8Lossy sig' := by simpa using failWhen_eq_ok.mp hsame
      cases h
      refine ⟨bytes, hfile, hcap, mapError_eq_ok.mp hparse, hsigFile, hsigCap, ?_⟩
      intro other hother
      rw [hembedded] at hother
      rw [← Option.some.inj hother, hsame]
  · rintro ⟨bytes, h⟩
    refine bind_eq_ok.mpr ⟨bytes, readCapped_eq_ok.mpr ⟨h.json, h.jsonCapped⟩, ?_⟩
    refine bind_eq_ok.mpr ⟨m, mapError_eq_ok.mpr h.parsed, ?_⟩
    refine bind_eq_ok.mpr ⟨sig, readCapped_eq_ok.mpr ⟨h.detached, h.detachedCapped⟩, ?_⟩
    cases hembedded : m.signature with
    | none => rfl
    | some embedded =>
      exact bind_eq_ok.mpr ⟨(), failWhen_eq_ok.mpr (by simp [h.agrees embedded hembedded]), rfl⟩

/-- Streaming a chunk gives the hash of its bytes, unless they pass the cap. -/
theorem streamHash_eq (x : Crates) (filename : String) (reader : Reader UInt8) (total : Nat)
    (hashed : Bytes) (htotal : total ≤ maxStoredChunkBytes) {digest : Digest} :
    streamHash x filename reader total hashed = .ok digest ↔
      total + reader.rest.length ≤ maxStoredChunkBytes ∧ digest = x.blake3 (hashed ++ reader.rest) := by
  have hcap : maxStoredChunkBytes < 2 ^ 64 - 1 := by decide
  induction reader using Reader.read_induction (64 * 1024) generalizing total hashed with
  | atEnd reader hend =>
    have hrest := (Reader.read_eq_nil (by decide)).mp hend
    rw [streamHash, dif_pos hend, hrest, List.append_nil, List.length_nil]
    constructor
    · intro h
      cases h
      exact ⟨htotal, rfl⟩
    · rintro ⟨-, rfl⟩
      rfl
  | next reader hmore ih =>
    have happend := reader.read_append (64 * 1024)
    have hlen := congrArg List.length happend
    rw [List.length_append] at hlen
    rw [streamHash, dif_neg hmore]
    by_cases hover : maxStoredChunkBytes <
        min (total + (reader.read (64 * 1024)).1.length) (2 ^ 64 - 1)
    · simp only [if_pos hover]
      constructor
      · intro h
        cases h
      · rintro ⟨hfits, -⟩
        omega
    · have hmin : min (total + (reader.read (64 * 1024)).1.length) (2 ^ 64 - 1) =
          total + (reader.read (64 * 1024)).1.length := by omega
      have hnext := ih (total + (reader.read (64 * 1024)).1.length)
        (hashed ++ (reader.read (64 * 1024)).1) (by omega)
      simp only [if_neg hover]
      rw [hmin]
      refine hnext.trans ?_
      rw [List.append_assoc, happend]
      constructor
      · rintro ⟨hfits, hd⟩
        exact ⟨by omega, hd⟩
      · rintro ⟨hfits, hd⟩
        exact ⟨by omega, hd⟩

theorem openChunk_eq_ok {node : Node} {filename : String} {bytes : Bytes} :
    openChunk node filename = .ok bytes ↔ node = .file bytes := by
  cases node with
  | absent => simp [openChunk, Node.read]
  | file content => simp [openChunk, Node.read]
  | unreadable regular reason => simp [openChunk, Node.read]

theorem streamHashChunk_eq_ok {x : Crates} {node : Node} {filename : String} {digest : Digest} :
    streamHashChunk x node filename = .ok digest ↔
      ∃ bytes, node = .file bytes ∧ bytes.length ≤ maxStoredChunkBytes ∧ digest = x.blake3 bytes := by
  unfold streamHashChunk
  rw [bind_eq_ok]
  constructor
  · rintro ⟨bytes, hopen, hstream⟩
    obtain ⟨hlen, hd⟩ := (streamHash_eq x filename _ 0 [] (Nat.zero_le _)).mp hstream
    refine ⟨bytes, openChunk_eq_ok.mp hopen, ?_, hd⟩
    simpa [Reader.full] using hlen
  · rintro ⟨bytes, hnode, hlen, hd⟩
    refine ⟨bytes, openChunk_eq_ok.mpr hnode, (streamHash_eq x filename _ 0 [] (Nat.zero_le _)).mpr ?_⟩
    exact ⟨by simpa [Reader.full] using hlen, hd⟩

theorem checkChunkName_eq_ok {index : Nat} {chunkFile : String} :
    checkChunkName index chunkFile = .ok () ↔ chunkFile = chunkFileName index := by
  unfold checkChunkName
  by_cases h : chunkFile = chunkFileName index
  · simp [h]
  · rw [if_neg h, bind_eq_ok]
    constructor
    · rintro ⟨found, -, herror⟩
      cases herror
    · intro he
      exact absurd he h

theorem storedContinuity_eq_ok {continuityHash : String} {link : Digest} :
    storedContinuity continuityHash = .ok link ↔
      Numerals.hexDecode continuityHash = some link.val := by
  unfold storedContinuity
  cases Numerals.hexDecode continuityHash with
  | none => simp
  | some stored =>
    by_cases h : stored.length = 32
    · simp [h, Subtype.ext_iff]
    · have hne : stored ≠ link.val := fun he => h (he ▸ link.property)
      simp [h, hne]

/-- What the checks of one segment establish about its file and its link. -/
structure SegmentHolds (x : Crates) (chunks : ChunksDir) (index : Nat) (segment : SegmentInfo)
    (bytes : Bytes) (link : Digest) : Prop where
  named : segment.chunkFile = chunkFileName index
  stored : chunks.node (chunkFileName index) = .file bytes
  capped : bytes.length ≤ maxStoredChunkBytes
  hashed : segment.blake3Hash = Numerals.hexEncode (x.blake3 bytes).val
  linked : Numerals.hexDecode segment.continuityHash = some link.val

theorem hashSegment_eq_ok {x : Crates} {chunks : ChunksDir} {index : Nat} {segment : SegmentInfo}
    {c : ChainSegment} :
    hashSegment x chunks index segment = .ok c ↔
      ∃ bytes link, SegmentHolds x chunks index segment bytes link ∧
        c = ⟨index, x.blake3 bytes, link⟩ := by
  unfold hashSegment
  constructor
  · intro h
    obtain ⟨_, hname, h⟩ := bind_eq_ok.mp h
    obtain ⟨computed, hstream, h⟩ := bind_eq_ok.mp h
    obtain ⟨_, hhash, h⟩ := bind_eq_ok.mp h
    obtain ⟨link, hlink, h⟩ := bind_eq_ok.mp h
    obtain ⟨bytes, hnode, hlen, rfl⟩ := streamHashChunk_eq_ok.mp hstream
    have hhash := failWhen_eq_ok.mp hhash
    refine ⟨bytes, link, ⟨checkChunkName_eq_ok.mp hname, hnode, hlen, by simpa using hhash,
      storedContinuity_eq_ok.mp hlink⟩, ?_⟩
    cases h
    rfl
  · rintro ⟨bytes, link, hholds, rfl⟩
    refine bind_eq_ok.mpr ⟨(), checkChunkName_eq_ok.mpr hholds.named, ?_⟩
    refine bind_eq_ok.mpr ⟨_, streamHashChunk_eq_ok.mpr ⟨bytes, hholds.stored, hholds.capped, rfl⟩, ?_⟩
    refine bind_eq_ok.mpr ⟨(), failWhen_eq_ok.mpr (by simp [hholds.hashed]), ?_⟩
    exact bind_eq_ok.mpr ⟨link, storedContinuity_eq_ok.mpr hholds.linked, rfl⟩

/-- The segments from a position on hold, with the bytes of their files, and each link continues
the one before. -/
inductive SegmentsHold (x : Crates) (chunks : ChunksDir) :
    Nat → Digest → List SegmentInfo → List Bytes → Prop
  | nil {index : Nat} {previous : Digest} : SegmentsHold x chunks index previous [] []
  | cons {index : Nat} {previous : Digest} {segment : SegmentInfo} {bytes : Bytes}
      {rest : List SegmentInfo} {files : List Bytes}
      (head : SegmentHolds x chunks index segment bytes (chainNext x previous (x.blake3 bytes)))
      (tail : SegmentsHold x chunks (index + 1) (chainNext x previous (x.blake3 bytes)) rest files) :
      SegmentsHold x chunks index previous (segment :: rest) (bytes :: files)

theorem checkIndices_hashSegments {x : Crates} {chunks : ChunksDir} {segments : List SegmentInfo}
    {index : Nat} {out : List ChainSegment} (h : hashSegments x chunks index segments = .ok out) :
    checkIndices index out = .ok () := by
  induction segments generalizing index out with
  | nil =>
    cases h
    rfl
  | cons segment rest ih =>
    obtain ⟨head, hhead, h⟩ := bind_eq_ok.mp h
    obtain ⟨tail, htail, h⟩ := bind_eq_ok.mp h
    obtain ⟨bytes, link, -, rfl⟩ := hashSegment_eq_ok.mp hhead
    cases h
    simp [checkIndices, ih htail]

/-- Hashing the segments and following their links succeeds exactly when they hold. -/
theorem segments_checked_iff {x : Crates} {chunks : ChunksDir} {segments : List SegmentInfo}
    {index : Nat} {previous : Digest} :
    (∃ out, hashSegments x chunks index segments = .ok out ∧
        checkContinuity x previous out = .ok ()) ↔
      ∃ files, SegmentsHold x chunks index previous segments files := by
  induction segments generalizing index previous with
  | nil =>
    constructor
    · intro _
      exact ⟨[], .nil⟩
    · intro _
      exact ⟨[], rfl, rfl⟩
  | cons segment rest ih =>
    constructor
    · rintro ⟨out, hhash, hcheck⟩
      obtain ⟨head, hhead, hhash⟩ := bind_eq_ok.mp hhash
      obtain ⟨tail, htail, hhash⟩ := bind_eq_ok.mp hhash
      obtain ⟨bytes, link, hholds, rfl⟩ := hashSegment_eq_ok.mp hhead
      cases hhash
      simp only [checkContinuity] at hcheck
      split at hcheck
      next => cases hcheck
      next hlink =>
        have hlink := not_not.mp hlink
        obtain ⟨files, hfiles⟩ := ih.mp ⟨tail, htail, hcheck⟩
        subst hlink
        exact ⟨bytes :: files, .cons hholds hfiles⟩
    · rintro ⟨files, hfiles⟩
      cases hfiles with
      | cons head tail =>
        obtain ⟨out, hhash, hcheck⟩ := ih.mpr ⟨_, tail⟩
        refine ⟨_, bind_eq_ok.mpr ⟨_, hashSegment_eq_ok.mpr ⟨_, _, head, rfl⟩,
          bind_eq_ok.mpr ⟨out, hhash, rfl⟩⟩, ?_⟩
        unfold checkContinuity
        rw [if_neg (by simp)]
        exact hcheck

/-- No file that ends in `.bin` stands beside the expected ones, and the listing is complete. -/
def NoStrayChunk (st : Storage) (expected : List String) : ChunksDir → Prop
  | .directory listing =>
    listing.breaksOff = none ∧
      ∀ name ∈ listing.files.keys, Texts.endsWith (st.utf8Lossy name) ".bin" = true →
        st.utf8Lossy name ∈ expected
  | _ => True

theorem checkReferenced_eq_ok {st : Storage} {expected : List String} {names : List Bytes} :
    checkReferenced st expected names = .ok () ↔
      ∀ name ∈ names, Texts.endsWith (st.utf8Lossy name) ".bin" = true →
        st.utf8Lossy name ∈ expected := by
  induction names with
  | nil => simp [checkReferenced]
  | cons name rest ih =>
    unfold checkReferenced
    by_cases hbin : Texts.endsWith (st.utf8Lossy name) ".bin" = true
    · by_cases hmem : st.utf8Lossy name ∈ expected
      · simp [hbin, hmem, ih]
      · simp [hbin, hmem]
    · simp [hbin, ih]

theorem scanChunks_eq_ok {st : Storage} {expected : List String} {chunks : ChunksDir} :
    scanChunks st expected chunks = .ok () ↔ NoStrayChunk st expected chunks := by
  cases chunks with
  | absent => simp [scanChunks, NoStrayChunk]
  | notDirectory => simp [scanChunks, NoStrayChunk]
  | directory listing =>
    unfold scanChunks NoStrayChunk Listing.readDir
    rw [bind_eq_ok]
    cases hcut : listing.breaksOff with
    | none =>
      constructor
      · rintro ⟨_, hnames, -⟩
        exact ⟨hcut, checkReferenced_eq_ok.mp hnames⟩
      · rintro ⟨-, hnames⟩
        exact ⟨(), checkReferenced_eq_ok.mpr hnames, rfl⟩
    | some cut =>
      constructor
      · rintro ⟨_, -, herror⟩
        cases herror
      · rintro ⟨hnone, -⟩
        cases hcut.symm.trans hnone

/-- Everything `validate_archive` establishes about a directory. -/
structure ArchiveHolds (x : Crates) (st : Storage) (dir : SealDir) (m : TrstManifest)
    (sig : Bytes) (files : List Bytes) : Prop where
  read : readManifest st dir = .ok (m, sig)
  referenced : NoStrayChunk st (m.segments.map SegmentInfo.chunkFile) dir.chunks
  valid : m.validate = .ok ()
  segments : SegmentsHold x dir.chunks 0 (chainGenesis x) m.segments files

theorem validateArchive_eq_ok {x : Crates} {st : Storage} {dir : SealDir} :
    validateArchive x st dir = .ok () ↔ ∃ m sig files, ArchiveHolds x st dir m sig files := by
  unfold validateArchive
  constructor
  · intro h
    obtain ⟨⟨m, sig⟩, hread, h⟩ := bind_eq_ok.mp h
    obtain ⟨_, hscan, h⟩ := bind_eq_ok.mp h
    obtain ⟨_, hvalid, h⟩ := bind_eq_ok.mp h
    obtain ⟨out, hhash, h⟩ := bind_eq_ok.mp h
    have hchain : checkContinuity x (chainGenesis x) out = .ok () := by
      have h := mapError_eq_ok.mp h
      unfold validateChain at h
      split at h
      next hempty =>
        cases List.isEmpty_iff.mp hempty
        rfl
      next => exact (bind_eq_ok.mp h).choose_spec.2
    obtain ⟨files, hfiles⟩ := segments_checked_iff.mp ⟨out, hhash, hchain⟩
    exact ⟨m, sig, files, hread, scanChunks_eq_ok.mp hscan, mapError_eq_ok.mp hvalid, hfiles⟩
  · rintro ⟨m, sig, files, hholds⟩
    obtain ⟨out, hhash, hcheck⟩ := segments_checked_iff.mpr ⟨files, hholds.segments⟩
    refine bind_eq_ok.mpr ⟨_, hholds.read, bind_eq_ok.mpr ⟨(), scanChunks_eq_ok.mpr hholds.referenced,
      bind_eq_ok.mpr ⟨(), mapError_eq_ok.mpr hholds.valid, bind_eq_ok.mpr ⟨out, hhash,
        mapError_eq_ok.mpr ?_⟩⟩⟩⟩
    unfold validateChain
    split
    next => rfl
    next => exact bind_eq_ok.mpr ⟨(), checkIndices_hashSegments hhash, hcheck⟩

end Sealedge
