import Sealedge.Verify
import Sealedge.VerifyHandler
import Sealedge.WrapReadable

namespace Sealedge

open Fallible PieceReader

structure EmitRequestCmd where
  archive : SealDir
  devicePub : Node

/-- The key line of a `.pub` file: the first one of an Ed25519 key, or else the whole text. -/
def selectDevicePub (content : String) : String :=
  let lines := (content.toList.splitOn '\n').map (fun l => String.ofList (trimChars l))
  (lines.find? (fun l => Texts.startsWith l "ed25519:")).getD
    (String.ofList (trimChars content.toList))

section Emitting

variable (x : Crates) (st : Storage)

/-- One chunk of `handle_emit_request`. It is hashed by the loop of `stream_hash_chunk`, with an
error of its own for a chunk past the cap. -/
def emitSegment (dir : SealDir) (index : Nat) (segment : SegmentInfo) :
    Except CliError SegmentDigest := do
  failWhen (segment.chunkFile != chunkFileName index)
    (.other ("Segment " ++ index.repr ++ " references '" ++ segment.chunkFile ++ "', expected '" ++
      chunkFileName index ++ "'"))
  let bytes ← withContext (dir.chunks.node (chunkFileName index)).read
    ("Failed to read chunk: " ++ dir.path ++ "/chunks/" ++ chunkFileName index)
  let digest ← withContext (streamHash x (chunkFileName index) (Reader.full bytes) 0 [])
    ("Chunk " ++ chunkFileName index ++ " exceeds the maximum stored size")
  pure ⟨UInt32.ofNat index, formatB3 digest⟩

def emitSegments (dir : SealDir) : Nat → List SegmentInfo → Except CliError (List SegmentDigest)
  | _, [] => .ok []
  | index, segment :: rest => do
    let head ← emitSegment x dir index segment
    let tail ← emitSegments dir (index + 1) rest
    pure (head :: tail)

/-- The request that `handle_emit_request` writes. -/
def handleEmitRequest (args : EmitRequestCmd) : Except CliError VerifyRequest := do
  let (manifest, _) ← withContext (readManifest st args.archive)
    ("Failed to read archive: " ++ args.archive.path)
  let segments ← emitSegments x args.archive 0 manifest.segments
  let content ← withContext (readToString args.devicePub) "Failed to read device pub file"
  pure
    { devicePub := selectDevicePub content
      manifest := manifest.toValue
      segments := segments
      options := ⟨true, some manifest.device.id⟩ }

end Emitting

/-- Files at the positions of some segments, up to the cap, from a position on. -/
inductive FilesNamed (chunks : ChunksDir) : Nat → List SegmentInfo → List Bytes → Prop
  | nil {index : Nat} : FilesNamed chunks index [] []
  | cons {index : Nat} {segment : SegmentInfo} {bytes : Bytes} {rest : List SegmentInfo}
      {files : List Bytes} (named : segment.chunkFile = chunkFileName index)
      (stored : chunks.node (chunkFileName index) = .file bytes)
      (capped : bytes.length ≤ maxStoredChunkBytes) (tail : FilesNamed chunks (index + 1) rest files) :
      FilesNamed chunks index (segment :: rest) (bytes :: files)

/-- The submitted form of some files, numbered from a position on. -/
def digestsFrom (x : Crates) : Nat → List Bytes → List SegmentDigest
  | _, [] => []
  | index, bytes :: rest =>
    ⟨UInt32.ofNat index, formatB3 (x.blake3 bytes)⟩ :: digestsFrom x (index + 1) rest

/-- Segments whose hashes are those of some files, up to the case of letters, and whose links
continue one another from a first value on, with or without a prefix. -/
inductive ChainOf (x : Crates) : Digest → List SegmentInfo → List Bytes → Prop
  | nil {previous : Digest} : ChainOf x previous [] []
  | cons {previous : Digest} {segment : SegmentInfo} {bytes : Bytes} {rest : List SegmentInfo}
      {files : List Bytes}
      (hashed : Texts.asciiLower segment.blake3Hash = Numerals.hexEncode (x.blake3 bytes).val)
      (linked : decodeB3Hex32 segment.continuityHash =
        some (chainNext x previous (x.blake3 bytes)))
      (tail : ChainOf x (chainNext x previous (x.blake3 bytes)) rest files) :
      ChainOf x previous (segment :: rest) (bytes :: files)

/-- Hashes spelled as `seal wrap` spells them. -/
def SegmentInfo.Plain (s : SegmentInfo) : Prop :=
  Texts.asciiLower s.blake3Hash = s.blake3Hash ∧ Texts.stripPrefix "b3:" s.continuityHash = none

section Emitted

variable {x : Crates} {st : Storage}

theorem emitSegment_eq_ok {dir : SealDir} {index : Nat} {segment : SegmentInfo} {d : SegmentDigest} :
    emitSegment x dir index segment = .ok d ↔
      ∃ bytes, segment.chunkFile = chunkFileName index ∧
        dir.chunks.node (chunkFileName index) = .file bytes ∧ bytes.length ≤ maxStoredChunkBytes ∧
        d = ⟨UInt32.ofNat index, formatB3 (x.blake3 bytes)⟩ := by
  unfold emitSegment withContext
  constructor
  · intro h
    obtain ⟨_, hname, h⟩ := bind_eq_ok.mp h
    obtain ⟨bytes, hread, h⟩ := bind_eq_ok.mp h
    obtain ⟨digest, hhash, h⟩ := bind_eq_ok.mp h
    have hname := failWhen_eq_ok.mp hname
    obtain ⟨hlen, hdigest⟩ := (streamHash_eq x _ _ 0 [] (Nat.zero_le _)).mp (mapError_eq_ok.mp hhash)
    refine ⟨bytes, by simpa using hname, Node.read_eq_ok.mp (mapError_eq_ok.mp hread),
      by simpa [Reader.full] using hlen, ?_⟩
    rw [← Except.ok.inj h, hdigest]
    rfl
  · rintro ⟨bytes, hname, hnode, hlen, rfl⟩
    refine bind_eq_ok.mpr ⟨(), failWhen_eq_ok.mpr (by simp [hname]), ?_⟩
    refine bind_eq_ok.mpr ⟨bytes, mapError_eq_ok.mpr (Node.read_eq_ok.mpr hnode), ?_⟩
    refine bind_eq_ok.mpr ⟨x.blake3 bytes, mapError_eq_ok.mpr ?_, rfl⟩
    exact (streamHash_eq x _ _ 0 [] (Nat.zero_le _)).mpr ⟨by simpa [Reader.full] using hlen, rfl⟩

theorem emitSegments_eq_ok {dir : SealDir} {index : Nat} {segments : List SegmentInfo}
    {digests : List SegmentDigest} :
    emitSegments x dir index segments = .ok digests ↔
      ∃ files, FilesNamed dir.chunks index segments files ∧ digests = digestsFrom x index files := by
  induction segments generalizing index digests with
  | nil =>
    constructor
    · intro h
      cases h
      exact ⟨[], .nil, rfl⟩
    · rintro ⟨files, hfiles, rfl⟩
      cases hfiles
      rfl
  | cons segment rest ih =>
    constructor
    · intro h
      obtain ⟨head, hhead, h⟩ := bind_eq_ok.mp h
      obtain ⟨tail, htail, h⟩ := bind_eq_ok.mp h
      obtain ⟨bytes, hname, hnode, hlen, rfl⟩ := emitSegment_eq_ok.mp hhead
      obtain ⟨files, hfiles, rfl⟩ := ih.mp htail
      cases h
      exact ⟨bytes :: files, .cons hname hnode hlen hfiles, rfl⟩
    · rintro ⟨files, hfiles, rfl⟩
      cases hfiles with
      | cons named stored capped tail =>
        exact bind_eq_ok.mpr ⟨_, emitSegment_eq_ok.mpr ⟨_, named, stored, capped, rfl⟩,
          bind_eq_ok.mpr ⟨_, ih.mpr ⟨_, tail, rfl⟩, rfl⟩⟩

theorem FilesNamed.length_eq {chunks : ChunksDir} {index : Nat} {segments : List SegmentInfo}
    {files : List Bytes} (h : FilesNamed chunks index segments files) :
    segments.length = files.length := by
  induction h with
  | nil => rfl
  | cons _ _ _ _ ih => simp [ih]

theorem handleEmitRequest_eq_ok {args : EmitRequestCmd} {request : VerifyRequest} :
    handleEmitRequest x st args = .ok request ↔
      ∃ m sig files content, readManifest st args.archive = .ok (m, sig) ∧
        FilesNamed args.archive.chunks 0 m.segments files ∧
        readToString args.devicePub = .ok content ∧
        request = ⟨selectDevicePub content, m.toValue, digestsFrom x 0 files,
          ⟨true, some m.device.id⟩⟩ := by
  unfold handleEmitRequest withContext
  constructor
  · intro h
    obtain ⟨⟨m, sig⟩, hread, h⟩ := bind_eq_ok.mp h
    obtain ⟨digests, hdigests, h⟩ := bind_eq_ok.mp h
    obtain ⟨content, hcontent, h⟩ := bind_eq_ok.mp h
    obtain ⟨files, hfiles, rfl⟩ := emitSegments_eq_ok.mp hdigests
    exact ⟨m, sig, files, content, mapError_eq_ok.mp hread, hfiles, mapError_eq_ok.mp hcontent,
      (Except.ok.inj h).symm⟩
  · rintro ⟨m, sig, files, content, hread, hfiles, hcontent, rfl⟩
    exact bind_eq_ok.mpr ⟨_, mapError_eq_ok.mpr hread, bind_eq_ok.mpr ⟨_,
      emitSegments_eq_ok.mpr ⟨files, hfiles, rfl⟩, bind_eq_ok.mpr ⟨_, mapError_eq_ok.mpr hcontent, rfl⟩⟩⟩

theorem normalized_formatB3 (index : UInt32) (digest : Digest) :
    SegmentDigest.normalized ⟨index, formatB3 digest⟩ = Numerals.hexEncode digest.val := by
  unfold SegmentDigest.normalized formatB3
  rw [Texts.stripPrefix_append, Option.getD_some, asciiLower_hexEncode]

theorem digestsFrom_length (index : Nat) (files : List Bytes) :
    (digestsFrom x index files).length = files.length := by
  induction files generalizing index with
  | nil => rfl
  | cons bytes rest ih => rw [digestsFrom, List.length_cons, List.length_cons, ih]

theorem digestsFrom_normalized (index : Nat) (files : List Bytes) :
    (digestsFrom x index files).map SegmentDigest.normalized =
      files.map (fun b => Numerals.hexEncode (x.blake3 b).val) := by
  induction files generalizing index with
  | nil => rfl
  | cons bytes rest ih => rw [digestsFrom, List.map_cons, List.map_cons, ih, normalized_formatB3]

theorem digestsFrom_indices {index : Nat} {files : List Bytes} (h : index + files.length ≤ 2 ^ 32) :
    (digestsFrom x index files).map (fun s => s.index.toNat) = List.range' index files.length := by
  induction files generalizing index with
  | nil => rfl
  | cons bytes rest ih =>
    rw [List.length_cons] at h
    rw [digestsFrom, List.map_cons, ih (by omega), List.length_cons, List.range'_succ]
    congr 1
    exact Nat.mod_eq_of_lt (by show index < 2 ^ 32; omega)

theorem sortedByIndex_digestsFrom {files : List Bytes} (h : files.length ≤ 2 ^ 32) :
    sortedByIndex (digestsFrom x 0 files) = digestsFrom x 0 files := by
  have hindices : (digestsFrom x 0 files).map (fun s => s.index.toNat) = _ :=
    digestsFrom_indices (by omega)
  have hsorted : ((digestsFrom x 0 files).map (fun s => s.index.toNat)).Pairwise (· < ·) := by
    rw [hindices]
    exact List.pairwise_lt_range' ..
  refine List.Pairwise.insertionSort_eq ?_
  refine (List.pairwise_map.mp hsorted).imp ?_
  intro a b hab
  exact UInt32.le_iff_toNat_le.mpr (Nat.le_of_lt hab)

theorem decodeB3Hex32_of_asciiLower {value : String} {digest : Digest}
    (h : Texts.asciiLower value = Numerals.hexEncode digest.val) :
    decodeB3Hex32 value = some digest := by
  have hhex : ∀ c ∈ (Texts.asciiLower value).toList, isLowerHex c = true := by
    rw [h]
    exact isLowerHex_hexEncode
  rw [decodeB3Hex32_eq_some, stripPrefix_of_lowerHex hhex, Option.getD_none]
  exact Numerals.hexDecode_eq_some.mpr h

theorem ChainOf.declares {previous : Digest} {segments : List SegmentInfo} {files : List Bytes}
    (h : ChainOf x previous segments files) :
    DeclaresChain x previous segments (files.map x.blake3) ∧
      files.map (fun b => Numerals.hexEncode (x.blake3 b).val) =
        segments.map (fun s => Texts.asciiLower s.blake3Hash) := by
  induction h with
  | nil => exact ⟨.nil, rfl⟩
  | cons hashed linked _ ih =>
    refine ⟨.cons (decodeB3Hex32_of_asciiLower hashed) linked ih.1, ?_⟩
    rw [List.map_cons, List.map_cons, ih.2, hashed]

theorem chainOf_of_declares {previous : Digest} {segments : List SegmentInfo}
    {hashes : List Digest} {files : List Bytes} (h : DeclaresChain x previous segments hashes)
    (hnamed : files.map (fun b => Numerals.hexEncode (x.blake3 b).val) =
      segments.map (fun s => Texts.asciiLower s.blake3Hash)) : ChainOf x previous segments files := by
  induction h generalizing files with
  | nil =>
    cases files with
    | nil => exact .nil
    | cons bytes rest => cases hnamed
  | @cons previous hash segment rest hashes named linked _ ih =>
    cases files with
    | nil => cases hnamed
    | cons bytes files =>
      obtain ⟨hhead, htail⟩ := List.cons.inj hnamed
      have hdecode := decodeB3Hex32_of_asciiLower hhead.symm
      cases Option.some.inj (hdecode.symm.trans named)
      exact .cons hhead.symm linked (ih htail)

/-- Emitted segments pass the continuity check exactly when the files make up the chain. -/
theorem continuityHolds_emitted {m : TrstManifest} {files : List Bytes}
    (hlen : m.segments.length = files.length) (hcount : files.length ≤ 2 ^ 32) :
    (∃ hashes, ContinuityHolds x m (digestsFrom x 0 files) hashes) ↔
      ChainOf x (chainGenesis x) m.segments files := by
  have hsorted := sortedByIndex_digestsFrom (x := x) hcount
  have hlength := digestsFrom_length (x := x) 0 files
  constructor
  · rintro ⟨hashes, h⟩
    have hnamed := h.named
    rw [hsorted, digestsFrom_normalized] at hnamed
    exact chainOf_of_declares h.declared hnamed
  · intro h
    obtain ⟨hdeclares, hnamed⟩ := h.declares
    refine ⟨_, hdeclares, hlength.trans hlen.symm, ?_, ?_⟩
    · rw [hsorted, hlength, List.range_eq_range']
      exact digestsFrom_indices (by omega)
    · rw [hsorted, digestsFrom_normalized, hnamed]

/-- The archive validator asks for the same files and the same chain, spelled plainly. -/
theorem segmentsHold_iff {chunks : ChunksDir} {index : Nat} {previous : Digest}
    {segments : List SegmentInfo} {files : List Bytes} :
    SegmentsHold x chunks index previous segments files ↔
      FilesNamed chunks index segments files ∧ ChainOf x previous segments files ∧
        ∀ s ∈ segments, s.Plain := by
  induction segments generalizing index previous files with
  | nil =>
    constructor
    · intro h
      cases h
      exact ⟨.nil, .nil, by simp⟩
    · rintro ⟨h, -, -⟩
      cases h
      exact .nil
  | cons segment rest ih =>
    constructor
    · intro h
      cases h with
      | cons head tail =>
        obtain ⟨hfiles, hchain, hplain⟩ := ih.mp tail
        have hlower : Texts.asciiLower segment.blake3Hash = segment.blake3Hash := by
          rw [head.hashed, asciiLower_hexEncode]
        have hunprefixed : Texts.stripPrefix "b3:" segment.continuityHash = none := by
          refine stripPrefix_of_lowerHex ?_
          rw [Texts.asciiLower, Numerals.hexDecode_eq_some.mp head.linked]
          exact isLowerHex_hexEncode
        refine ⟨.cons head.named head.stored head.capped hfiles,
          .cons (hlower.trans head.hashed) ?_ hchain, ?_⟩
        · rw [decodeB3Hex32_eq_some, hunprefixed]
          exact head.linked
        · intro s hs
          rcases List.mem_cons.mp hs with rfl | hs
          · exact ⟨hlower, hunprefixed⟩
          · exact hplain s hs
    · rintro ⟨hfiles, hchain, hplain⟩
      cases hfiles with
      | cons named stored capped tail =>
        cases hchain with
        | cons hashed linked hrest =>
          obtain ⟨hlower, hunprefixed⟩ := hplain segment (List.mem_cons_self ..)
          rw [decodeB3Hex32_eq_some, hunprefixed] at linked
          exact .cons ⟨named, stored, capped, hlower.symm.trans hashed, linked⟩
            (ih.mpr ⟨tail, hrest, fun s hs => hplain s (List.mem_cons_of_mem _ hs)⟩)

/-- What both verifiers ask of an archive, apart from the rules of the manifest and the key that it
names: a signature of the key, and files that make up the chain. -/
structure SignedChain (x : Crates) (m : TrstManifest) (devicePub : String) (files : List Bytes) :
    Prop where
  version : m.trstVersion = "0.2.0"
  signed : ∃ signature, m.signature = some signature ∧
    verifyManifest x devicePub (m.toCanonicalBytes x.text) signature = .ok true
  chain : ChainOf x (chainGenesis x) m.segments files

/-- The platform passes an emitted request exactly when the chain is signed by the key that the
manifest names. -/
theorem emitted_passes_iff {sv : ManifestSerde} {m : TrstManifest} {files : List Bytes}
    {devicePub : String} (hparsed : sv.fromValue m.toValue = .ok m)
    (halgorithm : Texts.startsWith devicePub "ed25519:" = true ∨
      Texts.startsWith devicePub "ecdsa-p256:" = true)
    (hlen : m.segments.length = files.length) (hcount : files.length ≤ 2 ^ 32) :
    (∃ report, verifyToReport x sv m.toValue (digestsFrom x 0 files) devicePub = .ok report ∧
        report.passes = true) ↔
      m.device.publicKey = devicePub ∧ SignedChain x m devicePub files := by
  constructor
  · rintro ⟨report, hreport, hpasses⟩
    obtain ⟨m', signature, hashes, hparsed', h, -⟩ := reportPasses_of_verifyToReport hreport hpasses
    cases Except.ok.inj (hparsed.symm.trans hparsed')
    exact ⟨h.key, h.version, ⟨signature, h.signed, h.verified⟩,
      (continuityHolds_emitted hlen hcount).mp ⟨hashes, h.continuity⟩⟩
  · rintro ⟨hkey, hversion, ⟨signature, hsigned, hverified⟩, hchain⟩
    obtain ⟨hashes, hcontinuity⟩ := (continuityHolds_emitted hlen hcount).mpr hchain
    exact verifyToReport_of_reportPasses hparsed
      ⟨halgorithm, hversion, hkey, hsigned, hverified, hcontinuity⟩

end Emitted

section Sample

variable {x : Crates} (hx : x.SignsLawfully) (hshort : x.SignsShort) {fig : Figures}
  {k : DeviceKeypair} {p : String} (hp : Plain p) {a : SignedArchive} {dir : SealDir}

include hx hshort hp in
/-- A request can be emitted for the sample archive, and its chain is signed. -/
theorem sample_signedChain
    (ha : signArchive x sampleContent fig (runStorage a.manifest) (sampleWrapEnv k) (profiledCmd p) =
      .ok a)
    (hfinal : ArchiveWriter.Finalized (runStorage a.manifest) a.writer a.manifest
      (intoBytes a.signature) dir) :
    readManifest (runStorage a.manifest) dir = .ok (a.manifest, intoBytes a.signature) ∧
      FilesNamed dir.chunks 0 a.manifest.segments a.stored ∧
      a.manifest.device.publicKey = k.public x ∧
      SignedChain x a.manifest (k.public x) a.stored := by
  obtain ⟨-, hcount, hcapped, -, -⟩ := sample_made fig _ k sampleContent_wellFormed hp ha
  obtain ⟨reader, w, chunks, out, deviceId, data, hmade⟩ := signArchive_eq_ok ha
  have hbundle : sampleBundle k = a.bundle := Except.ok.inj hmade.bundle
  have hsigner : a.bundle.signing = k := by
    rw [← hbundle]
    rfl
  have hleft := hmade.leftBehind hfinal
  have hclean := sample_outputClean (runStorage a.manifest) k a.stored.length
  obtain ⟨created, -, hw⟩ := ArchiveWriter.create_eq_ok hmade.created
  have hstart : w.nextIndex.toNat = 0 := by
    rw [hw]
    rfl
  have hholds : SegmentsHold x dir.chunks 0 (chainGenesis x) a.manifest.segments a.stored := by
    have hdescribes : Describes x w a.manifest.segments a.stored := by
      rw [hmade.segments]
      exact describes_segmentsFrom
    have hfrom := hdescribes.segmentsHold (by omega)
      (by rw [hstart]; exact hleft.holdsFrom hclean hcapped : dir.chunks.HoldsFrom _ _)
    rwa [hstart, show w.chainState = chainGenesis x by rw [hw]] at hfrom
  obtain ⟨hfiles, hchain, -⟩ := segmentsHold_iff.mp hholds
  refine ⟨hmade.readManifest_eq sampleLossy_text hshort hleft hclean (runStorage_parse _) rfl, hfiles,
    by rw [hmade.kept.publicKey, hsigner], hmade.kept.version, ⟨a.signature, hmade.signed, ?_⟩, hchain⟩
  rw [hmade.signature, hsigner]
  exact verifyManifest_signManifest hx k _

end Sample

end Sealedge
