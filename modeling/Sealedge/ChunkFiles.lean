import Mathlib.Data.Set.Function
import Sealedge.CanonicalSteps
import Sealedge.WrapSpec

namespace Sealedge

/-- The listing with a chunk written under the name of its position. -/
def Listing.putChunk (l : Listing) (index : Nat) (bytes : Bytes) : Listing :=
  l.put (intoBytes (chunkFileName index)) ((l.node (intoBytes (chunkFileName index))).write bytes)

/-- The listing with chunks written from a position on. -/
def Listing.putChunks (l : Listing) : Nat → List Bytes → Listing
  | _, [] => l
  | index, bytes :: rest => (l.putChunk index bytes).putChunks (index + 1) rest

namespace Listing

theorem node_putChunk_self (l : Listing) (index : Nat) (bytes : Bytes) :
    (l.putChunk index bytes).node (intoBytes (chunkFileName index)) =
      (l.node (intoBytes (chunkFileName index))).write bytes :=
  node_put_self l _ _

theorem node_putChunk_ne (l : Listing) {index : Nat} {name : Bytes} (bytes : Bytes)
    (h : name ≠ intoBytes (chunkFileName index)) : (l.putChunk index bytes).node name = l.node name :=
  node_put_ne l _ h

theorem chunkName_ne {i j : Nat} (h : i ≠ j) :
    intoBytes (chunkFileName i) ≠ intoBytes (chunkFileName j) :=
  fun he => h (chunkFileName_injective (intoBytes_injective he))

theorem node_putChunks_ne (l : Listing) {index : Nat} {stored : List Bytes} {name : Bytes}
    (h : ∀ i < stored.length, name ≠ intoBytes (chunkFileName (index + i))) :
    (l.putChunks index stored).node name = l.node name := by
  induction stored generalizing l index with
  | nil => rfl
  | cons bytes rest ih =>
    have htail : ∀ i < rest.length, name ≠ intoBytes (chunkFileName (index + 1 + i)) := by
      intro i hi
      have hi' := h (i + 1) (by simpa using hi)
      rwa [show index + (i + 1) = index + 1 + i by omega] at hi'
    have hhead := h 0 (by simp)
    rw [Nat.add_zero] at hhead
    rw [putChunks, ih _ htail, node_putChunk_ne l bytes hhead]

theorem node_putChunks (l : Listing) {index : Nat} {stored : List Bytes} {i : Nat} {bytes : Bytes}
    (h : stored[i]? = some bytes) :
    (l.putChunks index stored).node (intoBytes (chunkFileName (index + i))) =
      (l.node (intoBytes (chunkFileName (index + i)))).write bytes := by
  induction stored generalizing l index i with
  | nil => simp at h
  | cons first rest ih =>
    rw [putChunks]
    cases i with
    | zero =>
      rw [List.getElem?_cons_zero] at h
      rw [node_putChunks_ne _ (fun j _ => chunkName_ne (by omega)), Nat.add_zero,
        node_putChunk_self, Option.some.inj h]
    | succ i =>
      rw [List.getElem?_cons_succ] at h
      have hnode : ((l.putChunk index first).putChunks (index + 1) rest).node
          (intoBytes (chunkFileName (index + 1 + i))) = _ := ih (l.putChunk index first) h
      rw [show index + 1 + i = index + (i + 1) by omega] at hnode
      rw [hnode, node_putChunk_ne l first (chunkName_ne (by omega))]

theorem mem_keys_putChunks {l : Listing} {index : Nat} {stored : List Bytes} {name : Bytes} :
    name ∈ (l.putChunks index stored).files.keys ↔
      (∃ i < stored.length, name = intoBytes (chunkFileName (index + i))) ∨ name ∈ l.files.keys := by
  induction stored generalizing l index with
  | nil => simp [putChunks]
  | cons bytes rest ih =>
    rw [putChunks, ih, putChunk, mem_keys_put]
    constructor
    · rintro (⟨i, hi, hname⟩ | hname | hold)
      · refine Or.inl ⟨i + 1, by simpa using hi, ?_⟩
        rw [hname, show index + 1 + i = index + (i + 1) by omega]
      · exact Or.inl ⟨0, by simp, hname⟩
      · exact Or.inr hold
    · rintro (⟨i, hi, hname⟩ | hold)
      · cases i with
        | zero => exact Or.inr (Or.inl hname)
        | succ i =>
          refine Or.inl ⟨i, by simpa using hi, ?_⟩
          rw [hname, show index + 1 + i = index + (i + 1) by omega]
      · exact Or.inr (Or.inr hold)

theorem breaksOff_putChunks (l : Listing) (index : Nat) (stored : List Bytes) :
    (l.putChunks index stored).breaksOff = l.breaksOff := by
  induction stored generalizing l index with
  | nil => rfl
  | cons bytes rest ih =>
    rw [putChunks, ih]
    rfl

end Listing

/-- Every file in a new directory is one of the chunks that were written to it. -/
theorem mem_stored_of_node {stored : List Bytes} {name : Bytes} {bytes : Bytes}
    (h : (Listing.empty.putChunks 0 stored).node name = .file bytes) : bytes ∈ stored := by
  by_cases hname : ∃ i < stored.length, name = intoBytes (chunkFileName (0 + i))
  · obtain ⟨i, hi, hi'⟩ := hname
    rw [hi', Listing.node_putChunks _ (List.getElem?_eq_getElem hi)] at h
    obtain ⟨-, hbytes⟩ := Node.write_eq_file h
    rw [hbytes]
    exact List.getElem_mem hi
  · rw [Listing.node_putChunks_ne _ (fun i hi he => hname ⟨i, hi, he⟩)] at h
    cases h

/-- The writer leaves its chunks in the directory, one position after the other. -/
theorem ArchiveWriter.after_chunks {x : Crates} {w : ArchiveWriter} {stored : List Bytes}
    {listing : Listing} (hw : w.dir.chunks = .directory listing)
    (hfits : w.nextIndex.toNat + stored.length ≤ 2 ^ 32) :
    (w.after x stored).dir.chunks = .directory (listing.putChunks w.nextIndex.toNat stored) := by
  induction stored generalizing w listing with
  | nil => exact hw
  | cons bytes rest ih =>
    rw [List.length_cons] at hfits
    have hstep : (w.advance x bytes).dir.chunks =
        .directory (listing.putChunk w.nextIndex.toNat bytes) := by
      show w.dir.chunks.write _ _ = _
      rw [hw]
      rfl
    rw [after_cons, Listing.putChunks]
    by_cases hlast : rest = []
    · rw [hlast]
      exact hstep
    · have hpos := List.length_pos_of_ne_nil hlast
      have hnext := w.advance_nextIndex (x := x) bytes (by omega)
      rw [ih hstep (by omega), hnext]

/-- Files at the positions of some chunks, up to the cap. -/
def ChunksDir.HoldsFrom (chunks : ChunksDir) (index : Nat) (stored : List Bytes) : Prop :=
  ∀ i bytes, stored[i]? = some bytes →
    chunks.node (chunkFileName (index + i)) = .file bytes ∧ bytes.length ≤ maxStoredChunkBytes

theorem ChunksDir.HoldsFrom.tail {chunks : ChunksDir} {index : Nat} {bytes : Bytes}
    {rest : List Bytes} (h : chunks.HoldsFrom index (bytes :: rest)) :
    chunks.HoldsFrom (index + 1) rest := by
  intro i b hi
  have hnode := h (i + 1) b (by simpa using hi)
  rwa [show index + (i + 1) = index + 1 + i by omega] at hnode

theorem holdsFrom_putChunks {stored : List Bytes}
    (hcapped : ∀ bytes ∈ stored, bytes.length ≤ maxStoredChunkBytes) :
    (ChunksDir.directory (Listing.empty.putChunks 0 stored)).HoldsFrom 0 stored := by
  intro i bytes hi
  refine ⟨?_, hcapped bytes (List.mem_of_getElem? hi)⟩
  exact Listing.node_putChunks .empty hi

/-- Segments that describe the outcomes of a writer, whatever else they say. -/
inductive Describes (x : Crates) : ArchiveWriter → List SegmentInfo → List Bytes → Prop
  | nil {w : ArchiveWriter} : Describes x w [] []
  | cons {w : ArchiveWriter} {segment : SegmentInfo} {segments : List SegmentInfo} {bytes : Bytes}
      {stored : List Bytes}
      (name : segment.chunkFile = chunkFileName (w.outcome x bytes).index.toNat)
      (hash : segment.blake3Hash = Numerals.hexEncode (w.outcome x bytes).blake3.val)
      (link : segment.continuityHash = Numerals.hexEncode (w.outcome x bytes).continuity.val)
      (tail : Describes x (w.advance x bytes) segments stored) :
      Describes x w (segment :: segments) (bytes :: stored)

section Describing

variable {x : Crates}

theorem Describes.length_eq {w : ArchiveWriter} {segments : List SegmentInfo} {stored : List Bytes}
    (h : Describes x w segments stored) : segments.length = stored.length := by
  induction h with
  | nil => rfl
  | cons _ _ _ _ ih => simp [ih]

theorem describes_segmentsFrom {fig : Figures} {job : ChunkJob} {i : Nat} {w : ArchiveWriter}
    {stored : List Bytes} : Describes x w (segmentsFrom x fig job i w stored) stored := by
  induction stored generalizing i w with
  | nil => exact .nil
  | cons bytes rest ih => exact .cons rfl rfl rfl ih

theorem Describes.of_same {same : F64 → F64 → Prop} {w : ArchiveWriter}
    {segments segments' : List SegmentInfo} {stored : List Bytes}
    (h : Describes x w segments stored) (hsame : List.Forall₂ (SameSegment same) segments' segments) :
    Describes x w segments' stored := by
  induction h generalizing segments' with
  | nil =>
    cases hsame
    exact .nil
  | cons name hash link _ ih =>
    obtain ⟨segment', rest', hhead, htail, rfl⟩ := List.forall₂_cons_right_iff.mp hsame
    have hfields := hhead.1
    exact .cons ((congrArg SegmentInfo.chunkFile hfields).trans name)
      ((congrArg SegmentInfo.blake3Hash hfields).trans hash)
      ((congrArg SegmentInfo.continuityHash hfields).trans link) (ih htail)

theorem Describes.segmentsHold {w : ArchiveWriter} {segments : List SegmentInfo}
    {stored : List Bytes} (h : Describes x w segments stored) {chunks : ChunksDir}
    (hfits : w.nextIndex.toNat + stored.length < 2 ^ 32)
    (hholds : chunks.HoldsFrom w.nextIndex.toNat stored) :
    SegmentsHold x chunks w.nextIndex.toNat w.chainState segments stored := by
  induction h with
  | nil => exact .nil
  | @cons w segment segments bytes stored name hash link _ ih =>
    rw [List.length_cons] at hfits
    have hnext := w.advance_nextIndex (x := x) bytes (by omega)
    have htail := ih (by omega) (by rw [hnext]; exact hholds.tail)
    rw [hnext] at htail
    obtain ⟨hnode, hcap⟩ := hholds 0 bytes rfl
    refine .cons ⟨name, hnode, hcap, hash, ?_⟩ htail
    rw [link]
    exact Numerals.hexDecode_hexEncode _

/-- Files that hold for segments that describe some chunks are those chunks. -/
theorem Describes.files_eq {w : ArchiveWriter} {segments : List SegmentInfo} {stored : List Bytes}
    (h : Describes x w segments stored) {chunks : ChunksDir} {index : Nat} {previous : Digest}
    {files : List Bytes} (hholds : SegmentsHold x chunks index previous segments files)
    {hashed : Set Bytes} (hinj : Set.InjOn x.blake3 hashed) (hfiles : ∀ b ∈ files, b ∈ hashed)
    (hstored : ∀ b ∈ stored, b ∈ hashed) : files = stored := by
  induction h generalizing index previous files with
  | nil =>
    cases hholds
    rfl
  | @cons w segment segments bytes stored _ hash _ _ ih =>
    cases hholds with
    | @cons _ _ _ bytes' _ files head tail =>
      have hhash := head.hashed.symm.trans hash
      have hdigest := Subtype.ext (Numerals.hexEncode_injective hhash)
      have hbytes := hinj (hfiles _ (by simp)) (hstored _ (by simp)) hdigest
      rw [hbytes, ih tail (fun b hb => hfiles b (List.mem_cons_of_mem _ hb))
        (fun b hb => hstored b (List.mem_cons_of_mem _ hb))]

theorem SegmentsHold.mem_chunkFiles {x : Crates} {chunks : ChunksDir} {index : Nat}
    {previous : Digest} {segments : List SegmentInfo} {files : List Bytes}
    (h : SegmentsHold x chunks index previous segments files) {name : String} :
    name ∈ segments.map SegmentInfo.chunkFile ↔
      ∃ i < files.length, name = chunkFileName (index + i) := by
  induction h with
  | nil => simp
  | @cons index _ segment _ rest files head _ ih =>
    rw [List.map_cons, List.mem_cons, ih, head.named]
    constructor
    · rintro (hname | ⟨i, hi, hname⟩)
      · exact ⟨0, by simp, hname⟩
      · refine ⟨i + 1, by simpa using hi, ?_⟩
        rw [hname, show index + 1 + i = index + (i + 1) by omega]
    · rintro ⟨i, hi, hname⟩
      cases i with
      | zero => exact Or.inl hname
      | succ i =>
        refine Or.inr ⟨i, by simpa using hi, ?_⟩
        rw [hname, show index + 1 + i = index + (i + 1) by omega]

/-- A directory holds for a manifest that describes its chunks when no other `.bin` file is
listed. -/
theorem Describes.archiveHolds {st : Storage} {w : ArchiveWriter} {m : TrstManifest}
    {stored : List Bytes} (h : Describes x w m.segments stored) (hindex : w.nextIndex.toNat = 0)
    (hstate : w.chainState = chainGenesis x) (hcount : stored.length < 2 ^ 32) {dir : SealDir}
    {sig : Bytes} (hread : readManifest st dir = .ok (m, sig)) (hvalid : m.validate = .ok ())
    (hholds : dir.chunks.HoldsFrom 0 stored) {listing : Listing}
    (hchunks : dir.chunks = .directory listing) (hlisted : listing.breaksOff = none)
    (hnames : ∀ name ∈ listing.files.keys, Texts.endsWith (st.utf8Lossy name) ".bin" = true →
      ∃ i < stored.length, st.utf8Lossy name = chunkFileName i) :
    ArchiveHolds x st dir m sig stored := by
  have hsegments : SegmentsHold x dir.chunks 0 (chainGenesis x) m.segments stored := by
    have hfrom := h.segmentsHold (by omega) (by rwa [hindex] : dir.chunks.HoldsFrom _ _)
    rwa [hindex, hstate] at hfrom
  refine ⟨hread, ?_, hvalid, hsegments⟩
  rw [hchunks]
  refine ⟨hlisted, ?_⟩
  intro name hname hbin
  obtain ⟨i, hi, hfile⟩ := hnames name hname hbin
  exact hsegments.mem_chunkFiles.mpr ⟨i, hi, by rw [hfile, Nat.zero_add]⟩

end Describing

end Sealedge
