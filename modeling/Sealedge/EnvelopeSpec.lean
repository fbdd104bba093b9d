import Mathlib.Data.Set.Function
import Sealedge.Envelope

namespace Sealedge

open Fallible Bincode

/-- Documented behaviour of the outside functions: both ends of a key agreement get the same
secret, HKDF gives up to 255 blocks, AES-GCM takes texts of up to 64 GiB and decryption inverts
encryption. -/
structure EnvelopeCrates.Correct (ec : EnvelopeCrates) (x : Crates) : Prop where
  commutes : ∀ a b : DeviceKeypair, ec.x25519 a (b.verifyingKey x) = ec.x25519 b (a.verifyingKey x)
  expands : ∀ salt secret info length, length ≤ 255 * 32 →
    ∃ okm, ec.hkdfSha256 salt secret info length = some okm
  encrypts : ∀ key nonce aad text, aad.length ≤ 2 ^ 36 → text.length ≤ 2 ^ 36 →
    ∃ ciphertext, ec.aes256GcmEncrypt key nonce aad text = some ciphertext
  decrypts : ∀ key nonce aad text ciphertext,
    ec.aes256GcmEncrypt key nonce aad text = some ciphertext →
      ec.aes256GcmDecrypt key nonce aad ciphertext = some text

theorem ChunkManifest.reads (m : ChunkManifest) (h : (intoBytes m.formatHint).length < 256 ^ 8) :
    Reads ChunkManifest.get m.bincode m := by
  have hread : Reads ChunkManifest.get m.bincode {
      sequence := UInt64.ofNat m.sequence.toNat
      chunkSize := UInt32.ofNat m.chunkSize.toNat
      timestamp := UInt64.ofNat m.timestamp.toNat
      formatHint := m.formatHint
      keyDerivationSalt := m.keyDerivationSalt
      pbkdf2Iterations := UInt32.ofNat m.pbkdf2Iterations.toNat } := by
    refine (reads_getNat m.sequence.toNat_lt).bind ?_
    refine (reads_getNat m.chunkSize.toNat_lt).bind ?_
    refine (reads_getNat m.timestamp.toNat_lt).bind ?_
    refine (reads_getVec h).bind ?_
    refine (reads_check (utf8Decode_intoBytes m.formatHint)).bind ?_
    refine (reads_getArray m.keyDerivationSalt).bind ?_
    exact (reads_getNat m.pbkdf2Iterations.toNat_lt).map
  simpa only [UInt64.ofNat_toNat, UInt32.ofNat_toNat] using hread

theorem SignedManifest.reads (s : SignedManifest) (hmanifest : s.manifest.length < 256 ^ 8)
    (hsig : s.sig.length < 256 ^ 8) (hpubkey : s.pubkey.length < 256 ^ 8) :
    Reads SignedManifest.get s.bincode s :=
  (reads_getVec hmanifest).bind ((reads_getVec hsig).bind (reads_getVec hpubkey).map)

/-- Sizes that the types of the source ensure: keys are arrays, and a length fits eight bytes. -/
structure Envelope.Sized (e : Envelope) : Prop where
  chunks : e.chunks.length < 256 ^ 8
  each : ∀ c ∈ e.chunks, c.data.length < 256 ^ 8 ∧ c.manifest.length < 256 ^ 8
  verifyingKey : e.verifyingKeyBytes.length = 32
  beneficiaryKey : e.beneficiaryKeyBytes.length = 32

theorem NetworkChunk.reads (c : NetworkChunk) (hdata : c.data.length < 256 ^ 8)
    (hmanifest : c.manifest.length < 256 ^ 8) : Reads NetworkChunk.get c.bincode c := by
  have hread : Reads NetworkChunk.get c.bincode {
      sequence := UInt64.ofNat c.sequence.toNat
      data := c.data
      manifest := c.manifest
      nonce := c.nonce
      timestamp := UInt64.ofNat c.timestamp.toNat } := by
    refine (reads_getNat c.sequence.toNat_lt).bind ?_
    refine (reads_getVec hdata).bind ?_
    refine (reads_getVec hmanifest).bind ?_
    refine (reads_getArray c.nonce).bind ?_
    exact (reads_getNat c.timestamp.toNat_lt).map
  simpa only [UInt64.ofNat_toNat] using hread

theorem EnvelopeMetadata.reads (m : EnvelopeMetadata) :
    Reads EnvelopeMetadata.get m.bincode m := by
  have hread : Reads EnvelopeMetadata.get m.bincode {
      createdAt := UInt64.ofNat m.createdAt.toNat
      payloadSize := UInt64.ofNat m.payloadSize.toNat
      chunkCount := UInt32.ofNat m.chunkCount.toNat
      aeadAlgorithm := m.aeadAlgorithm
      signatureAlgorithm := m.signatureAlgorithm
      hashAlgorithm := m.hashAlgorithm } := by
    refine (reads_getNat m.createdAt.toNat_lt).bind ?_
    refine (reads_getNat m.payloadSize.toNat_lt).bind ?_
    refine (reads_getNat m.chunkCount.toNat_lt).bind ?_
    refine (reads_getByte m.aeadAlgorithm).bind ?_
    refine (reads_getByte m.signatureAlgorithm).bind ?_
    exact (reads_getByte m.hashAlgorithm).map
  simpa only [UInt64.ofNat_toNat, UInt32.ofNat_toNat] using hread

theorem Envelope.Sized.reads {e : Envelope} (h : e.Sized) : Reads Envelope.get e.bincode e := by
  have hchunks : ∀ c ∈ e.chunks, Reads NetworkChunk.get c.bincode c := by
    intro c hc
    exact c.reads (h.each c hc).1 (h.each c hc).2
  refine (reads_getByte e.version).bind ?_
  refine (reads_getArray e.hkdfSalt).bind ?_
  refine (reads_getNat h.chunks).bind ?_
  refine (reads_getMany hchunks).bind ?_
  refine (reads_getBytes h.verifyingKey).bind ?_
  refine (reads_getBytes h.beneficiaryKey).bind ?_
  exact e.metadata.reads.map

theorem bincode_injOn : Set.InjOn Envelope.bincode {e | e.Sized} := by
  intro e he e' he' hbytes
  have hread := he'.reads
  rw [← hbytes] at hread
  exact he.reads.unique hread

theorem chunkManifest_reads (sequence : UInt64) (data : Bytes) (createdAt : UInt64) :
    deserialize ChunkManifest.get (chunkManifest sequence data createdAt).bincode =
      some (chunkManifest sequence data createdAt) := by
  have hhint : (intoBytes "application/octet-stream").length < 256 ^ 8 := by decide +kernel
  exact (ChunkManifest.reads _ hhint).deserialize

theorem chunkManifest_length (sequence : UInt64) (data : Bytes) (createdAt : UInt64) :
    (chunkManifest sequence data createdAt).bincode.length = 88 := by
  have hhint : (intoBytes "application/octet-stream").length = 24 := by decide +kernel
  simp [ChunkManifest.bincode, chunkManifest, putVec, hhint]

section Chunks

variable {x : Crates} {ec : EnvelopeCrates}

variable (x) in
/-- The manifest field of a chunk that the key sealed. -/
def sealedManifest (k : DeviceKeypair) (createdAt sequence : UInt64) (data : Bytes) : Bytes :=
  (signChunkManifest x k (chunkManifest sequence data createdAt).bincode).bincode

variable (x) in
/-- The associated data of a chunk. -/
def chunkAad (noncePrefix : Fixed 8) (createdAt sequence : UInt64) (data : Bytes) (isLast : Bool) :
    Bytes :=
  buildAad (x.blake3 (intoBytes "ENVELOPE_V1")) sequence (chunkNonce noncePrefix sequence isLast)
    (x.blake3 (chunkManifest sequence data createdAt).bincode) (UInt32.ofNat data.length)

theorem sealedManifest_reads (hx : x.SignsLawfully) (k : DeviceKeypair)
    (createdAt sequence : UInt64) (data : Bytes) :
    deserialize SignedManifest.get (sealedManifest x k createdAt sequence data) =
      some (signChunkManifest x k (chunkManifest sequence data createdAt).bincode) := by
  refine (SignedManifest.reads _ ?_ ?_ ?_).deserialize
  · have h := chunkManifest_length sequence data createdAt
    simp only [signChunkManifest]
    omega
  · have h := hx.signatureLength k.secret
      (x.blake3 (chunkManifest sequence data createdAt).bincode).val
    simp only [signChunkManifest]
    omega
  · have h := hx.publicLength k.secret
    simp only [signChunkManifest, DeviceKeypair.verifyingKey]
    omega

theorem sealedManifest_length (hx : x.SignsLawfully) (k : DeviceKeypair)
    (createdAt sequence : UInt64) (data : Bytes) :
    (sealedManifest x k createdAt sequence data).length = 208 := by
  simp [sealedManifest, SignedManifest.bincode, signChunkManifest, putVec,
    DeviceKeypair.verifyingKey, chunkManifest_length, hx.signatureLength, hx.publicLength]

theorem createEncryptedChunk_eq_ok {sequence : UInt64} {data : Bytes} {k : DeviceKeypair}
    {key : Fixed 32} {noncePrefix : Fixed 8} {isLast : Bool} {metadata : EnvelopeMetadata}
    {now : UInt64} {chunk : NetworkChunk} :
    createEncryptedChunk x ec sequence data k key noncePrefix isLast metadata now = .ok chunk ↔
      sequence ≤ maxChunkIndex ∧ ∃ ciphertext,
        ec.aes256GcmEncrypt key (chunkNonce noncePrefix sequence isLast)
          (chunkAad x noncePrefix metadata.createdAt sequence data isLast) data =
            some ciphertext ∧
        chunk = ⟨sequence, ciphertext, sealedManifest x k metadata.createdAt sequence data,
          chunkNonce noncePrefix sequence isLast, now⟩ := by
  unfold createEncryptedChunk
  simp only [bind_eq_ok, failWhen_eq_ok, decide_eq_false_iff_not, UInt64.not_lt]
  constructor
  · rintro ⟨_, hbound, h⟩
    refine ⟨hbound, ?_⟩
    split at h
    next => cases h
    next ciphertext henc =>
      cases h
      exact ⟨ciphertext, henc, rfl⟩
  · rintro ⟨hbound, ciphertext, henc, hchunk⟩
    refine ⟨(), hbound, ?_⟩
    rw [chunkAad] at henc
    rw [henc, hchunk]
    rfl

theorem decryptChunkV2_eq_ok {chunk : NetworkChunk} {key : Fixed 32} {noncePrefix : Fixed 8}
    {isLast : Bool} {text : Bytes} :
    decryptChunkV2 x ec chunk key noncePrefix isLast = .ok text ↔ ∃ signedManifest manifest,
      deserialize SignedManifest.get chunk.manifest = some signedManifest ∧
      deserialize ChunkManifest.get signedManifest.manifest = some manifest ∧
      manifest.sequence ≤ maxChunkIndex ∧
      ec.aes256GcmDecrypt key (chunkNonce noncePrefix manifest.sequence isLast)
        (buildAad (x.blake3 (intoBytes "ENVELOPE_V1")) manifest.sequence
          (chunkNonce noncePrefix manifest.sequence isLast) (x.blake3 signedManifest.manifest)
          manifest.chunkSize) chunk.data = some text := by
  unfold decryptChunkV2
  simp only [bind_eq_ok, elim_eq_ok, failWhen_eq_ok, decide_eq_false_iff_not, UInt64.not_lt]
  constructor
  · rintro ⟨signedManifest, hsigned, manifest, hmanifest, _, hbound, hopen⟩
    exact ⟨signedManifest, manifest, hsigned, hmanifest, hbound, hopen⟩
  · rintro ⟨signedManifest, manifest, hsigned, hmanifest, hbound, hopen⟩
    exact ⟨signedManifest, hsigned, manifest, hmanifest, (), hbound, hopen⟩

/-- Opening a chunk whose manifest was sealed uses the sequence number and the size in it, and
the position only for the last-chunk flag. -/
theorem decryptChunkV2_sealed (hx : x.SignsLawfully) {k : DeviceKeypair}
    {createdAt sequence : UInt64} {data text : Bytes} {chunk : NetworkChunk}
    (hbound : sequence ≤ maxChunkIndex)
    (hmanifest : chunk.manifest = sealedManifest x k createdAt sequence data)
    {key : Fixed 32} {noncePrefix : Fixed 8} {isLast : Bool} :
    decryptChunkV2 x ec chunk key noncePrefix isLast = .ok text ↔
      ec.aes256GcmDecrypt key (chunkNonce noncePrefix sequence isLast)
        (chunkAad x noncePrefix createdAt sequence data isLast) chunk.data = some text := by
  have hsigned := sealedManifest_reads hx k createdAt sequence data
  have hread := chunkManifest_reads sequence data createdAt
  rw [decryptChunkV2_eq_ok, hmanifest]
  constructor
  · rintro ⟨signedManifest, manifest, h, h', -, hopen⟩
    rw [hsigned] at h
    cases h
    rw [signChunkManifest, hread] at h'
    cases h'
    exact hopen
  · intro hopen
    exact ⟨_, _, hsigned, hread, hbound, hopen⟩

theorem verifyChunkSignature_sealed (hx : x.SignsLawfully) {k : DeviceKeypair} {e : Envelope}
    {createdAt sequence : UInt64} {data : Bytes} {chunk : NetworkChunk}
    (hkey : e.verifyingKeyBytes = k.verifyingKey x)
    (hmanifest : chunk.manifest = sealedManifest x k createdAt sequence data) :
    e.verifyChunkSignature x chunk = true := by
  have hlen := hx.signatureLength k.secret
    (x.blake3 (chunkManifest sequence data createdAt).bincode).val
  have hver := hx.verifies k.secret (x.blake3 (chunkManifest sequence data createdAt).bincode).val
  have hpub := hx.publicKey k.secret
  rw [Envelope.verifyChunkSignature, hmanifest, sealedManifest_reads hx]
  simp only [signChunkManifest, hkey, DeviceKeypair.verifyingKey, hlen, hver, hpub]
  rfl

end Chunks

section Order

instance : Std.Total (fun a b : NetworkChunk => a.sequence ≤ b.sequence) :=
  ⟨fun a b => UInt64.le_total a.sequence b.sequence⟩

instance : IsTrans NetworkChunk (fun a b : NetworkChunk => a.sequence ≤ b.sequence) :=
  ⟨fun _ _ _ hab hbc => UInt64.le_trans hab hbc⟩

/-- The unsigned sequence numbers of the chunks are `0 .. n - 1` in this order. -/
def Numbered (chunks : List NetworkChunk) : Prop :=
  chunks.map NetworkChunk.sequence = (List.range chunks.length).map UInt64.ofNat

/-- Two lists that agree at every index of a third one, and are as long, are equal. -/
theorem ext_along {α β : Type} {along : List β} {l l' : List α} (hl : l.length = along.length)
    (hl' : l'.length = along.length)
    (h : ∀ (i : Nat) b, along[i]? = some b → l[i]? = l'[i]?) : l = l' := by
  apply List.ext_getElem?
  intro i
  by_cases hi : i < along.length
  · exact h i _ (List.getElem?_eq_getElem hi)
  · rw [List.getElem?_eq_none (by omega), List.getElem?_eq_none (by omega)]

theorem sortedChunks_perm (e : Envelope) : e.sortedChunks.Perm e.chunks :=
  List.perm_insertionSort _ e.chunks

theorem sortedChunks_length (e : Envelope) : e.sortedChunks.length = e.chunks.length :=
  (sortedChunks_perm e).length_eq

/-- The check of the sequence numbers passes when the count is right and sorting numbers the
chunks without gap. -/
theorem verifyChunkSequence_iff {e : Envelope} :
    e.verifyChunkSequence = true ↔
      e.metadata.chunkCount.toNat = e.chunks.length ∧ Numbered e.sortedChunks := by
  have hmap : (e.chunks.map NetworkChunk.sequence).insertionSort (· ≤ ·) =
      e.sortedChunks.map NetworkChunk.sequence :=
    (List.map_insertionSort _ (· ≤ ·) NetworkChunk.sequence e.chunks
      (fun _ _ _ _ => Iff.rfl)).symm
  have hlen := sortedChunks_length e
  unfold Envelope.verifyChunkSequence Numbered
  rw [hmap, Bool.and_eq_true, beq_iff_eq, eq_comm, hlen]
  refine and_congr_right ?_
  intro hcount
  rw [hcount]
  constructor
  · intro h
    apply List.ext_getElem
    · simp [hlen]
    · intro i hi hi'
      have hp := List.all_eq_true.mp h (i, (e.sortedChunks.map NetworkChunk.sequence)[i]) ?_
      · simpa using (beq_iff_eq.mp hp).symm
      · refine List.mem_iff_getElem.mpr ⟨i, ?_, ?_⟩
        · simpa [← hlen] using hi
        · simp
  · intro h
    rw [h, List.all_eq_true]
    intro p hp
    obtain ⟨i, hi, rfl⟩ := List.mem_iff_getElem.mp hp
    simp

theorem Numbered.at {chunks : List NetworkChunk} (h : Numbered chunks) {i : Nat}
    {chunk : NetworkChunk} (hi : chunks[i]? = some chunk) : chunk.sequence = UInt64.ofNat i := by
  obtain ⟨hlt, hchunk⟩ := List.getElem?_eq_some_iff.mp hi
  have hget := congrArg (fun l => l[i]?) h
  simpa [hlt, hchunk] using hget

theorem Numbered.eq_of_sequence_eq {chunks : List NetworkChunk} (h : Numbered chunks)
    (hlen : chunks.length < 2 ^ 64) {a b : NetworkChunk} (ha : a ∈ chunks) (hb : b ∈ chunks)
    (heq : a.sequence = b.sequence) : a = b := by
  obtain ⟨i, hi⟩ := List.mem_iff_getElem?.mp ha
  obtain ⟨j, hj⟩ := List.mem_iff_getElem?.mp hb
  have hlti := (List.getElem?_eq_some_iff.mp hi).1
  have hltj := (List.getElem?_eq_some_iff.mp hj).1
  rw [h.at hi, h.at hj] at heq
  have hnat := congrArg UInt64.toNat heq
  rw [UInt64.toNat_ofNat', UInt64.toNat_ofNat', Nat.mod_eq_of_lt (by omega),
    Nat.mod_eq_of_lt (by omega)] at hnat
  rw [hnat, hj] at hi
  exact (Option.some.inj hi).symm

theorem Numbered.pairwise {chunks : List NetworkChunk} (h : Numbered chunks)
    (hlen : chunks.length < 2 ^ 64) : chunks.Pairwise (fun a b => a.sequence < b.sequence) := by
  have hrange : ((List.range chunks.length).map UInt64.ofNat).Pairwise (· < ·) := by
    rw [List.pairwise_map]
    refine List.pairwise_lt_range.imp_of_mem ?_
    intro a b ha hb hab
    have ha' := List.mem_range.mp ha
    have hb' := List.mem_range.mp hb
    rw [UInt64.lt_iff_toNat_lt, UInt64.toNat_ofNat', UInt64.toNat_ofNat',
      Nat.mod_eq_of_lt (by omega), Nat.mod_eq_of_lt (by omega)]
    exact hab
  rw [← h, List.pairwise_map] at hrange
  exact hrange

theorem sortedChunks_of_perm {e : Envelope} {chunks : List NetworkChunk} (h : Numbered chunks)
    (hlen : chunks.length < 2 ^ 64) (hperm : e.chunks.Perm chunks) : e.sortedChunks = chunks := by
  have hsame := (sortedChunks_perm e).trans hperm
  have hsorted : e.sortedChunks.Pairwise (fun a b => a.sequence ≤ b.sequence) :=
    List.pairwise_insertionSort _ e.chunks
  refine List.Perm.eq_of_pairwise ?_ hsorted ((h.pairwise hlen).imp UInt64.le_of_lt) hsame
  intro a b ha hb hab hba
  exact h.eq_of_sequence_eq hlen (hsame.mem_iff.mp ha) hb (UInt64.le_antisymm hab hba)

end Order

section Pieces

theorem payloadChunks_cons {payload : Bytes} (h : payload ≠ []) :
    payloadChunks payload =
      payload.take defaultChunkSize :: payloadChunks (payload.drop defaultChunkSize) := by
  rw [payloadChunks, if_neg h]

@[simp] theorem payloadChunks_nil : payloadChunks [] = [] := by
  rw [payloadChunks, if_pos rfl]

theorem payloadChunks_flatten (payload : Bytes) : (payloadChunks payload).flatten = payload := by
  fun_induction payloadChunks payload with
  | case1 => rfl
  | case2 payload h ih => rw [List.flatten_cons, ih, List.take_append_drop]

theorem payloadChunks_length (payload : Bytes) : (payloadChunks payload).length =
    (payload.length + (defaultChunkSize - 1)) / defaultChunkSize := by
  fun_induction payloadChunks payload with
  | case1 => rfl
  | case2 payload h ih =>
    have hpos : 0 < payload.length := List.length_pos_iff.mpr h
    rw [List.length_cons, ih, List.length_drop]
    unfold defaultChunkSize
    omega

theorem payloadChunks_piece_le {payload piece : Bytes} (h : piece ∈ payloadChunks payload) :
    piece.length ≤ defaultChunkSize := by
  fun_induction payloadChunks payload with
  | case1 => cases h
  | case2 payload hne ih =>
    rcases List.mem_cons.mp h with rfl | h
    · exact List.length_take_le _ _
    · exact ih h

end Pieces

section Seal

variable {x : Crates} {ec : EnvelopeCrates}

variable (x) in
/-- The envelope that `seal` puts around the sealed chunks. -/
def sealedEnvelope (payload : Bytes) (k : DeviceKeypair) (beneficiaryKey : Bytes)
    (draws : SealDraws) (chunks : List NetworkChunk) : Envelope where
  version := envelopeVersionV2
  hkdfSalt := draws.hkdfSalt
  chunks
  verifyingKeyBytes := k.verifyingKey x
  beneficiaryKeyBytes := beneficiaryKey
  metadata := sealMetadata payload draws.createdAt

variable (x ec) in
/-- The chunks are the pieces of the payload, each sealed at its place. -/
structure SealedChunks (k : DeviceKeypair) (draws : SealDraws) (key : Fixed 32)
    (noncePrefix : Fixed 8) (pieces : List Bytes) (chunks : List NetworkChunk) : Prop where
  length_eq : chunks.length = pieces.length
  bounded : pieces.length ≤ 2 ^ 24
  each : ∀ i piece, pieces[i]? = some piece → ∃ ciphertext,
    ec.aes256GcmEncrypt key (chunkNonce noncePrefix (UInt64.ofNat i) (i == pieces.length - 1))
      (chunkAad x noncePrefix draws.createdAt (UInt64.ofNat i) piece (i == pieces.length - 1))
      piece = some ciphertext ∧
    chunks[i]? = some ⟨UInt64.ofNat i, ciphertext,
      sealedManifest x k draws.createdAt (UInt64.ofNat i) piece,
      chunkNonce noncePrefix (UInt64.ofNat i) (i == pieces.length - 1), draws.chunkTimes i⟩

theorem ofNat_le_maxChunkIndex {i : Nat} (h : i < 2 ^ 24) : UInt64.ofNat i ≤ maxChunkIndex := by
  rw [UInt64.le_iff_toNat_le, UInt64.toNat_ofNat', Nat.mod_eq_of_lt (by omega)]
  show i ≤ 16777215
  omega

theorem sealChunks_eq_ok {k : DeviceKeypair} {draws : SealDraws} {key : Fixed 32}
    {noncePrefix : Fixed 8} {payload : Bytes} {pieces : List Bytes} {chunks : List NetworkChunk} :
    (pieces.zipIdx.mapM fun (chunkData, i) =>
      createEncryptedChunk x ec (UInt64.ofNat i) chunkData k key noncePrefix
        (i == pieces.length - 1) (sealMetadata payload draws.createdAt) (draws.chunkTimes i)) =
          .ok chunks ↔ SealedChunks x ec k draws key noncePrefix pieces chunks := by
  rw [mapM_zipIdx_eq_ok]
  constructor
  · rintro ⟨hlen, h⟩
    have hbound : pieces.length ≤ 2 ^ 24 := by
      by_contra hlong
      -- the piece at index 2^24 is refused
      have hi : pieces[2 ^ 24]? = some pieces[2 ^ 24] := List.getElem?_eq_getElem (by omega)
      obtain ⟨_, _, hchunk⟩ := h _ _ hi
      exact absurd (createEncryptedChunk_eq_ok.mp hchunk).1 (by decide)
    refine ⟨hlen, hbound, ?_⟩
    intro i piece hi
    obtain ⟨chunk, hget, hchunk⟩ := h i piece hi
    obtain ⟨-, ciphertext, henc, rfl⟩ := createEncryptedChunk_eq_ok.mp hchunk
    exact ⟨ciphertext, henc, hget⟩
  · intro h
    refine ⟨h.length_eq, ?_⟩
    intro i piece hi
    have hlt := (List.getElem?_eq_some_iff.mp hi).1
    have hbound := h.bounded
    obtain ⟨ciphertext, henc, hget⟩ := h.each i piece hi
    refine ⟨_, hget, createEncryptedChunk_eq_ok.mpr ⟨?_, ciphertext, henc, rfl⟩⟩
    exact ofNat_le_maxChunkIndex (by omega)

theorem seal_eq_ok {payload : Bytes} {k : DeviceKeypair} {beneficiaryKey : Bytes}
    {draws : SealDraws} {e : Envelope} :
    Envelope.seal x ec payload k beneficiaryKey draws = .ok e ↔ ∃ key noncePrefix chunks,
      deriveSharedEncryptionKey ec k beneficiaryKey draws.hkdfSalt = .ok (key, noncePrefix) ∧
      SealedChunks x ec k draws key noncePrefix (payloadChunks payload) chunks ∧
      e = sealedEnvelope x payload k beneficiaryKey draws chunks := by
  unfold Envelope.seal
  simp only [bind_eq_ok, sealChunks_eq_ok]
  constructor
  · rintro ⟨⟨key, noncePrefix⟩, hderive, chunks, hchunks, h⟩
    cases h
    exact ⟨key, noncePrefix, chunks, hderive, hchunks, rfl⟩
  · rintro ⟨key, noncePrefix, chunks, hderive, hchunks, rfl⟩
    exact ⟨(key, noncePrefix), hderive, chunks, hchunks, rfl⟩

namespace SealedChunks

variable {k : DeviceKeypair} {draws : SealDraws} {key : Fixed 32} {noncePrefix : Fixed 8}
  {pieces : List Bytes} {chunks : List NetworkChunk}

theorem piece (h : SealedChunks x ec k draws key noncePrefix pieces chunks) {i : Nat}
    {chunk : NetworkChunk} (hi : chunks[i]? = some chunk) : ∃ piece, pieces[i]? = some piece ∧
      chunk.sequence = UInt64.ofNat i ∧
      chunk.manifest = sealedManifest x k draws.createdAt (UInt64.ofNat i) piece ∧
      ec.aes256GcmEncrypt key (chunkNonce noncePrefix (UInt64.ofNat i) (i == pieces.length - 1))
        (chunkAad x noncePrefix draws.createdAt (UInt64.ofNat i) piece (i == pieces.length - 1))
        piece = some chunk.data := by
  have hlt := (List.getElem?_eq_some_iff.mp hi).1
  rw [h.length_eq] at hlt
  have hpiece := List.getElem?_eq_getElem hlt
  obtain ⟨ciphertext, henc, hget⟩ := h.each i _ hpiece
  rw [hi] at hget
  cases hget
  exact ⟨_, hpiece, rfl, rfl, henc⟩

theorem numbered (h : SealedChunks x ec k draws key noncePrefix pieces chunks) :
    Numbered chunks := by
  apply List.ext_getElem?
  intro i
  rw [List.getElem?_map, List.getElem?_map]
  by_cases hi : i < chunks.length
  · obtain ⟨piece, -, hseq, -⟩ := h.piece (List.getElem?_eq_getElem hi)
    simp [hi, hseq]
  · simp [hi]

theorem short (h : SealedChunks x ec k draws key noncePrefix pieces chunks) :
    chunks.length < 2 ^ 64 := by
  have hlen := h.length_eq
  have hbound := h.bounded
  omega

end SealedChunks

end Seal

section Unseal

variable {x : Crates} {ec : EnvelopeCrates}

theorem verify_iff {e : Envelope} : e.verify x = true ↔ e.version = envelopeVersionV2 ∧
    (∀ chunk ∈ e.chunks, e.verifyChunkSignature x chunk = true) ∧
    e.metadata.chunkCount.toNat = e.chunks.length ∧ Numbered e.sortedChunks := by
  rw [Envelope.verify, Bool.and_eq_true, Bool.and_eq_true, beq_iff_eq, List.all_eq_true,
    verifyChunkSequence_iff, and_assoc]

variable (x ec) in
/-- What the chunks open to, each at its place in the sorted order. -/
structure OpenedChunks (key : Fixed 32) (noncePrefix : Fixed 8) (chunks : List NetworkChunk)
    (pieces : List Bytes) : Prop where
  length_eq : pieces.length = chunks.length
  each : ∀ i chunk, chunks[i]? = some chunk → ∃ piece, pieces[i]? = some piece ∧
    decryptChunkV2 x ec chunk key noncePrefix (i == chunks.length - 1) = .ok piece

theorem unseal_eq_ok {e : Envelope} {k : DeviceKeypair} {payload : Bytes} :
    e.unseal x ec k = .ok payload ↔ e.verify x = true ∧
      x.ed25519Key e.verifyingKeyBytes = .ok () ∧ ∃ key noncePrefix pieces,
        deriveSharedEncryptionKey ec k e.verifyingKeyBytes e.hkdfSalt = .ok (key, noncePrefix) ∧
        OpenedChunks x ec key noncePrefix e.sortedChunks pieces ∧
        payload = pieces.flatten ∧ payload.length = e.metadata.payloadSize.toNat := by
  unfold Envelope.unseal
  simp only [bind_eq_ok, failWhen_eq_ok, mapError_eq_ok, mapM_zipIdx_eq_ok]
  constructor
  · rintro ⟨_, -, _, hverify, _, hkey, ⟨key, noncePrefix⟩, hderive, pieces, ⟨hlen, hopen⟩, _, hsize,
      h⟩
    cases h
    refine ⟨by simpa using hverify, hkey, key, noncePrefix, pieces, hderive, ⟨hlen, hopen⟩, rfl, ?_⟩
    simpa using hsize
  · rintro ⟨hverify, hkey, key, noncePrefix, pieces, hderive, hopen, rfl, hsize⟩
    have hversion := (verify_iff.mp hverify).1
    refine ⟨(), by simp [hversion], (), by simp [hverify], (), hkey, (key, noncePrefix), hderive,
      pieces, ⟨hopen.length_eq, hopen.each⟩, (), by simpa using hsize, rfl⟩

end Unseal

end Sealedge
