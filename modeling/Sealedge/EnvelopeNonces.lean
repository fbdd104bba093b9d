import Sealedge.EnvelopeTamper

namespace Sealedge

open Fallible Bincode

/-- `decrypt_chunk_v2` opens the chunk under this nonce, whatever the cipher makes of it and
whatever the key is. -/
def DecryptsUnder (x : Crates) (chunk : NetworkChunk) (noncePrefix : Fixed 8) (isLast : Bool)
    (nonce : Fixed 12) : Prop :=
  ∃ aad, ∀ (ec : EnvelopeCrates) (key : Fixed 32),
    decryptChunkV2 x ec chunk key noncePrefix isLast =
      (ec.aes256GcmDecrypt key nonce aad chunk.data).elim
        (.error "V2 decryption failed: Error") .ok

theorem chunkNonce_flag (noncePrefix : Fixed 8) (sequence : UInt64) (isLast : Bool) :
    (chunkNonce noncePrefix sequence isLast).val[11]? =
      some (if isLast then 0xFF else 0x00) := by
  have hindex : ((beBytes 4 sequence.toUInt32.toNat).drop 1).length = 3 := by simp
  unfold chunkNonce
  rw [List.getElem?_append_right (by rw [noncePrefix.property]; omega),
    List.getElem?_append_right (by rw [noncePrefix.property, hindex]),
    noncePrefix.property, hindex]
  rfl

section Nonces

variable {x : Crates} {ec : EnvelopeCrates} {k : DeviceKeypair}

/-- Behind a manifest that was sealed, decryption builds the nonce from its sequence number. -/
theorem decryptsUnder_sealed (hx : x.SignsLawfully) {createdAt sequence : UInt64} {data : Bytes}
    {chunk : NetworkChunk} (hbound : sequence ≤ maxChunkIndex)
    (hmanifest : chunk.manifest = sealedManifest x k createdAt sequence data)
    (noncePrefix : Fixed 8) (isLast : Bool) :
    DecryptsUnder x chunk noncePrefix isLast (chunkNonce noncePrefix sequence isLast) := by
  refine ⟨chunkAad x noncePrefix createdAt sequence data isLast, fun ec key => ?_⟩
  have hinside : ¬ maxChunkIndex < sequence := UInt64.not_lt.mpr hbound
  unfold decryptChunkV2
  rw [hmanifest, sealedManifest_reads hx]
  simp only [Option.elim, signChunkManifest, chunkManifest_reads, bind, Except.bind]
  rw [show (chunkManifest sequence data createdAt).sequence = sequence from rfl]
  simp only [failWhen, hinside, decide_false]
  rfl

variable {draws : SealDraws} {key : Fixed 32} {noncePrefix : Fixed 8} {pieces : List Bytes}
  {chunks : List NetworkChunk}

namespace SealedChunks

theorem index_le (h : SealedChunks x ec k draws key noncePrefix pieces chunks) {i : Nat}
    {chunk : NetworkChunk} (hi : chunks[i]? = some chunk) : UInt64.ofNat i ≤ maxChunkIndex := by
  have hlt := (List.getElem?_eq_some_iff.mp hi).1
  have hlen := h.length_eq
  have hbound := h.bounded
  exact ofNat_le_maxChunkIndex (by omega)

theorem nonce_at (h : SealedChunks x ec k draws key noncePrefix pieces chunks) {i : Nat}
    {chunk : NetworkChunk} (hi : chunks[i]? = some chunk) :
    chunk.nonce = chunkNonce noncePrefix (UInt64.ofNat i) (i == chunks.length - 1) := by
  have hlt := (List.getElem?_eq_some_iff.mp hi).1
  rw [h.length_eq] at hlt ⊢
  obtain ⟨ciphertext, -, hget⟩ := h.each i _ (List.getElem?_eq_getElem hlt)
  rw [hi] at hget
  cases hget
  rfl

theorem flag_at (h : SealedChunks x ec k draws key noncePrefix pieces chunks) {i : Nat}
    {chunk : NetworkChunk} (hi : chunks[i]? = some chunk) :
    chunk.nonce.val[11]? = some (if i + 1 = chunks.length then 0xFF else 0x00) := by
  have hlt := (List.getElem?_eq_some_iff.mp hi).1
  rw [h.nonce_at hi, chunkNonce_flag]
  by_cases hlast : i + 1 = chunks.length
  · have hflag : (i == chunks.length - 1) = true := beq_iff_eq.mpr (by omega)
    rw [hflag, if_pos hlast]
    rfl
  · have hflag : (i == chunks.length - 1) = false := beq_eq_false_iff_ne.mpr (by omega)
    rw [hflag, if_neg hlast]
    rfl

/-- Three bytes of the index tell the chunks apart, since no index needs a fourth. -/
theorem nonces_nodup (h : SealedChunks x ec k draws key noncePrefix pieces chunks) :
    (chunks.map NetworkChunk.nonce).Nodup := by
  rw [List.Nodup, List.pairwise_map, List.pairwise_iff_getElem]
  intro i j hi hj hij heq
  have hatI := List.getElem?_eq_getElem hi
  have hatJ := List.getElem?_eq_getElem hj
  rw [h.nonce_at hatI, h.nonce_at hatJ] at heq
  have hsame := (chunkNonce_inj (h.index_le hatI) (h.index_le hatJ) heq).1
  have hshort := h.short
  have hindex := (ofNat_index_inj (by omega) (by omega)).mp hsame
  omega

end SealedChunks

end Nonces

/-- No nonce is used twice in an envelope: the chunks are sealed under the nonces they store, which
are pairwise distinct, decryption builds the same nonces, and the last byte is set in the nonce of
the last chunk and in no other. -/
theorem sealed_nonces_distinct {x : Crates} {ec : EnvelopeCrates} (hx : x.SignsLawfully)
    {payload : Bytes} {k : DeviceKeypair} {beneficiaryKey : Bytes} {draws : SealDraws}
    {e : Envelope} (h : Envelope.seal x ec payload k beneficiaryKey draws = .ok e) :
    ∃ key noncePrefix,
      deriveSharedEncryptionKey ec k beneficiaryKey draws.hkdfSalt = .ok (key, noncePrefix) ∧
      (∀ recipient, ec.x25519 recipient e.verifyingKeyBytes = ec.x25519 k beneficiaryKey →
        deriveSharedEncryptionKey ec recipient e.verifyingKeyBytes e.hkdfSalt =
          .ok (key, noncePrefix)) ∧
      (e.chunks.map NetworkChunk.nonce).Nodup ∧ e.sortedChunks = e.chunks ∧
      ∀ i chunk, e.chunks[i]? = some chunk →
        chunk.sequence.toNat = i ∧
        (∃ aad piece, ec.aes256GcmEncrypt key chunk.nonce aad piece = some chunk.data) ∧
        DecryptsUnder x chunk noncePrefix (i == e.chunks.length - 1) chunk.nonce ∧
        chunk.nonce.val[11]? = some (if i + 1 = e.chunks.length then 0xFF else 0x00) := by
  obtain ⟨key, noncePrefix, chunks, hderive, hchunks, rfl⟩ := seal_eq_ok.mp h
  refine ⟨key, noncePrefix, hderive, ?_, hchunks.nonces_nodup, ?_, ?_⟩
  · intro recipient hshared
    rw [← hderive, deriveSharedEncryptionKey, deriveSharedEncryptionKey, hshared]
    rfl
  · exact sortedChunks_of_perm hchunks.numbered hchunks.short (List.Perm.refl _)
  · intro i chunk hi
    have hi : chunks[i]? = some chunk := hi
    have hlt := (List.getElem?_eq_some_iff.mp hi).1
    have hshort := hchunks.short
    obtain ⟨piece, -, hsequence, hmanifest, hencrypt⟩ := hchunks.piece hi
    have hnonce := hchunks.nonce_at hi
    rw [← hchunks.length_eq, ← hnonce] at hencrypt
    refine ⟨?_, ⟨_, piece, hencrypt⟩, ?_, hchunks.flag_at hi⟩
    · rw [hsequence, UInt64.toNat_ofNat', Nat.mod_eq_of_lt (by omega)]
    · rw [hnonce]
      exact decryptsUnder_sealed hx (hchunks.index_le hi) hmanifest noncePrefix _

theorem three_chunk_nonces_distinct : ∃ e key noncePrefix,
    Envelope.seal sampleCrates sampleEnvelope (fullChunk 1 ++ (fullChunk 2 ++ [3])) (sampleKey 1)
      ((sampleKey 2).verifyingKey sampleCrates) sampleSealDraws = .ok e ∧
    e.chunks.length = 3 ∧ (e.chunks.map NetworkChunk.nonce).Nodup ∧
    ∀ i chunk, e.chunks[i]? = some chunk →
      DecryptsUnder sampleCrates chunk noncePrefix (i == e.chunks.length - 1) chunk.nonce ∧
      (∃ aad piece, sampleEnvelope.aes256GcmEncrypt key chunk.nonce aad piece = some chunk.data) ∧
      chunk.nonce.val[11]? = some (if i + 1 = e.chunks.length then 0xFF else 0x00) := by
  have hpieces := payloadChunks_full_full 1 2 3
  have hshared : (sampleEnvelope.x25519 (sampleKey 1)
      ((sampleKey 2).verifyingKey sampleCrates)).val.all (· == 0) = false := by decide
  have hlen := payloadChunks_le_iff.mp
    (by simp [hpieces] : (payloadChunks (fullChunk 1 ++ (fullChunk 2 ++ [3]))).length ≤ 2 ^ 24)
  obtain ⟨e, hseal⟩ := seal_succeeds sampleEnvelope_correct hshared hlen sampleSealDraws
  obtain ⟨key, noncePrefix, -, -, hdistinct, -, heach⟩ :=
    sealed_nonces_distinct sampleCrates_signsLawfully hseal
  obtain ⟨_, _, chunks, -, hchunks, he⟩ := seal_eq_ok.mp hseal
  have hcount : e.chunks.length = 3 := by
    have hlength := hchunks.length_eq
    rw [hpieces] at hlength
    rw [he]
    exact hlength
  refine ⟨e, key, noncePrefix, hseal, hcount, hdistinct, ?_⟩
  intro i chunk hi
  obtain ⟨-, hencrypt, hdecrypt, hflag⟩ := heach i chunk hi
  exact ⟨hdecrypt, hencrypt, hflag⟩

end Sealedge
