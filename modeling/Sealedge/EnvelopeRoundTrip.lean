import Sealedge.EnvelopeSpec
import Sealedge.SampleCrates

namespace Sealedge

open Fallible Bincode

section RoundTrip

variable {x : Crates} {ec : EnvelopeCrates}

theorem deriveSharedEncryptionKey_comm {a b : DeviceKeypair}
    (h : ec.x25519 a (b.verifyingKey x) = ec.x25519 b (a.verifyingKey x)) (salt : Fixed 32) :
    deriveSharedEncryptionKey ec a (b.verifyingKey x) salt =
      deriveSharedEncryptionKey ec b (a.verifyingKey x) salt := by
  rw [deriveSharedEncryptionKey, deriveSharedEncryptionKey, h]

theorem deriveSharedEncryptionKey_ok (hec : ec.Correct x) {k : DeviceKeypair} {theirs : Bytes}
    (hshared : (ec.x25519 k theirs).val.all (· == 0) = false) (salt : Fixed 32) :
    ∃ key noncePrefix, deriveSharedEncryptionKey ec k theirs salt = .ok (key, noncePrefix) := by
  obtain ⟨okm, hokm⟩ := hec.expands salt (ec.x25519 k theirs).val
    (intoBytes "SEALEDGE_ENVELOPE_V1") 40 (by decide)
  refine ⟨(splitOkm okm).1, (splitOkm okm).2, ?_⟩
  rw [deriveSharedEncryptionKey, bind_eq_ok]
  refine ⟨(), failWhen_eq_ok.mpr hshared, ?_⟩
  rw [hokm]

theorem chunkAad_length (noncePrefix : Fixed 8) (createdAt sequence : UInt64) (data : Bytes)
    (isLast : Bool) : (chunkAad x noncePrefix createdAt sequence data isLast).length = 88 := by
  have hheader := (x.blake3 (intoBytes "ENVELOPE_V1")).property
  have hmanifest := (x.blake3 (chunkManifest sequence data createdAt).bincode).property
  have hnonce := (chunkNonce noncePrefix sequence isLast).property
  simp only [chunkAad, buildAad, List.length_append, beBytes_length, hheader, hmanifest, hnonce]

theorem sealedChunks_exist (hec : ec.Correct x) (k : DeviceKeypair) (draws : SealDraws)
    (key : Fixed 32) (noncePrefix : Fixed 8) {payload : Bytes}
    (hcount : (payloadChunks payload).length ≤ 2 ^ 24) :
    ∃ chunks, SealedChunks x ec k draws key noncePrefix (payloadChunks payload) chunks := by
  have hall : ∀ p ∈ (payloadChunks payload).zipIdx, ∃ chunk,
      createEncryptedChunk x ec (UInt64.ofNat p.2) p.1 k key noncePrefix
        (p.2 == (payloadChunks payload).length - 1) (sealMetadata payload draws.createdAt)
        (draws.chunkTimes p.2) = .ok chunk := by
    rintro ⟨piece, i⟩ hp
    have hget := List.mem_zipIdx_iff_getElem?.mp hp
    have hlt := (List.getElem?_eq_some_iff.mp hget).1
    have hpiece := payloadChunks_piece_le (List.mem_of_getElem? hget)
    obtain ⟨ciphertext, henc⟩ := hec.encrypts key
      (chunkNonce noncePrefix (UInt64.ofNat i) (i == (payloadChunks payload).length - 1))
      (chunkAad x noncePrefix draws.createdAt (UInt64.ofNat i) piece
        (i == (payloadChunks payload).length - 1)) piece
      (by rw [chunkAad_length]; decide)
      (Nat.le_trans hpiece (by decide))
    exact ⟨_, createEncryptedChunk_eq_ok.mpr
      ⟨ofNat_le_maxChunkIndex (by omega), ciphertext, henc, rfl⟩⟩
  obtain ⟨chunks, hchunks⟩ := exists_mapM_eq_ok hall
  exact ⟨chunks, sealChunks_eq_ok.mp hchunks⟩

theorem SealedChunks.opened (hx : x.SignsLawfully) {k : DeviceKeypair} {draws : SealDraws}
    {key : Fixed 32} {noncePrefix : Fixed 8} {pieces : List Bytes} {chunks : List NetworkChunk}
    (h : SealedChunks x ec k draws key noncePrefix pieces chunks)
    (hdecrypts : ∀ nonce aad text ciphertext,
      ec.aes256GcmEncrypt key nonce aad text = some ciphertext →
        ec.aes256GcmDecrypt key nonce aad ciphertext = some text) :
    OpenedChunks x ec key noncePrefix chunks pieces := by
  refine ⟨h.length_eq.symm, ?_⟩
  intro i chunk hi
  obtain ⟨piece, hpiece, -, hmanifest, henc⟩ := h.piece hi
  have hlt := (List.getElem?_eq_some_iff.mp hpiece).1
  have hbound := h.bounded
  refine ⟨piece, hpiece, ?_⟩
  rw [decryptChunkV2_sealed hx (ofNat_le_maxChunkIndex (by omega)) hmanifest, h.length_eq]
  exact hdecrypts _ _ _ _ henc

theorem verify_sealed (hx : x.SignsLawfully) {k : DeviceKeypair} {draws : SealDraws}
    {key : Fixed 32} {noncePrefix : Fixed 8} {pieces : List Bytes} {chunks : List NetworkChunk}
    (h : SealedChunks x ec k draws key noncePrefix pieces chunks) {e : Envelope}
    (hversion : e.version = envelopeVersionV2) (hkey : e.verifyingKeyBytes = k.verifyingKey x)
    (hcount : e.metadata.chunkCount.toNat = pieces.length) (hperm : e.chunks.Perm chunks) :
    e.verify x = true := by
  refine verify_iff.mpr ⟨hversion, ?_, ?_, ?_⟩
  · intro chunk hchunk
    obtain ⟨i, hi⟩ := List.mem_iff_getElem?.mp (hperm.mem_iff.mp hchunk)
    obtain ⟨piece, -, -, hmanifest, -⟩ := h.piece hi
    exact verifyChunkSignature_sealed hx hkey hmanifest
  · rw [hcount, hperm.length_eq, h.length_eq]
  · rw [sortedChunks_of_perm h.numbered h.short hperm]
    exact h.numbered

theorem sealMetadata_count {payload : Bytes} (createdAt : UInt64)
    (hcount : (payloadChunks payload).length ≤ 2 ^ 24) :
    (sealMetadata payload createdAt).chunkCount.toNat = (payloadChunks payload).length := by
  rw [payloadChunks_length] at hcount ⊢
  rw [sealMetadata, UInt32.toNat_ofNat', Nat.mod_eq_of_lt (by omega)]

theorem sealMetadata_size {payload : Bytes} (createdAt : UInt64)
    (hcount : (payloadChunks payload).length ≤ 2 ^ 24) :
    payload.length = (sealMetadata payload createdAt).payloadSize.toNat := by
  rw [payloadChunks_length, defaultChunkSize] at hcount
  rw [sealMetadata, UInt64.toNat_ofNat', Nat.mod_eq_of_lt (by omega)]

theorem payloadChunks_le_iff {payload : Bytes} :
    (payloadChunks payload).length ≤ 2 ^ 24 ↔ payload.length ≤ 2 ^ 24 * defaultChunkSize := by
  rw [payloadChunks_length, defaultChunkSize]
  omega

theorem unseal_sealed (hx : x.SignsLawfully) (hec : ec.Correct x) {payload : Bytes}
    {issuer beneficiary : DeviceKeypair} {draws : SealDraws} {e : Envelope}
    (hseal : Envelope.seal x ec payload issuer (beneficiary.verifyingKey x) draws = .ok e)
    {chunks : List NetworkChunk} (hperm : chunks.Perm e.chunks) :
    { e with chunks }.unseal x ec beneficiary = .ok payload := by
  obtain ⟨key, noncePrefix, sealed, hderive, hsealed, rfl⟩ := seal_eq_ok.mp hseal
  have hcount := hsealed.bounded
  have hsorted := sortedChunks_of_perm
    (e := { sealedEnvelope x payload issuer (beneficiary.verifyingKey x) draws sealed with chunks })
    hsealed.numbered hsealed.short hperm
  refine unseal_eq_ok.mpr ⟨?_, hx.publicKey issuer.secret, key, noncePrefix, payloadChunks payload,
    ?_, ?_, (payloadChunks_flatten payload).symm, sealMetadata_size draws.createdAt hcount⟩
  · exact verify_sealed hx hsealed rfl rfl (sealMetadata_count draws.createdAt hcount) hperm
  · rw [← hderive, deriveSharedEncryptionKey_comm (hec.commutes issuer beneficiary)]
    rfl
  · rw [hsorted]
    exact hsealed.opened hx (hec.decrypts key)

theorem seal_succeeds (hec : ec.Correct x) {issuer : DeviceKeypair} {beneficiaryKey : Bytes}
    (hshared : (ec.x25519 issuer beneficiaryKey).val.all (· == 0) = false) {payload : Bytes}
    (hlen : payload.length ≤ 2 ^ 24 * defaultChunkSize) (draws : SealDraws) :
    ∃ e, Envelope.seal x ec payload issuer beneficiaryKey draws = .ok e := by
  obtain ⟨key, noncePrefix, hderive⟩ := deriveSharedEncryptionKey_ok hec hshared draws.hkdfSalt
  obtain ⟨chunks, hchunks⟩ := sealedChunks_exist hec issuer draws key noncePrefix
    (payloadChunks_le_iff.mpr hlen)
  exact ⟨_, seal_eq_ok.mpr ⟨key, noncePrefix, chunks, hderive, hchunks, rfl⟩⟩

/-- What is sealed for a key opens under it in any order of the chunks, for every payload that
the three-byte chunk index can hold; a longer one is refused. -/
theorem seal_round_trip (hx : x.SignsLawfully) (hec : ec.Correct x)
    (issuer beneficiary : DeviceKeypair)
    (hshared : (ec.x25519 issuer (beneficiary.verifyingKey x)).val.all (· == 0) = false)
    (payload : Bytes) (draws : SealDraws) :
    (payload.length ≤ 2 ^ 24 * defaultChunkSize → ∃ e,
      Envelope.seal x ec payload issuer (beneficiary.verifyingKey x) draws = .ok e ∧
      e.verify x = true ∧
      ∀ chunks, chunks.Perm e.chunks → { e with chunks }.unseal x ec beneficiary = .ok payload) ∧
    (2 ^ 24 * defaultChunkSize < payload.length → ∃ err,
      Envelope.seal x ec payload issuer (beneficiary.verifyingKey x) draws = .error err) := by
  constructor
  · intro hlen
    obtain ⟨e, hseal⟩ := seal_succeeds hec hshared hlen draws
    have hunseal : ∀ chunks, chunks.Perm e.chunks →
        { e with chunks }.unseal x ec beneficiary = .ok payload :=
      fun _ hperm => unseal_sealed hx hec hseal hperm
    exact ⟨e, hseal, (unseal_eq_ok.mp (hunseal e.chunks (.refl _))).1, hunseal⟩
  · intro hlen
    cases hseal : Envelope.seal x ec payload issuer (beneficiary.verifyingKey x) draws with
    | error err => exact ⟨err, rfl⟩
    | ok e =>
      obtain ⟨key, noncePrefix, chunks, -, hchunks, -⟩ := seal_eq_ok.mp hseal
      have hshort := payloadChunks_le_iff.mp hchunks.bounded
      omega

end RoundTrip

/-- A small instance of the outside functions: the agreed secret is the sum of the keys, and a
ciphertext carries its key and a hash of nonce and associated data. -/
def sampleEnvelope : EnvelopeCrates where
  x25519 k theirs := ⟨fit 32 (List.zipWith (· + ·) k.secret theirs), fit_length 32 _⟩
  hkdfSha256 salt secret info length :=
    if length ≤ 255 * 32 then some ⟨fit length (secret ++ salt.val ++ info), fit_length length _⟩
    else none
  aes256GcmEncrypt key nonce aad text :=
    some (key.val ++ (sampleHash (nonce.val ++ aad)).val ++ text)
  aes256GcmDecrypt key nonce aad ciphertext :=
    let tag := key.val ++ (sampleHash (nonce.val ++ aad)).val
    if ciphertext.take 64 = tag then some (ciphertext.drop 64) else none

theorem sampleEnvelope_correct : sampleEnvelope.Correct sampleCrates where
  commutes a b := by
    apply Subtype.ext
    have hcomm : List.zipWith (· + ·) a.secret (fit 32 b.secret) =
        List.zipWith (· + ·) b.secret (fit 32 a.secret) := by
      rw [fit_of_length a.secretLength, fit_of_length b.secretLength, List.zipWith_comm]
      simp only [UInt8.add_comm]
    exact congrArg (fit 32) hcomm
  expands salt secret info length h := ⟨_, if_pos h⟩
  encrypts key nonce aad text _ _ := ⟨_, rfl⟩
  decrypts key nonce aad text ciphertext h := by
    have hkey := key.property
    have hhash := (sampleHash (nonce.val ++ aad)).property
    cases h
    have htag : (key.val ++ (sampleHash (nonce.val ++ aad)).val).length = 64 := by
      rw [List.length_append, hkey, hhash]
    simp only [sampleEnvelope, List.take_left' htag, List.drop_left' htag, if_true]

def sampleSealDraws : SealDraws where
  createdAt := 1700000000
  hkdfSalt := ⟨List.replicate 32 9, by simp⟩
  chunkTimes _ := 1700000000

def fullChunk (b : UInt8) : Bytes :=
  List.replicate defaultChunkSize b

/-- Two full chunks and a short one. -/
abbrev threeChunks : Bytes :=
  fullChunk 1 ++ (fullChunk 2 ++ [3])

theorem threeChunks_length : threeChunks.length = 131073 := by
  rw [threeChunks, List.length_append, List.length_append, fullChunk, fullChunk,
    List.length_replicate, List.length_replicate]
  rfl

theorem seal_round_trip_sample : ∃ e,
    Envelope.seal sampleCrates sampleEnvelope threeChunks (sampleKey 1)
      ((sampleKey 2).verifyingKey sampleCrates) sampleSealDraws = .ok e ∧
    e.verify sampleCrates = true ∧ ∀ chunks, chunks.Perm e.chunks →
      { e with chunks }.unseal sampleCrates sampleEnvelope (sampleKey 2) = .ok threeChunks := by
  have hshared : (sampleEnvelope.x25519 (sampleKey 1)
      ((sampleKey 2).verifyingKey sampleCrates)).val.all (· == 0) = false := by decide
  exact (seal_round_trip sampleCrates_signsLawfully sampleEnvelope_correct (sampleKey 1)
    (sampleKey 2) hshared threeChunks sampleSealDraws).1
    (by rw [threeChunks_length]; decide)

end Sealedge
