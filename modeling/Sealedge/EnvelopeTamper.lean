import Sealedge.EnvelopeRoundTrip

namespace Sealedge

open Fallible Bincode

theorem chunkNonce_inj {noncePrefix : Fixed 8} {s t : UInt64} {l m : Bool}
    (hs : s ≤ maxChunkIndex) (ht : t ≤ maxChunkIndex)
    (h : chunkNonce noncePrefix s l = chunkNonce noncePrefix t m) : s = t ∧ l = m := by
  have hval := List.append_cancel_left (congrArg Subtype.val h)
  rw [beBytes_drop_one, beBytes_drop_one] at hval
  obtain ⟨hindex, hflag⟩ := List.append_inj' hval rfl
  have hs' : s.toNat ≤ 16777215 := UInt64.le_iff_toNat_le.mp hs
  have ht' : t.toNat ≤ 16777215 := UInt64.le_iff_toNat_le.mp ht
  constructor
  · have hnat := beBytes_inj (by rw [UInt64.toNat_toUInt32]; omega)
      (by rw [UInt64.toNat_toUInt32]; omega) hindex
    rw [UInt64.toNat_toUInt32, UInt64.toNat_toUInt32] at hnat
    apply UInt64.toNat_inj.mp
    omega
  · cases l <;> cases m <;> simp at hflag ⊢

/-- The sequence number that the issuer signed. -/
def NetworkChunk.signedSequence (c : NetworkChunk) : Option UInt64 := do
  let signedManifest ← deserialize SignedManifest.get c.manifest
  let manifest ← deserialize ChunkManifest.get signedManifest.manifest
  pure manifest.sequence

/-- The pieces that the signed sequence numbers name. -/
def signedPieces (pieces : List Bytes) (chunks : List NetworkChunk) : List Bytes :=
  chunks.map fun c => (c.signedSequence.bind fun s => pieces[s.toNat]?).getD []

/-- What can be made of an envelope without a key: its chunks in any choice and order, with other
sequence numbers, nonces and times, under other metadata. -/
structure ChosenFrom (e other : Envelope) : Prop where
  version : other.version = e.version
  salt : other.hkdfSalt = e.hkdfSalt
  issuer : other.verifyingKeyBytes = e.verifyingKeyBytes
  chunk : ∀ c ∈ other.chunks, ∃ sealed ∈ e.chunks,
    c.data = sealed.data ∧ c.manifest = sealed.manifest

/-- An ideal cipher after a call of `seal`: under the key of this call, exactly what the call
sealed opens. -/
def EnvelopeCrates.OpensOnlySealed (ec : EnvelopeCrates) (x : Crates) (payload : Bytes)
    (issuer : DeviceKeypair) (beneficiaryKey : Bytes) (draws : SealDraws) : Prop :=
  ∀ key noncePrefix,
    deriveSharedEncryptionKey ec issuer beneficiaryKey draws.hkdfSalt = .ok (key, noncePrefix) →
    ∀ nonce aad ciphertext text, ec.aes256GcmDecrypt key nonce aad ciphertext = some text ↔
      ∃ i, (payloadChunks payload)[i]? = some text ∧
        nonce = chunkNonce noncePrefix (UInt64.ofNat i)
          (i == (payloadChunks payload).length - 1) ∧
        aad = chunkAad x noncePrefix draws.createdAt (UInt64.ofNat i) text
          (i == (payloadChunks payload).length - 1) ∧
        ec.aes256GcmEncrypt key nonce aad text = some ciphertext

/-- What `unseal` asks of chosen chunks: a right count, unsigned sequence numbers without gap, the
last chunk of the payload at the end and nowhere else, and a right size. -/
structure Acceptable (pieces : List Bytes) (e : Envelope) : Prop where
  count : e.metadata.chunkCount.toNat = e.chunks.length
  numbered : Numbered e.sortedChunks
  last : ∀ i c, e.sortedChunks[i]? = some c →
    (i = e.chunks.length - 1 ↔ c.signedSequence = some (UInt64.ofNat (pieces.length - 1)))
  size : (signedPieces pieces e.sortedChunks).flatten.length = e.metadata.payloadSize.toNat

section Chosen

variable {x : Crates} {ec : EnvelopeCrates}

theorem signedSequence_sealed (hx : x.SignsLawfully) {k : DeviceKeypair}
    {createdAt sequence : UInt64} {data : Bytes} {c : NetworkChunk}
    (hmanifest : c.manifest = sealedManifest x k createdAt sequence data) :
    c.signedSequence = some sequence := by
  rw [NetworkChunk.signedSequence, hmanifest, sealedManifest_reads hx]
  simp only [Option.bind_eq_bind, Option.bind_some, signChunkManifest, chunkManifest_reads]
  rfl

theorem ofNat_index_inj {i j : Nat} (hi : i < 2 ^ 64) (hj : j < 2 ^ 64) :
    UInt64.ofNat i = UInt64.ofNat j ↔ i = j := by
  constructor
  · intro h
    have hnat := congrArg UInt64.toNat h
    rwa [UInt64.toNat_ofNat', UInt64.toNat_ofNat', Nat.mod_eq_of_lt (by omega),
      Nat.mod_eq_of_lt (by omega)] at hnat
  · intro h
    rw [h]

variable {payload : Bytes} {issuer beneficiary : DeviceKeypair} {draws : SealDraws}
  {key : Fixed 32} {noncePrefix : Fixed 8} {sealed : List NetworkChunk} {other : Envelope}

/-- A chunk with the data and the manifest of the sealed chunk `j` opens to the piece `j`, and
only where the last-chunk flag is the one it was sealed with. -/
theorem decryptChunkV2_chosen (hx : x.SignsLawfully)
    (hideal : ec.OpensOnlySealed x payload issuer (beneficiary.verifyingKey x) draws)
    (hderive : deriveSharedEncryptionKey ec issuer (beneficiary.verifyingKey x) draws.hkdfSalt =
      .ok (key, noncePrefix))
    (hsealed : SealedChunks x ec issuer draws key noncePrefix (payloadChunks payload) sealed)
    {c : NetworkChunk} {j : Nat} {piece : Bytes} (hpiece : (payloadChunks payload)[j]? = some piece)
    (hmanifest : c.manifest = sealedManifest x issuer draws.createdAt (UInt64.ofNat j) piece)
    (henc : ec.aes256GcmEncrypt key
      (chunkNonce noncePrefix (UInt64.ofNat j) (j == (payloadChunks payload).length - 1))
      (chunkAad x noncePrefix draws.createdAt (UInt64.ofNat j) piece
        (j == (payloadChunks payload).length - 1)) piece = some c.data)
    {isLast : Bool} {text : Bytes} :
    decryptChunkV2 x ec c key noncePrefix isLast = .ok text ↔
      isLast = (j == (payloadChunks payload).length - 1) ∧ text = piece := by
  have hbound := hsealed.bounded
  have hlt := (List.getElem?_eq_some_iff.mp hpiece).1
  have hmax : UInt64.ofNat j ≤ maxChunkIndex := ofNat_le_maxChunkIndex (by omega)
  rw [decryptChunkV2_sealed hx hmax hmanifest, hideal key noncePrefix hderive]
  constructor
  · rintro ⟨i, hi, hnonce, -, -⟩
    have hilt := (List.getElem?_eq_some_iff.mp hi).1
    obtain ⟨hindex, hflag⟩ := chunkNonce_inj hmax (ofNat_le_maxChunkIndex (by omega)) hnonce
    have hij := (ofNat_index_inj (by omega) (by omega)).mp hindex
    subst hij
    rw [hpiece] at hi
    exact ⟨hflag, (Option.some.inj hi).symm⟩
  · rintro ⟨rfl, rfl⟩
    exact ⟨j, hpiece, rfl, rfl, henc⟩

theorem ChosenFrom.source (hx : x.SignsLawfully)
    (hideal : ec.OpensOnlySealed x payload issuer (beneficiary.verifyingKey x) draws)
    (hderive : deriveSharedEncryptionKey ec issuer (beneficiary.verifyingKey x) draws.hkdfSalt =
      .ok (key, noncePrefix))
    (hsealed : SealedChunks x ec issuer draws key noncePrefix (payloadChunks payload) sealed)
    (hchosen : ChosenFrom
      (sealedEnvelope x payload issuer (beneficiary.verifyingKey x) draws sealed) other)
    {c : NetworkChunk} (hc : c ∈ other.chunks) : ∃ j piece,
      (payloadChunks payload)[j]? = some piece ∧ c.signedSequence = some (UInt64.ofNat j) ∧
      other.verifyChunkSignature x c = true ∧ ∀ isLast text,
        decryptChunkV2 x ec c key noncePrefix isLast = .ok text ↔
          isLast = (j == (payloadChunks payload).length - 1) ∧ text = piece := by
  obtain ⟨source, hsource, hdata, hsame⟩ := hchosen.chunk c hc
  obtain ⟨j, hj⟩ := List.mem_iff_getElem?.mp hsource
  obtain ⟨piece, hpiece, -, hmanifest, henc⟩ := hsealed.piece hj
  rw [← hsame] at hmanifest
  rw [← hdata] at henc
  refine ⟨j, piece, hpiece, signedSequence_sealed hx hmanifest,
    verifyChunkSignature_sealed hx hchosen.issuer hmanifest, ?_⟩
  intro isLast text
  exact decryptChunkV2_chosen hx hideal hderive hsealed hpiece hmanifest henc

theorem signedPieces_at {pieces : List Bytes} {chunks : List NetworkChunk} {i j : Nat}
    {c : NetworkChunk} {piece : Bytes} (hi : chunks[i]? = some c)
    (hsigned : c.signedSequence = some (UInt64.ofNat j)) (hj : j < 2 ^ 24)
    (hpiece : pieces[j]? = some piece) : (signedPieces pieces chunks)[i]? = some piece := by
  have hnat : (UInt64.ofNat j).toNat = j := by
    rw [UInt64.toNat_ofNat', Nat.mod_eq_of_lt (by omega)]
  rw [signedPieces, List.getElem?_map, hi, Option.map_some, hsigned, Option.bind_some, hnat, hpiece,
    Option.getD_some]

/-- Chosen chunks are accepted whenever the last one of the payload ends them, and are then put
together in the order of their unsigned numbers. -/
theorem unseal_chosen_iff (hx : x.SignsLawfully)
    (hcommutes : ec.x25519 issuer (beneficiary.verifyingKey x) =
      ec.x25519 beneficiary (issuer.verifyingKey x))
    (hideal : ec.OpensOnlySealed x payload issuer (beneficiary.verifyingKey x) draws)
    (hderive : deriveSharedEncryptionKey ec issuer (beneficiary.verifyingKey x) draws.hkdfSalt =
      .ok (key, noncePrefix))
    (hsealed : SealedChunks x ec issuer draws key noncePrefix (payloadChunks payload) sealed)
    (hchosen : ChosenFrom
      (sealedEnvelope x payload issuer (beneficiary.verifyingKey x) draws sealed) other)
    {q : Bytes} :
    other.unseal x ec beneficiary = .ok q ↔ Acceptable (payloadChunks payload) other ∧
      q = (signedPieces (payloadChunks payload) other.sortedChunks).flatten := by
  have hbound := hsealed.bounded
  have hlen := sortedChunks_length other
  have hsame : deriveSharedEncryptionKey ec beneficiary other.verifyingKeyBytes other.hkdfSalt =
      .ok (key, noncePrefix) := by
    rw [hchosen.issuer, hchosen.salt, ← hderive]
    exact (deriveSharedEncryptionKey_comm hcommutes draws.hkdfSalt).symm
  have hsource : ∀ i c, other.sortedChunks[i]? = some c → _ := fun i c hi =>
    hchosen.source hx hideal hderive hsealed
      ((sortedChunks_perm other).mem_iff.mp (List.mem_of_getElem? hi))
  rw [unseal_eq_ok]
  constructor
  · rintro ⟨hverify, -, key', noncePrefix', opened, hderive', hopened, rfl, hsize⟩
    rw [hsame] at hderive'
    cases hderive'
    obtain ⟨-, -, hcount, hnumbered⟩ := verify_iff.mp hverify
    have heq : opened = signedPieces (payloadChunks payload) other.sortedChunks := by
      refine ext_along hopened.length_eq (List.length_map _) ?_
      intro i c hc
      obtain ⟨j, piece, hpiece, hsigned, -, hopens⟩ := hsource i c hc
      obtain ⟨text, htext, hdec⟩ := hopened.each i c hc
      have hj := (List.getElem?_eq_some_iff.mp hpiece).1
      rw [htext, ((hopens _ _).mp hdec).2, signedPieces_at hc hsigned (by omega) hpiece]
    refine ⟨⟨hcount, hnumbered, ?_, heq ▸ hsize⟩, by rw [heq]⟩
    intro i c hc
    obtain ⟨j, piece, hpiece, hsigned, -, hopens⟩ := hsource i c hc
    obtain ⟨text, -, hdec⟩ := hopened.each i c hc
    have hj := (List.getElem?_eq_some_iff.mp hpiece).1
    have hflag := ((hopens _ _).mp hdec).1
    rw [hlen, Bool.beq_eq_decide_eq, Bool.beq_eq_decide_eq, decide_eq_decide] at hflag
    rw [hflag, hsigned, Option.some_inj, ofNat_index_inj (by omega) (by omega)]
  · rintro ⟨haccept, rfl⟩
    refine ⟨verify_iff.mpr ⟨hchosen.version, ?_, haccept.count, haccept.numbered⟩, ?_, key,
      noncePrefix, _, hsame, ⟨?_, ?_⟩, rfl, haccept.size⟩
    · intro c hc
      obtain ⟨j, piece, -, -, hsig, -⟩ := hchosen.source hx hideal hderive hsealed hc
      exact hsig
    · rw [hchosen.issuer]
      exact hx.publicKey issuer.secret
    · rw [signedPieces, List.length_map]
    · intro i c hc
      obtain ⟨j, piece, hpiece, hsigned, -, hopens⟩ := hsource i c hc
      have hj := (List.getElem?_eq_some_iff.mp hpiece).1
      refine ⟨piece, signedPieces_at hc hsigned (by omega) hpiece, (hopens _ _).mpr ⟨?_, rfl⟩⟩
      rw [hlen, Bool.beq_eq_decide_eq, Bool.beq_eq_decide_eq, decide_eq_decide,
        haccept.last i c hc, hsigned, Option.some_inj, ofNat_index_inj (by omega) (by omega)]

/-- In the order of the numbers that were signed, each chunk stands at its number. -/
theorem signedSequence_at {e : Envelope} (hnumbered : Numbered e.sortedChunks)
    (horder : ∀ c ∈ e.chunks, c.signedSequence = some c.sequence) {i : Nat} {c : NetworkChunk}
    (hc : e.sortedChunks[i]? = some c) : c.signedSequence = some (UInt64.ofNat i) := by
  have hmem := (sortedChunks_perm e).mem_iff.mp (List.mem_of_getElem? hc)
  rw [horder c hmem, hnumbered.at hc]

/-- Chunks whose unsigned numbers are the signed ones are the whole payload in order. -/
theorem signedPieces_of_signed_order {pieces : List Bytes} (hbound : pieces.length ≤ 2 ^ 24)
    (hsource : ∀ c ∈ other.chunks, ∃ j piece, pieces[j]? = some piece ∧
      c.signedSequence = some (UInt64.ofNat j))
    (horder : ∀ c ∈ other.chunks, c.signedSequence = some c.sequence) (hne : other.chunks ≠ [])
    (haccept : Acceptable pieces other) : signedPieces pieces other.sortedChunks = pieces := by
  have hlen := sortedChunks_length other
  have hcount := haccept.count
  have hshort := other.metadata.chunkCount.toNat_lt
  have hplace : ∀ i c, other.sortedChunks[i]? = some c →
      ∃ piece, pieces[i]? = some piece ∧ c.signedSequence = some (UInt64.ofNat i) := by
    intro i c hc
    have hmem := (sortedChunks_perm other).mem_iff.mp (List.mem_of_getElem? hc)
    have hi := (List.getElem?_eq_some_iff.mp hc).1
    obtain ⟨j, piece, hpiece, hsigned⟩ := hsource c hmem
    have hj := (List.getElem?_eq_some_iff.mp hpiece).1
    have hseq := signedSequence_at haccept.numbered horder hc
    have hij := (ofNat_index_inj (by omega) (by omega)).mp
      (Option.some.inj (hsigned.symm.trans hseq))
    exact ⟨piece, hij ▸ hpiece, hseq⟩
  -- the last position holds the last piece, so that none is missing
  have hpos : 0 < other.chunks.length := List.length_pos_iff.mpr hne
  have hend := List.getElem?_eq_getElem (l := other.sortedChunks)
    (i := other.chunks.length - 1) (by omega)
  obtain ⟨piece, hpiece, hsigned⟩ := hplace _ _ hend
  have hlt := (List.getElem?_eq_some_iff.mp hpiece).1
  have hlast := (haccept.last _ _ hend).mp rfl
  have hsame := (ofNat_index_inj (by omega) (by omega)).mp
    (Option.some.inj (hsigned.symm.trans hlast))
  refine ext_along (List.length_map _) (by omega) ?_
  intro i c hc
  have hi := (List.getElem?_eq_some_iff.mp hc).1
  obtain ⟨piece, hpiece, hsigned⟩ := hplace i c hc
  rw [signedPieces_at hc hsigned (by omega) hpiece, hpiece]

/-- Without a key, chunks can be put into any order that ends with the last one of the payload:
`unseal` gives the payload or nothing exactly when such an order spells the payload. It does when
every chunk keeps the sequence number that was signed for it and not all of them are dropped. -/
theorem rearranged_unseal_iff {e : Envelope} (hx : x.SignsLawfully)
    (hcommutes : ec.x25519 issuer (beneficiary.verifyingKey x) =
      ec.x25519 beneficiary (issuer.verifyingKey x))
    (hseal : Envelope.seal x ec payload issuer (beneficiary.verifyingKey x) draws = .ok e)
    (hideal : ec.OpensOnlySealed x payload issuer (beneficiary.verifyingKey x) draws)
    (hchosen : ChosenFrom e other) :
    ((∀ q, other.unseal x ec beneficiary = .ok q → q = payload) ↔
      (Acceptable (payloadChunks payload) other →
        (signedPieces (payloadChunks payload) other.sortedChunks).flatten = payload)) ∧
    ((∀ c ∈ other.chunks, c.signedSequence = some c.sequence) → other.chunks ≠ [] →
      ∀ q, other.unseal x ec beneficiary = .ok q → q = payload) := by
  obtain ⟨key, noncePrefix, sealed, hderive, hsealed, rfl⟩ := seal_eq_ok.mp hseal
  have hiff := fun q =>
    unseal_chosen_iff (q := q) hx hcommutes hideal hderive hsealed hchosen
  constructor
  · constructor
    · intro h haccept
      exact h _ ((hiff _).mpr ⟨haccept, rfl⟩)
    · intro h q hq
      obtain ⟨haccept, rfl⟩ := (hiff q).mp hq
      exact h haccept
  · intro horder hne q hq
    obtain ⟨haccept, rfl⟩ := (hiff q).mp hq
    have hsource : ∀ c ∈ other.chunks, ∃ j piece, (payloadChunks payload)[j]? = some piece ∧
        c.signedSequence = some (UInt64.ofNat j) := by
      intro c hc
      obtain ⟨j, piece, hpiece, hsigned, -⟩ := hchosen.source hx hideal hderive hsealed hc
      exact ⟨j, piece, hpiece, hsigned⟩
    rw [signedPieces_of_signed_order hsealed.bounded hsource horder hne haccept,
      payloadChunks_flatten]

/-- A chunk with the unsigned numbers zero and one exchanged. -/
def swapFirstTwo (c : NetworkChunk) : NetworkChunk :=
  { c with sequence := if c.sequence = 0 then 1 else if c.sequence = 1 then 0 else c.sequence }

theorem chosenFrom_swapped (e : Envelope) :
    ChosenFrom e { e with chunks := e.chunks.map swapFirstTwo } := by
  refine ⟨rfl, rfl, rfl, ?_⟩
  intro c hc
  obtain ⟨source, hsource, rfl⟩ := List.mem_map.mp hc
  exact ⟨source, hsource, rfl, rfl⟩

theorem sortedChunks_swapped {e : Envelope} {c d last : NetworkChunk}
    (hchunks : e.chunks = [c, d, last].map swapFirstTwo) (hc : c.sequence = UInt64.ofNat 0)
    (hd : d.sequence = UInt64.ofNat 1) (hlast : last.sequence = UInt64.ofNat 2) :
    Numbered e.sortedChunks ∧ e.sortedChunks = [d, c, last].map swapFirstTwo := by
  have hnumbered : Numbered ([d, c, last].map swapFirstTwo) := by
    simp only [Numbered, List.map_cons, List.map_nil, List.length_cons, List.length_nil,
      swapFirstTwo, hc, hd, hlast]
    decide
  have hsorted := sortedChunks_of_perm (e := e) hnumbered (by simp)
    (hchunks ▸ (List.Perm.swap d c [last]).map swapFirstTwo)
  exact ⟨hsorted ▸ hnumbered, hsorted⟩

/-- The first two of three chunks trade places with their unsigned numbers. -/
theorem unseal_swapped (hx : x.SignsLawfully)
    (hcommutes : ec.x25519 issuer (beneficiary.verifyingKey x) =
      ec.x25519 beneficiary (issuer.verifyingKey x))
    (hideal : ec.OpensOnlySealed x payload issuer (beneficiary.verifyingKey x) draws)
    (hderive : deriveSharedEncryptionKey ec issuer (beneficiary.verifyingKey x) draws.hkdfSalt =
      .ok (key, noncePrefix))
    (hsealed : SealedChunks x ec issuer draws key noncePrefix (payloadChunks payload) sealed)
    {a b tail : Bytes} (hpieces : payloadChunks payload = [a, b, tail])
    (hchosen : ChosenFrom
      (sealedEnvelope x payload issuer (beneficiary.verifyingKey x) draws sealed) other)
    (hchunks : other.chunks = sealed.map swapFirstTwo)
    (hmetadata : other.metadata = sealMetadata payload draws.createdAt) :
    other.unseal x ec beneficiary = .ok (b ++ (a ++ tail)) := by
  have hwhole : payload = a ++ (b ++ tail) := by
    rw [← payloadChunks_flatten payload, hpieces]
    simp
  have hlen : sealed.length = 3 := by
    rw [hsealed.length_eq, hpieces]
    rfl
  obtain ⟨c, d, last, hlist⟩ := List.length_eq_three.mp hlen
  obtain ⟨_, -, hc, hcm, -⟩ := hsealed.piece (i := 0) (by rw [hlist]; rfl)
  obtain ⟨_, -, hd, hdm, -⟩ := hsealed.piece (i := 1) (by rw [hlist]; rfl)
  obtain ⟨_, -, hlast, hlastm, -⟩ := hsealed.piece (i := 2) (by rw [hlist]; rfl)
  have hcs : (swapFirstTwo c).signedSequence = some 0 := signedSequence_sealed hx hcm
  have hds : (swapFirstTwo d).signedSequence = some 1 := signedSequence_sealed hx hdm
  have hlasts : (swapFirstTwo last).signedSequence = some 2 := signedSequence_sealed hx hlastm
  obtain ⟨hnumbered, hsorted⟩ := sortedChunks_swapped (hlist ▸ hchunks) hc hd hlast
  have hspelled : (signedPieces (payloadChunks payload) other.sortedChunks).flatten =
      b ++ (a ++ tail) := by
    simp [hsorted, signedPieces, hpieces, hcs, hds, hlasts]
  refine (unseal_chosen_iff hx hcommutes hideal hderive hsealed hchosen).mpr
    ⟨⟨?_, hnumbered, ?_, ?_⟩, hspelled.symm⟩
  · rw [hmetadata, hchunks, List.length_map, hsealed.length_eq]
    exact sealMetadata_count draws.createdAt hsealed.bounded
  · intro i chunk hchunk
    rw [hsorted] at hchunk
    rw [hpieces, hchunks, List.length_map, hlen]
    match i with
    | 0 => cases hchunk; simp [hds]
    | 1 => cases hchunk; simp [hcs]
    | 2 => cases hchunk; simp [hlasts]
    | _ + 3 => cases hchunk
  · rw [hspelled, hmetadata, ← sealMetadata_size draws.createdAt hsealed.bounded, hwhole]
    simp only [List.length_append]
    omega

end Chosen

section Sample

variable {x : Crates} {ec : EnvelopeCrates}

/-- The cipher, opening only what one call of `seal` sealed. -/
def EnvelopeCrates.openingOnly (ec : EnvelopeCrates) (x : Crates) (payload : Bytes)
    (draws : SealDraws) (noncePrefix : Fixed 8) : EnvelopeCrates :=
  { ec with
    aes256GcmDecrypt := fun key nonce aad ciphertext =>
      (ec.aes256GcmDecrypt key nonce aad ciphertext).filter fun text =>
        (payloadChunks payload).zipIdx.any fun p =>
          decide (p.1 = text ∧
            nonce = chunkNonce noncePrefix (UInt64.ofNat p.2)
              (p.2 == (payloadChunks payload).length - 1) ∧
            aad = chunkAad x noncePrefix draws.createdAt (UInt64.ofNat p.2) text
              (p.2 == (payloadChunks payload).length - 1)) }

theorem openingOnly_opensOnlySealed {payload : Bytes} {issuer : DeviceKeypair}
    {beneficiaryKey : Bytes} {draws : SealDraws} {key : Fixed 32} {noncePrefix : Fixed 8}
    (hinverse : ∀ key nonce aad text ciphertext,
      ec.aes256GcmDecrypt key nonce aad ciphertext = some text ↔
        ec.aes256GcmEncrypt key nonce aad text = some ciphertext)
    (hderive : deriveSharedEncryptionKey ec issuer beneficiaryKey draws.hkdfSalt =
      .ok (key, noncePrefix)) :
    (ec.openingOnly x payload draws noncePrefix).OpensOnlySealed x payload issuer beneficiaryKey
      draws := by
  intro key' noncePrefix' hderive' nonce aad ciphertext text
  have hsame : deriveSharedEncryptionKey ec issuer beneficiaryKey draws.hkdfSalt =
      .ok (key', noncePrefix') := hderive'
  rw [hderive] at hsame
  cases hsame
  simp only [EnvelopeCrates.openingOnly, Option.filter_eq_some_iff, List.any_eq_true,
    decide_eq_true_eq, hinverse]
  constructor
  · rintro ⟨henc, ⟨piece, i⟩, hp, rfl, hnonce, haad⟩
    exact ⟨i, List.mem_zipIdx_iff_getElem?.mp hp, hnonce, haad, henc⟩
  · rintro ⟨i, hi, hnonce, haad, henc⟩
    exact ⟨henc, (text, i), List.mem_zipIdx_iff_getElem?.mpr hi, rfl, hnonce, haad⟩

theorem sampleEnvelope_inverse (key : Fixed 32) (nonce : Fixed 12) (aad text ciphertext : Bytes) :
    sampleEnvelope.aes256GcmDecrypt key nonce aad ciphertext = some text ↔
      sampleEnvelope.aes256GcmEncrypt key nonce aad text = some ciphertext := by
  constructor
  · intro h
    simp only [sampleEnvelope, Option.ite_none_right_eq_some, Option.some.injEq] at h ⊢
    obtain ⟨htag, htext⟩ := h
    rw [← htag, ← htext, List.take_append_drop]
  · intro h
    exact sampleEnvelope_correct.decrypts key nonce aad text ciphertext h

theorem sample_shared : (sampleEnvelope.x25519 (sampleKey 1)
    ((sampleKey 2).verifyingKey sampleCrates)).val.all (· == 0) = false := by
  decide

/-- A payload sealed by the first sample key for the second, under a cipher that opens nothing
else. -/
theorem sample_sealed_only {payload : Bytes} (hcount : (payloadChunks payload).length ≤ 2 ^ 24) :
    ∃ ec key noncePrefix chunks,
      ec.OpensOnlySealed sampleCrates payload (sampleKey 1)
        ((sampleKey 2).verifyingKey sampleCrates) sampleSealDraws ∧
      ec.x25519 (sampleKey 1) ((sampleKey 2).verifyingKey sampleCrates) =
        ec.x25519 (sampleKey 2) ((sampleKey 1).verifyingKey sampleCrates) ∧
      deriveSharedEncryptionKey ec (sampleKey 1) ((sampleKey 2).verifyingKey sampleCrates)
        sampleSealDraws.hkdfSalt = .ok (key, noncePrefix) ∧
      SealedChunks sampleCrates ec (sampleKey 1) sampleSealDraws key noncePrefix
        (payloadChunks payload) chunks := by
  obtain ⟨key, noncePrefix, hderive⟩ :=
    deriveSharedEncryptionKey_ok sampleEnvelope_correct sample_shared sampleSealDraws.hkdfSalt
  obtain ⟨chunks, hchunks⟩ := sealedChunks_exist sampleEnvelope_correct (sampleKey 1)
    sampleSealDraws key noncePrefix hcount
  exact ⟨sampleEnvelope.openingOnly sampleCrates payload sampleSealDraws noncePrefix, key,
    noncePrefix, chunks, openingOnly_opensOnlySealed sampleEnvelope_inverse hderive,
    sampleEnvelope_correct.commutes _ _, hderive,
    ⟨hchunks.length_eq, hchunks.bounded, hchunks.each⟩⟩

theorem ChosenFrom.refl (e : Envelope) : ChosenFrom e e :=
  ⟨rfl, rfl, rfl, fun c hc => ⟨c, hc, rfl, rfl⟩⟩

theorem rearranged_unseal_sample : ∃ ec e,
    Envelope.seal sampleCrates ec threeChunks (sampleKey 1)
      ((sampleKey 2).verifyingKey sampleCrates) sampleSealDraws = .ok e ∧
    ((∀ q, e.unseal sampleCrates ec (sampleKey 2) = .ok q → q = threeChunks) ↔
      (Acceptable (payloadChunks threeChunks) e →
        (signedPieces (payloadChunks threeChunks) e.sortedChunks).flatten = threeChunks)) := by
  have hcount : (payloadChunks threeChunks).length ≤ 2 ^ 24 := by
    rw [payloadChunks_le_iff, threeChunks_length]
    decide
  obtain ⟨ec, key, noncePrefix, chunks, hideal, hcommutes, hderive, hchunks⟩ :=
    sample_sealed_only hcount
  have hseal := seal_eq_ok.mpr ⟨key, noncePrefix, chunks, hderive, hchunks, rfl⟩
  exact ⟨ec, _, hseal, (rearranged_unseal_iff sampleCrates_signsLawfully hcommutes hseal hideal
    (ChosenFrom.refl _)).1⟩

theorem payloadChunks_append {full : Bytes} (h : full.length = defaultChunkSize) (rest : Bytes) :
    payloadChunks (full ++ rest) = full :: payloadChunks rest := by
  have hne : full ++ rest ≠ [] := by
    intro he
    have hnil := (List.append_eq_nil_iff.mp he).1
    rw [hnil] at h
    exact absurd h (by decide)
  rw [payloadChunks_cons hne, List.take_left' h, List.drop_left' h]

theorem payloadChunks_singleton (b : UInt8) : payloadChunks [b] = [[b]] := by
  rw [payloadChunks_cons (by simp)]
  simp [defaultChunkSize]

theorem fullChunk_head (b : UInt8) (rest : Bytes) : (fullChunk b ++ rest).head? = some b := by
  have hsize : defaultChunkSize = 65535 + 1 := rfl
  rw [fullChunk, hsize, List.replicate_succ, List.cons_append, List.head?_cons]

theorem payloadChunks_full_full (a b c : UInt8) :
    payloadChunks (fullChunk a ++ (fullChunk b ++ [c])) = [fullChunk a, fullChunk b, [c]] := by
  have hfull : ∀ b, (fullChunk b).length = defaultChunkSize := fun b => List.length_replicate
  rw [payloadChunks_append (hfull a), payloadChunks_append (hfull b), payloadChunks_singleton]

/-- Three chunks, of which the first two are given each other's unsigned number, open in the
wrong order; nothing else in the envelope is touched. -/
theorem swapped_sequences_unseal : ∃ ec e,
    ec.OpensOnlySealed sampleCrates (fullChunk 1 ++ (fullChunk 2 ++ [3])) (sampleKey 1)
      ((sampleKey 2).verifyingKey sampleCrates) sampleSealDraws ∧
    Envelope.seal sampleCrates ec (fullChunk 1 ++ (fullChunk 2 ++ [3])) (sampleKey 1)
      ((sampleKey 2).verifyingKey sampleCrates) sampleSealDraws = .ok e ∧
    ChosenFrom e { e with chunks := e.chunks.map swapFirstTwo } ∧
    { e with chunks := e.chunks.map swapFirstTwo }.unseal sampleCrates ec (sampleKey 2) =
      .ok (fullChunk 2 ++ (fullChunk 1 ++ [3])) ∧
    fullChunk 2 ++ (fullChunk 1 ++ [3]) ≠ fullChunk 1 ++ (fullChunk 2 ++ [3]) := by
  have hpieces := payloadChunks_full_full 1 2 3
  have hcount : (payloadChunks (fullChunk 1 ++ (fullChunk 2 ++ [3]))).length ≤ 2 ^ 24 := by
    simp [hpieces]
  obtain ⟨ec, key, noncePrefix, chunks, hideal, hcommutes, hderive, hchunks⟩ :=
    sample_sealed_only hcount
  have hseal := seal_eq_ok.mpr ⟨key, noncePrefix, chunks, hderive, hchunks, rfl⟩
  refine ⟨ec, _, hideal, hseal, chosenFrom_swapped _, ?_, ?_⟩
  · exact unseal_swapped sampleCrates_signsLawfully hcommutes hideal hderive hchunks hpieces
      (chosenFrom_swapped _) rfl rfl
  · intro h
    have hhead := congrArg List.head? h
    rw [fullChunk_head, fullChunk_head] at hhead
    exact absurd (Option.some.inj hhead) (by decide)

end Sample

end Sealedge
