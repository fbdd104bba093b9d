import Sealedge.EnvelopeTamper
import Sealedge.Receipts

namespace Sealedge

open Fallible Bincode

/-- A call of `seal` by one issuer. -/
structure SealCall where
  payload : Bytes
  beneficiaryKey : Bytes
  draws : SealDraws

/-- The cipher when nobody but the issuer has encrypted under the key, and only in one call:
whatever opens under it is a piece of the call, at the place of the piece. -/
def EnvelopeCrates.OnlySealedBy (ec : EnvelopeCrates) (key : Fixed 32) (noncePrefix : Fixed 8)
    (call : SealCall) : Prop :=
  ∀ nonce aad ciphertext text, ec.aes256GcmDecrypt key nonce aad ciphertext = some text →
    ∃ i, (payloadChunks call.payload)[i]? = some text ∧
      nonce = chunkNonce noncePrefix (UInt64.ofNat i)
        (i == (payloadChunks call.payload).length - 1)

/-- The envelope holds the manifests of another one in their order, whatever the ciphertexts. -/
structure CarriesManifests (e other : Envelope) : Prop where
  issuer : other.verifyingKeyBytes = e.verifyingKeyBytes
  salt : other.hkdfSalt = e.hkdfSalt
  manifests : other.sortedChunks.map NetworkChunk.manifest = e.chunks.map NetworkChunk.manifest

section Issuer

variable {x : Crates} {ec : EnvelopeCrates} {issuer beneficiary : DeviceKeypair}

theorem signedSequence_of_decrypts {chunk : NetworkChunk} {key : Fixed 32} {noncePrefix : Fixed 8}
    {isLast : Bool} {text : Bytes}
    (h : decryptChunkV2 x ec chunk key noncePrefix isLast = .ok text) :
    ∃ sequence aad, chunk.signedSequence = some sequence ∧ sequence ≤ maxChunkIndex ∧
      ec.aes256GcmDecrypt key (chunkNonce noncePrefix sequence isLast) aad chunk.data =
        some text := by
  obtain ⟨signedManifest, manifest, hsigned, hmanifest, hbound, hopen⟩ := decryptChunkV2_eq_ok.mp h
  refine ⟨manifest.sequence, _, ?_, hbound, hopen⟩
  rw [NetworkChunk.signedSequence, hsigned]
  simp only [Option.bind_eq_bind, Option.bind_some, hmanifest]
  rfl

theorem OnlySealedBy.at_place {call : SealCall} {key : Fixed 32} {noncePrefix : Fixed 8}
    (honly : ec.OnlySealedBy key noncePrefix call)
    (hcount : (payloadChunks call.payload).length ≤ 2 ^ 24) {chunk : NetworkChunk} {i : Nat}
    (hi : i < 2 ^ 64) {isLast : Bool} {text : Bytes}
    (hsigned : chunk.signedSequence = some (UInt64.ofNat i))
    (h : decryptChunkV2 x ec chunk key noncePrefix isLast = .ok text) :
    (payloadChunks call.payload)[i]? = some text ∧
      isLast = (i == (payloadChunks call.payload).length - 1) := by
  obtain ⟨sequence, aad, hsequence, hbound, hopen⟩ := signedSequence_of_decrypts h
  rw [hsigned] at hsequence
  cases hsequence
  obtain ⟨j, hj, hnonce⟩ := honly _ _ _ _ hopen
  have hlt := (List.getElem?_eq_some_iff.mp hj).1
  obtain ⟨hindex, hflag⟩ := chunkNonce_inj hbound (ofNat_le_maxChunkIndex (by omega)) hnonce
  have hij := (ofNat_index_inj hi (by omega)).mp hindex
  subst hij
  exact ⟨hj, hflag⟩

/-- Where only one call has encrypted under the key, chunks in their signed order open to the
payload of the call. -/
theorem unseal_onlySealedBy {call : SealCall} {key : Fixed 32} {noncePrefix : Fixed 8}
    (honly : ec.OnlySealedBy key noncePrefix call)
    (hcalled : (payloadChunks call.payload).length ≤ 2 ^ 24) {e : Envelope} {k : DeviceKeypair}
    (hderive : deriveSharedEncryptionKey ec k e.verifyingKeyBytes e.hkdfSalt =
      .ok (key, noncePrefix)) (hne : e.chunks ≠ [])
    (horder : ∀ c ∈ e.chunks, c.signedSequence = some c.sequence) {payload : Bytes}
    (h : e.unseal x ec k = .ok payload) : call.payload = payload := by
  obtain ⟨hverify, -, key', noncePrefix', opened, hderive', hopened, hpayload, -⟩ :=
    unseal_eq_ok.mp h
  rw [hderive] at hderive'
  cases hderive'
  obtain ⟨-, -, hcount, hnumbered⟩ := verify_iff.mp hverify
  have hlen := sortedChunks_length e
  have hshort := e.metadata.chunkCount.toNat_lt
  have hplace : ∀ i c, e.sortedChunks[i]? = some c → ∃ text, opened[i]? = some text ∧
      (payloadChunks call.payload)[i]? = some text ∧
      (i == e.chunks.length - 1) = (i == (payloadChunks call.payload).length - 1) := by
    intro i c hc
    have hi := (List.getElem?_eq_some_iff.mp hc).1
    obtain ⟨text, htext, hdec⟩ := hopened.each i c hc
    have hsigned := signedSequence_at hnumbered horder hc
    have hpiece := OnlySealedBy.at_place honly hcalled (by omega) hsigned hdec
    rw [hlen] at hpiece
    exact ⟨text, htext, hpiece⟩
  -- the last chunk tells that no piece of the call is missing
  have hpos : 0 < e.chunks.length := List.length_pos_iff.mpr hne
  have hend := List.getElem?_eq_getElem (l := e.sortedChunks) (i := e.chunks.length - 1) (by omega)
  obtain ⟨text, -, hpiece, hflag⟩ := hplace _ _ hend
  have hlt := (List.getElem?_eq_some_iff.mp hpiece).1
  have hsame : e.chunks.length = (payloadChunks call.payload).length := by
    rw [beq_self_eq_true, eq_comm, beq_iff_eq] at hflag
    omega
  have heq : opened = payloadChunks call.payload := by
    refine ext_along hopened.length_eq (by omega) ?_
    intro i c hc
    obtain ⟨text, htext, hpiece, -⟩ := hplace i c hc
    rw [htext, hpiece]
  rw [hpayload, heq, payloadChunks_flatten]

variable {payload : Bytes} {draws : SealDraws} {key : Fixed 32} {noncePrefix : Fixed 8}
  {sealed : List NetworkChunk} {other : Envelope}

variable (x ec) in
/-- The ciphertext opens to the text under the key of a call, at the place and under the manifest
of its piece `i`. -/
def OpensAt (draws : SealDraws) (key : Fixed 32) (noncePrefix : Fixed 8) (pieces : List Bytes)
    (i : Nat) (ciphertext text : Bytes) : Prop :=
  ∃ piece, pieces[i]? = some piece ∧ ec.aes256GcmDecrypt key
    (chunkNonce noncePrefix (UInt64.ofNat i) (i == pieces.length - 1))
    (chunkAad x noncePrefix draws.createdAt (UInt64.ofNat i) piece (i == pieces.length - 1))
    ciphertext = some text

variable (x ec) in
/-- All chunks open, each at its place in the call. -/
def OpensTo (draws : SealDraws) (key : Fixed 32) (noncePrefix : Fixed 8) (pieces : List Bytes)
    (chunks : List NetworkChunk) (texts : List Bytes) : Prop :=
  texts.length = pieces.length ∧ ∀ i c, chunks[i]? = some c →
    ∃ text, texts[i]? = some text ∧ OpensAt x ec draws key noncePrefix pieces i c.data text

theorem CarriesManifests.length_eq
    (hsealed : SealedChunks x ec issuer draws key noncePrefix (payloadChunks payload) sealed)
    (h : CarriesManifests
      (sealedEnvelope x payload issuer (beneficiary.verifyingKey x) draws sealed) other) :
    other.sortedChunks.length = (payloadChunks payload).length := by
  have hlen := congrArg List.length h.manifests
  rw [List.length_map, List.length_map] at hlen
  exact hlen.trans hsealed.length_eq

theorem CarriesManifests.manifest_at
    (hsealed : SealedChunks x ec issuer draws key noncePrefix (payloadChunks payload) sealed)
    (h : CarriesManifests
      (sealedEnvelope x payload issuer (beneficiary.verifyingKey x) draws sealed) other)
    {i : Nat} {c : NetworkChunk} {piece : Bytes} (hc : other.sortedChunks[i]? = some c)
    (hpiece : (payloadChunks payload)[i]? = some piece) :
    c.manifest = sealedManifest x issuer draws.createdAt (UInt64.ofNat i) piece := by
  obtain ⟨ciphertext, -, hget⟩ := hsealed.each i piece hpiece
  have hi := congrArg (fun l => l[i]?) h.manifests
  simp only [List.getElem?_map, hc, sealedEnvelope, hget, Option.map_some] at hi
  exact Option.some.inj hi

/-- With the issuer's manifests in place, an envelope opens to whatever its ciphertexts open to. -/
theorem unseal_carried_iff (hx : x.SignsLawfully)
    (hcommutes : ec.x25519 issuer (beneficiary.verifyingKey x) =
      ec.x25519 beneficiary (issuer.verifyingKey x))
    (hderive : deriveSharedEncryptionKey ec issuer (beneficiary.verifyingKey x) draws.hkdfSalt =
      .ok (key, noncePrefix))
    (hsealed : SealedChunks x ec issuer draws key noncePrefix (payloadChunks payload) sealed)
    (hcarries : CarriesManifests
      (sealedEnvelope x payload issuer (beneficiary.verifyingKey x) draws sealed) other)
    {q : Bytes} :
    other.unseal x ec beneficiary = .ok q ↔ other.version = envelopeVersionV2 ∧
      other.metadata.chunkCount.toNat = other.chunks.length ∧ Numbered other.sortedChunks ∧
      ∃ texts,
        OpensTo x ec draws key noncePrefix (payloadChunks payload) other.sortedChunks texts ∧
        q = texts.flatten ∧ q.length = other.metadata.payloadSize.toNat := by
  have hbound := hsealed.bounded
  have hlen := hcarries.length_eq hsealed
  have hsame : deriveSharedEncryptionKey ec beneficiary other.verifyingKeyBytes other.hkdfSalt =
      .ok (key, noncePrefix) := by
    rw [hcarries.issuer, hcarries.salt, ← hderive]
    exact (deriveSharedEncryptionKey_comm hcommutes draws.hkdfSalt).symm
  have hopens : ∀ i c text, other.sortedChunks[i]? = some c →
      (decryptChunkV2 x ec c key noncePrefix (i == other.sortedChunks.length - 1) = .ok text ↔
        OpensAt x ec draws key noncePrefix (payloadChunks payload) i c.data text) := by
    intro i c text hc
    have hi := (List.getElem?_eq_some_iff.mp hc).1
    have hpiece := List.getElem?_eq_getElem (l := payloadChunks payload) (i := i) (by omega)
    rw [hlen, decryptChunkV2_sealed hx (ofNat_le_maxChunkIndex (by omega))
      (hcarries.manifest_at hsealed hc hpiece)]
    constructor
    · intro h
      exact ⟨_, hpiece, h⟩
    · rintro ⟨piece, hpiece', h⟩
      rw [hpiece] at hpiece'
      cases hpiece'
      exact h
  rw [unseal_eq_ok, verify_iff]
  constructor
  · rintro ⟨⟨hversion, -, hcount, hnumbered⟩, -, key', noncePrefix', texts, hderive', hopened, hq,
      hsize⟩
    rw [hsame] at hderive'
    cases hderive'
    refine ⟨hversion, hcount, hnumbered, texts, ⟨hopened.length_eq.trans hlen, ?_⟩, hq, hsize⟩
    intro i c hc
    obtain ⟨text, htext, hdec⟩ := hopened.each i c hc
    exact ⟨text, htext, (hopens i c text hc).mp hdec⟩
  · rintro ⟨hversion, hcount, hnumbered, texts, ⟨htexts, heach⟩, hq, hsize⟩
    refine ⟨⟨hversion, ?_, hcount, hnumbered⟩, ?_, key, noncePrefix, texts, hsame,
      ⟨htexts.trans hlen.symm, ?_⟩, hq, hsize⟩
    · intro c hc
      obtain ⟨i, hi⟩ := List.mem_iff_getElem?.mp ((sortedChunks_perm other).mem_iff.mpr hc)
      have hlt := (List.getElem?_eq_some_iff.mp hi).1
      exact verifyChunkSignature_sealed hx hcarries.issuer
        (hcarries.manifest_at hsealed hi (List.getElem?_eq_getElem (by omega)))
    · rw [hcarries.issuer]
      exact hx.publicKey issuer.secret
    · intro i c hc
      obtain ⟨text, htext, hopen⟩ := heach i c hc
      exact ⟨text, htext, (hopens i c text hc).mpr hopen⟩

def NetworkChunk.withData (ciphertext : Bytes) (c : NetworkChunk) : NetworkChunk :=
  { c with data := ciphertext }

/-- The sealed envelope with the ciphertext at one place exchanged, and the size that the new
text needs. -/
def replaceCiphertext (e : Envelope) (i : Nat) (ciphertext : Bytes) (size : Nat) : Envelope :=
  { e with
    chunks := e.chunks.modify i (.withData ciphertext)
    metadata := { e.metadata with payloadSize := UInt64.ofNat size } }

theorem map_modify_of_eq {α β : Type} {f : α → α} {g : α → β} (h : ∀ a, g (f a) = g a)
    (l : List α) (i : Nat) : (l.modify i f).map g = l.map g := by
  apply List.ext_getElem?
  intro j
  rw [List.getElem?_map, List.getElem?_map, List.getElem?_modify, Option.map_eq_map, Option.map_map]
  congr 1
  funext a
  by_cases hij : i = j
  · simp [hij, h]
  · simp [hij]

theorem replaceCiphertext_sorted {e : Envelope} (hnumbered : Numbered e.chunks)
    (hlen : e.chunks.length < 2 ^ 64) (i : Nat) (ciphertext : Bytes) (size : Nat) :
    Numbered (replaceCiphertext e i ciphertext size).sortedChunks ∧
      (replaceCiphertext e i ciphertext size).sortedChunks =
        e.chunks.modify i (.withData ciphertext) := by
  have hmodified : Numbered (e.chunks.modify i (.withData ciphertext)) := by
    have hmap := map_modify_of_eq (f := NetworkChunk.withData ciphertext)
      (g := NetworkChunk.sequence) (fun _ => rfl) e.chunks i
    rw [Numbered, hmap, List.length_modify]
    exact hnumbered
  have hsorted := sortedChunks_of_perm (e := replaceCiphertext e i ciphertext size) hmodified
    (by rw [List.length_modify]; exact hlen) (.refl _)
  exact ⟨hsorted ▸ hmodified, hsorted⟩

theorem replaceCiphertext_carries {e : Envelope} (hnumbered : Numbered e.chunks)
    (hlen : e.chunks.length < 2 ^ 64) (i : Nat) (ciphertext : Bytes) (size : Nat) :
    CarriesManifests e (replaceCiphertext e i ciphertext size) := by
  refine ⟨rfl, rfl, ?_⟩
  rw [(replaceCiphertext_sorted hnumbered hlen i ciphertext size).2]
  exact map_modify_of_eq (f := NetworkChunk.withData ciphertext) (g := NetworkChunk.manifest)
    (fun _ => rfl) e.chunks i

/-- Whoever encrypts another text for a place of the call puts it into the payload under the
issuer's signatures. -/
theorem unseal_replaced (hx : x.SignsLawfully)
    (hcommutes : ec.x25519 issuer (beneficiary.verifyingKey x) =
      ec.x25519 beneficiary (issuer.verifyingKey x))
    (hderive : deriveSharedEncryptionKey ec issuer (beneficiary.verifyingKey x) draws.hkdfSalt =
      .ok (key, noncePrefix))
    (hsealed : SealedChunks x ec issuer draws key noncePrefix (payloadChunks payload) sealed)
    (hown : OpensTo x ec draws key noncePrefix (payloadChunks payload) sealed
      (payloadChunks payload)) {i : Nat} {ciphertext text : Bytes}
    (hopen : OpensAt x ec draws key noncePrefix (payloadChunks payload) i ciphertext text)
    (hsize : ((payloadChunks payload).set i text).flatten.length < 2 ^ 64) :
    (replaceCiphertext
      (sealedEnvelope x payload issuer (beneficiary.verifyingKey x) draws sealed) i ciphertext
      ((payloadChunks payload).set i text).flatten.length).unseal x ec beneficiary =
        .ok ((payloadChunks payload).set i text).flatten := by
  obtain ⟨hnumbered, hsorted⟩ := replaceCiphertext_sorted
    (e := sealedEnvelope x payload issuer (beneficiary.verifyingKey x) draws sealed)
    hsealed.numbered hsealed.short i ciphertext ((payloadChunks payload).set i text).flatten.length
  have hcarries := replaceCiphertext_carries
    (e := sealedEnvelope x payload issuer (beneficiary.verifyingKey x) draws sealed)
    hsealed.numbered hsealed.short i ciphertext ((payloadChunks payload).set i text).flatten.length
  refine (unseal_carried_iff hx hcommutes hderive hsealed hcarries).mpr
    ⟨rfl, ?_, hnumbered, _, ⟨List.length_set, ?_⟩, rfl, ?_⟩
  · have hcount := sealMetadata_count draws.createdAt hsealed.bounded
    rw [← hsealed.length_eq] at hcount
    rw [replaceCiphertext, List.length_modify]
    exact hcount
  · intro j c hc
    rw [hsorted, List.getElem?_modify, Option.map_eq_map] at hc
    obtain ⟨source, hsource, hc⟩ := Option.map_eq_some_iff.mp hc
    by_cases hij : i = j
    · obtain ⟨piece, hpiece, hdec⟩ := hopen
      have hlt := (List.getElem?_eq_some_iff.mp hpiece).1
      subst hij
      rw [if_pos rfl] at hc
      subst hc
      exact ⟨text, List.getElem?_set_self hlt, piece, hpiece, hdec⟩
    · rw [if_neg hij] at hc
      subst hc
      obtain ⟨own, hget, hdec⟩ := hown.2 j source hsource
      exact ⟨own, by rw [List.getElem?_set_ne hij, hget], hdec⟩
  · rw [replaceCiphertext, UInt64.toNat_ofNat', Nat.mod_eq_of_lt hsize]

theorem flatten_set {pieces : List Bytes} {i : Nat} {piece : Bytes}
    (hpiece : pieces[i]? = some piece) (text : Bytes) : ∃ before after,
      pieces.flatten = before ++ (piece ++ after) ∧
      (pieces.set i text).flatten = before ++ (text ++ after) := by
  obtain ⟨hlt, rfl⟩ := List.getElem?_eq_some_iff.mp hpiece
  refine ⟨(pieces.take i).flatten, (pieces.drop (i + 1)).flatten, ?_, ?_⟩
  · rw [← List.flatten_cons, List.getElem_cons_drop, ← List.flatten_append, List.take_append_drop]
  · rw [List.set_eq_take_append_cons_drop, if_pos hlt, List.flatten_append, List.flatten_cons]

/-- The issuer's manifests, in their order, protect the payload exactly as far as nobody has
encrypted another text for one of their places. -/
theorem carried_unseal_iff (hx : x.SignsLawfully)
    (hcommutes : ec.x25519 issuer (beneficiary.verifyingKey x) =
      ec.x25519 beneficiary (issuer.verifyingKey x))
    (hderive : deriveSharedEncryptionKey ec issuer (beneficiary.verifyingKey x) draws.hkdfSalt =
      .ok (key, noncePrefix))
    (hsealed : SealedChunks x ec issuer draws key noncePrefix (payloadChunks payload) sealed)
    (hown : OpensTo x ec draws key noncePrefix (payloadChunks payload) sealed
      (payloadChunks payload))
    (hshort : ∀ nonce aad ciphertext text,
      ec.aes256GcmDecrypt key nonce aad ciphertext = some text → text.length ≤ 2 ^ 36) :
    (∀ other, CarriesManifests
        (sealedEnvelope x payload issuer (beneficiary.verifyingKey x) draws sealed) other →
      ∀ q, other.unseal x ec beneficiary = .ok q → q = payload) ↔
    ∀ i ciphertext text,
      OpensAt x ec draws key noncePrefix (payloadChunks payload) i ciphertext text →
        (payloadChunks payload)[i]? = some text := by
  constructor
  · intro h i ciphertext text hopen
    obtain ⟨piece, hpiece, hdec⟩ := id hopen
    obtain ⟨before, after, hwhole, hset⟩ := flatten_set hpiece text
    rw [payloadChunks_flatten] at hwhole
    have htext := hshort _ _ _ _ hdec
    have hlen := payloadChunks_le_iff.mp hsealed.bounded
    have hsize : ((payloadChunks payload).set i text).flatten.length < 2 ^ 64 := by
      rw [hwhole, defaultChunkSize] at hlen
      rw [hset]
      simp only [List.length_append] at hlen ⊢
      omega
    have heq := h _ (replaceCiphertext_carries hsealed.numbered hsealed.short i ciphertext _) _
      (unseal_replaced hx hcommutes hderive hsealed hown hopen hsize)
    rw [hset, hwhole] at heq
    rw [hpiece, List.append_cancel_right (List.append_cancel_left heq)]
  · intro h other hcarries q hq
    obtain ⟨-, -, -, texts, ⟨htexts, heach⟩, rfl, -⟩ :=
      (unseal_carried_iff hx hcommutes hderive hsealed hcarries).mp hq
    have hlen := hcarries.length_eq hsealed
    have heq : texts = payloadChunks payload := by
      refine ext_along (htexts.trans hlen.symm) hlen.symm ?_
      intro i c hc
      obtain ⟨text, htext, hopen⟩ := heach i c hc
      rw [htext, h i _ text hopen]
    rw [heq, payloadChunks_flatten]

theorem payload_of_onlySealedBy {issuer k : DeviceKeypair} {calls : Set SealCall}
    (hcalls : ∀ call ∈ calls, ∃ e,
      Envelope.seal x ec call.payload issuer call.beneficiaryKey call.draws = .ok e)
    {e : Envelope} {key : Fixed 32} {noncePrefix : Fixed 8} {payload : Bytes}
    (hissuer : e.verifyingKeyBytes = issuer.verifyingKey x) (hne : e.chunks ≠ [])
    (horder : ∀ c ∈ e.chunks, c.signedSequence = some c.sequence)
    (hderive : deriveSharedEncryptionKey ec k (issuer.verifyingKey x) e.hkdfSalt =
      .ok (key, noncePrefix)) (honly : ∃ call ∈ calls, ec.OnlySealedBy key noncePrefix call)
    (hunseal : e.unseal x ec k = .ok payload) : ∃ call ∈ calls, call.payload = payload := by
  obtain ⟨call, hcall, honly⟩ := honly
  obtain ⟨e₀, hseal⟩ := hcalls call hcall
  obtain ⟨_, _, _, -, hsealed, -⟩ := seal_eq_ok.mp hseal
  rw [← hissuer] at hderive
  exact ⟨call, hcall, unseal_onlySealedBy honly hsealed.bounded hderive hne horder hunseal⟩

/-- What `unseal` returns is a payload of the issuer when one of the issuer's calls alone has
encrypted under the key of the envelope and its chunks stand in their signed order. For the
signatures of a call this is also what it takes: its manifests in order open to nothing but its
payload exactly when nobody has encrypted another text for their places. In an accepted chain of
receipts the receipt of such an envelope, with its amount, is one that the issuer put in. -/
theorem issuer_authentic_iff (hx : x.SignsLawfully) (issuer : DeviceKeypair)
    (calls : Set SealCall) (hcalls : ∀ call ∈ calls, ∃ e,
      Envelope.seal x ec call.payload issuer call.beneficiaryKey call.draws = .ok e) :
    (∀ (e : Envelope) k key noncePrefix payload, e.verifyingKeyBytes = issuer.verifyingKey x →
      e.chunks ≠ [] → (∀ c ∈ e.chunks, c.signedSequence = some c.sequence) →
      deriveSharedEncryptionKey ec k (issuer.verifyingKey x) e.hkdfSalt = .ok (key, noncePrefix) →
      (∃ call ∈ calls, ec.OnlySealedBy key noncePrefix call) →
      e.unseal x ec k = .ok payload → ∃ call ∈ calls, call.payload = payload) ∧
    (∀ call ∈ calls, ∀ e (beneficiary : DeviceKeypair) key noncePrefix,
      call.beneficiaryKey = beneficiary.verifyingKey x →
      Envelope.seal x ec call.payload issuer call.beneficiaryKey call.draws = .ok e →
      deriveSharedEncryptionKey ec issuer call.beneficiaryKey call.draws.hkdfSalt =
        .ok (key, noncePrefix) →
      ec.x25519 issuer (beneficiary.verifyingKey x) =
        ec.x25519 beneficiary (issuer.verifyingKey x) →
      OpensTo x ec call.draws key noncePrefix (payloadChunks call.payload) e.chunks
        (payloadChunks call.payload) →
      (∀ nonce aad ciphertext text,
        ec.aes256GcmDecrypt key nonce aad ciphertext = some text → text.length ≤ 2 ^ 36) →
      ((∀ other, CarriesManifests e other →
          ∀ q, other.unseal x ec beneficiary = .ok q → q = call.payload) ↔
        ∀ i ciphertext text,
          OpensAt x ec call.draws key noncePrefix (payloadChunks call.payload) i ciphertext text →
            (payloadChunks call.payload)[i]? = some text)) ∧
    ∀ serde es ks clock, verifyReceiptChainWithKeys x ec serde es ks clock = .ok () →
      ∀ (i : Nat) e k key noncePrefix, es[i]? = some e → ks[i]? = some k →
      e.verifyingKeyBytes = issuer.verifyingKey x →
      e.chunks ≠ [] → (∀ c ∈ e.chunks, c.signedSequence = some c.sequence) →
      deriveSharedEncryptionKey ec k (issuer.verifyingKey x) e.hkdfSalt = .ok (key, noncePrefix) →
      (∃ call ∈ calls, ec.OnlySealedBy key noncePrefix call) →
      ∃ r, extractReceipt x ec serde e k (clock i) = .ok r ∧
        ∃ call ∈ calls, serde.fromSlice call.payload = some r := by
  refine ⟨fun _ _ _ _ _ hissuer hne horder hderive honly hunseal =>
    payload_of_onlySealedBy hcalls hissuer hne horder hderive honly hunseal, ?_, ?_⟩
  · intro call _ e beneficiary key noncePrefix hkey hseal hderive hcommutes hown hshort
    obtain ⟨key', noncePrefix', sealed, hderive', hsealed, rfl⟩ := seal_eq_ok.mp hseal
    rw [hderive] at hderive'
    cases hderive'
    rw [hkey] at hderive ⊢
    exact carried_unseal_iff hx hcommutes hderive hsealed hown hshort
  · intro serde es ks clock hchain i e k key noncePrefix he hk hissuer hne horder hderive honly
    obtain ⟨receipts, howned⟩ := verifyReceiptChainWithKeys_eq_ok.mp hchain
    obtain ⟨r, -, hextract⟩ := howned.extracts i e k he hk
    obtain ⟨payload, hunseal, hparse, -⟩ := extractReceipt_eq_ok.mp hextract
    obtain ⟨call, hcall, rfl⟩ :=
      payload_of_onlySealedBy hcalls hissuer hne horder hderive honly hunseal
    exact ⟨r, hextract, call, hcall, hparse⟩

end Issuer

section Sample

variable {x : Crates} {ec : EnvelopeCrates} {issuer : DeviceKeypair}
  {beneficiaryKey payload : Bytes} {draws : SealDraws} {key : Fixed 32} {noncePrefix : Fixed 8}
  {sealed : List NetworkChunk}

theorem SealedChunks.opensTo {pieces : List Bytes}
    (hsealed : SealedChunks x ec issuer draws key noncePrefix pieces sealed)
    (hopens : ∀ i piece ciphertext, pieces[i]? = some piece →
      ec.aes256GcmEncrypt key (chunkNonce noncePrefix (UInt64.ofNat i) (i == pieces.length - 1))
        (chunkAad x noncePrefix draws.createdAt (UInt64.ofNat i) piece (i == pieces.length - 1))
        piece = some ciphertext →
      OpensAt x ec draws key noncePrefix pieces i ciphertext piece) :
    OpensTo x ec draws key noncePrefix pieces sealed pieces := by
  refine ⟨rfl, ?_⟩
  intro i c hc
  obtain ⟨piece, hpiece, -, -, henc⟩ := hsealed.piece hc
  exact ⟨piece, hpiece, hopens i piece _ hpiece henc⟩

theorem OpensOnlySealed.opensTo
    (hideal : ec.OpensOnlySealed x payload issuer beneficiaryKey draws)
    (hderive : deriveSharedEncryptionKey ec issuer beneficiaryKey draws.hkdfSalt =
      .ok (key, noncePrefix))
    (hsealed : SealedChunks x ec issuer draws key noncePrefix (payloadChunks payload) sealed) :
    OpensTo x ec draws key noncePrefix (payloadChunks payload) sealed (payloadChunks payload) := by
  refine hsealed.opensTo ?_
  intro i piece ciphertext hpiece henc
  exact ⟨piece, hpiece, (hideal key noncePrefix hderive _ _ _ _).mpr ⟨i, hpiece, rfl, rfl, henc⟩⟩

theorem OpensOnlySealed.onlySealedBy
    (hideal : ec.OpensOnlySealed x payload issuer beneficiaryKey draws)
    (hderive : deriveSharedEncryptionKey ec issuer beneficiaryKey draws.hkdfSalt =
      .ok (key, noncePrefix)) :
    ec.OnlySealedBy key noncePrefix ⟨payload, beneficiaryKey, draws⟩ := by
  intro nonce aad ciphertext text h
  obtain ⟨i, hi, hnonce, -, -⟩ := (hideal key noncePrefix hderive _ _ _ _).mp h
  exact ⟨i, hi, hnonce⟩

theorem issuer_authentic_sample : ∃ ec e key noncePrefix,
    Envelope.seal sampleCrates ec threeChunks (sampleKey 1)
      ((sampleKey 2).verifyingKey sampleCrates) sampleSealDraws = .ok e ∧
    (∀ payload, e.unseal sampleCrates ec (sampleKey 2) = .ok payload → ∃ call ∈
      ({⟨threeChunks, (sampleKey 2).verifyingKey sampleCrates, sampleSealDraws⟩} : Set SealCall),
        call.payload = payload) ∧
    ((∀ other, CarriesManifests e other →
        ∀ q, other.unseal sampleCrates ec (sampleKey 2) = .ok q → q = threeChunks) ↔
      ∀ i ciphertext text, OpensAt sampleCrates ec sampleSealDraws key noncePrefix
        (payloadChunks threeChunks) i ciphertext text →
          (payloadChunks threeChunks)[i]? = some text) := by
  have hcount : (payloadChunks threeChunks).length ≤ 2 ^ 24 := by
    rw [payloadChunks_le_iff, threeChunks_length]
    decide
  obtain ⟨ec, key, noncePrefix, chunks, hideal, hcommutes, hderive, hchunks⟩ :=
    sample_sealed_only hcount
  have hseal := seal_eq_ok.mpr ⟨key, noncePrefix, chunks, hderive, hchunks, rfl⟩
  have hauthentic := issuer_authentic_iff sampleCrates_signsLawfully (sampleKey 1)
    {⟨threeChunks, (sampleKey 2).verifyingKey sampleCrates, sampleSealDraws⟩}
    (by rintro call rfl; exact ⟨_, hseal⟩)
  refine ⟨ec, _, key, noncePrefix, hseal, ?_, ?_⟩
  · intro payload hunseal
    refine hauthentic.1 _ (sampleKey 2) key noncePrefix payload rfl ?_ ?_ ?_
      ⟨_, rfl, OpensOnlySealed.onlySealedBy hideal hderive⟩ hunseal
    · intro hnil
      have hlen := hchunks.length_eq
      rw [show chunks = [] from hnil, payloadChunks_length, threeChunks_length] at hlen
      exact absurd hlen (by decide)
    · intro c hc
      obtain ⟨i, hi⟩ := List.mem_iff_getElem?.mp hc
      obtain ⟨piece, -, hseq, hmanifest, -⟩ := hchunks.piece hi
      rw [hseq]
      exact signedSequence_sealed sampleCrates_signsLawfully hmanifest
    · rw [← hderive]
      exact (deriveSharedEncryptionKey_comm hcommutes _).symm
  · refine hauthentic.2.1 _ rfl _ (sampleKey 2) key noncePrefix rfl hseal hderive hcommutes
      (OpensOnlySealed.opensTo hideal hderive hchunks) ?_
    intro nonce aad ciphertext text h
    obtain ⟨i, hi, -, -, -⟩ := (hideal key noncePrefix hderive _ _ _ _).mp h
    exact Nat.le_trans (payloadChunks_piece_le (List.mem_of_getElem? hi)) (by decide)

/-- The beneficiary derives the key of an envelope it got, encrypts another text under it for the
place of the first chunk, and leaves the issuer's manifests as they are. -/
theorem beneficiary_forges_payload : ∃ e key noncePrefix ciphertext,
    Envelope.seal sampleCrates sampleEnvelope [1, 2, 3] (sampleKey 1)
      ((sampleKey 2).verifyingKey sampleCrates) sampleSealDraws = .ok e ∧
    deriveSharedEncryptionKey sampleEnvelope (sampleKey 2)
      ((sampleKey 1).verifyingKey sampleCrates) e.hkdfSalt = .ok (key, noncePrefix) ∧
    sampleEnvelope.aes256GcmEncrypt key (chunkNonce noncePrefix 0 true)
      (chunkAad sampleCrates noncePrefix sampleSealDraws.createdAt 0 [1, 2, 3] true) [9, 9] =
        some ciphertext ∧
    (replaceCiphertext e 0 ciphertext 2).verifyingKeyBytes =
      (sampleKey 1).verifyingKey sampleCrates ∧
    CarriesManifests e (replaceCiphertext e 0 ciphertext 2) ∧
    (replaceCiphertext e 0 ciphertext 2).unseal sampleCrates sampleEnvelope (sampleKey 2) =
      .ok [9, 9] := by
  have hpieces : payloadChunks [1, 2, 3] = [[1, 2, 3]] := by
    rw [payloadChunks_cons (by simp)]
    simp [defaultChunkSize]
  obtain ⟨key, noncePrefix, hderive⟩ :=
    deriveSharedEncryptionKey_ok sampleEnvelope_correct sample_shared sampleSealDraws.hkdfSalt
  have hcount : (payloadChunks [1, 2, 3]).length ≤ 2 ^ 24 := by simp [hpieces]
  obtain ⟨chunks, hchunks⟩ := sealedChunks_exist sampleEnvelope_correct (sampleKey 1)
    sampleSealDraws key noncePrefix hcount
  obtain ⟨ciphertext, henc⟩ := sampleEnvelope_correct.encrypts key (chunkNonce noncePrefix 0 true)
    (chunkAad sampleCrates noncePrefix sampleSealDraws.createdAt 0 [1, 2, 3] true) [9, 9]
    (by rw [chunkAad_length]; decide) (by decide)
  have hcommutes := sampleEnvelope_correct.commutes (sampleKey 1) (sampleKey 2)
  have hopen : OpensAt sampleCrates sampleEnvelope sampleSealDraws key noncePrefix
      (payloadChunks [1, 2, 3]) 0 ciphertext [9, 9] := by
    rw [hpieces]
    exact ⟨[1, 2, 3], rfl, sampleEnvelope_correct.decrypts _ _ _ _ _ henc⟩
  have hforged := unseal_replaced sampleCrates_signsLawfully hcommutes hderive hchunks
    (hchunks.opensTo (fun _ piece _ hpiece henc =>
      ⟨piece, hpiece, sampleEnvelope_correct.decrypts _ _ _ _ _ henc⟩)) hopen (by simp [hpieces])
  rw [hpieces] at hforged
  refine ⟨_, key, noncePrefix, ciphertext,
    seal_eq_ok.mpr ⟨key, noncePrefix, chunks, hderive, hchunks, rfl⟩, ?_, henc, rfl,
    replaceCiphertext_carries hchunks.numbered hchunks.short 0 ciphertext 2, hforged⟩
  rw [← hderive]
  exact (deriveSharedEncryptionKey_comm hcommutes _).symm

end Sample

end Sealedge
