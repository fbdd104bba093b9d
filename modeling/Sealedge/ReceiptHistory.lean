import Mathlib.Data.Set.Function
import Sealedge.ChronicleTip
import Sealedge.ReceiptChain

namespace Sealedge

open Fallible HashChain

section History

variable {x : Crates} {ec : EnvelopeCrates} {serde : ReceiptSerde}

/-- Each of the ciphertexts opens under one key at most, and to one text. -/
def EnvelopeCrates.CommitsOn (ec : EnvelopeCrates) (ciphertexts : Set Bytes) : Prop :=
  ∀ ciphertext ∈ ciphertexts, ∀ key key' nonce nonce' aad aad' text text',
    ec.aes256GcmDecrypt key nonce aad ciphertext = some text →
    ec.aes256GcmDecrypt key' nonce' aad' ciphertext = some text' → key = key' ∧ text = text'

/-- The ciphertexts of an envelope. -/
def Envelope.ciphertexts (e : Envelope) : Set Bytes :=
  {data | ∃ c ∈ e.chunks, c.data = data}

theorem unseal_unique {e : Envelope} (hcommits : ec.CommitsOn e.ciphertexts)
    {k k' : DeviceKeypair} {payload payload' : Bytes} (h : e.unseal x ec k = .ok payload)
    (h' : e.unseal x ec k' = .ok payload') : payload = payload' := by
  obtain ⟨-, -, _, _, opened, -, hopened, rfl, -⟩ := unseal_eq_ok.mp h
  obtain ⟨-, -, _, _, opened', -, hopened', rfl, -⟩ := unseal_eq_ok.mp h'
  have heq : opened = opened' := by
    refine ext_along hopened.length_eq hopened'.length_eq ?_
    intro i c hc
    have hmem := (sortedChunks_perm e).mem_iff.mp (List.mem_of_getElem? hc)
    obtain ⟨text, htext, hdec⟩ := hopened.each i c hc
    obtain ⟨text', htext', hdec'⟩ := hopened'.each i c hc
    obtain ⟨_, _, -, -, -, hopen⟩ := decryptChunkV2_eq_ok.mp hdec
    obtain ⟨_, _, -, -, -, hopen'⟩ := decryptChunkV2_eq_ok.mp hdec'
    rw [htext, htext', (hcommits _ ⟨_, hmem, rfl⟩ _ _ _ _ _ _ _ _ hopen hopen').2]
  rw [heq]

theorem extractReceipt_unique {e : Envelope} (hcommits : ec.CommitsOn e.ciphertexts)
    {k k' : DeviceKeypair} {now now' : UInt64} {r r' : OwnershipReceipt}
    (h : extractReceipt x ec serde e k now = .ok r)
    (h' : extractReceipt x ec serde e k' now' = .ok r') : r = r' := by
  obtain ⟨payload, hunseal, hparse, -⟩ := extractReceipt_eq_ok.mp h
  obtain ⟨payload', hunseal', hparse', -⟩ := extractReceipt_eq_ok.mp h'
  rw [unseal_unique hcommits hunseal hunseal', hparse'] at hparse
  exact (Option.some.inj hparse).symm

theorem OwnedChain.origin_zip {es : List Envelope} {ks : List DeviceKeypair}
    {clock : Nat → UInt64} {rs : List OwnershipReceipt}
    (h : OwnedChain x ec serde es ks clock rs) {hop : Envelope × OwnershipReceipt}
    (hhop : (es.zip rs).head? = some hop) : hop.2.prevEnvelopeHash = none := by
  rw [List.head?_eq_getElem?] at hhop
  obtain ⟨-, hr⟩ := List.getElem?_zip_eq_some.mp hhop
  rw [← List.head?_eq_getElem?] at hr
  exact h.origin hop.2 hr

/-- The hops of an accepted chain are linked by the hashes of their envelopes. -/
theorem OwnedChain.linked_hops {es : List Envelope} {ks : List DeviceKeypair}
    {clock : Nat → UInt64} {rs : List OwnershipReceipt}
    (h : OwnedChain x ec serde es ks clock rs) :
    Linked (fun hop => hop.1.hash x) (fun hop => hop.2.prevEnvelopeHash) (es.zip rs) := by
  have hpos : 0 < (es.zip rs).length := by
    have hne := List.length_pos_of_ne_nil h.nonempty
    rw [List.length_zip, h.receipts_length, Nat.min_self]
    exact hne
  refine linked_iff_getElem.mpr ⟨⟨_, List.getElem?_eq_getElem hpos, h.origin_zip ?_⟩, ?_⟩
  · rw [List.head?_eq_getElem?]
    exact List.getElem?_eq_getElem hpos
  · intro i a b ha hb
    obtain ⟨_, rfl⟩ := List.getElem?_eq_some_iff.mp ha
    obtain ⟨hi, rfl⟩ := List.getElem?_eq_some_iff.mp hb
    exact (List.isChain_iff_getElem.mp h.linked i hi).hash

theorem OwnedChain.last_hop {es : List Envelope} {ks : List DeviceKeypair}
    {clock : Nat → UInt64} {rs : List OwnershipReceipt}
    (h : OwnedChain x ec serde es ks clock rs) :
    ∃ front hop, es.zip rs = front ++ [hop] ∧ es.getLast? = some hop.1 := by
  rcases List.eq_nil_or_concat' (es.zip rs) with hnil | ⟨front, hop, hzip⟩
  · have hes := h.fst_zip
    rw [hnil] at hes
    exact absurd hes.symm h.nonempty
  · refine ⟨front, hop, hzip, ?_⟩
    rw [← h.fst_zip, hzip, List.map_append, List.map_singleton, List.getLast?_concat]

/-- Two accepted chains with the same last envelope are the same chain. -/
theorem last_envelope_determines_chain {es fs : List Envelope} {ks ls : List DeviceKeypair}
    {clock clock' : Nat → UInt64} (hcommits : ∀ e ∈ es, ec.CommitsOn e.ciphertexts)
    (hbincode : Set.InjOn Envelope.bincode {e | e ∈ es ∨ e ∈ fs})
    (hblake3 : Set.InjOn x.blake3 (Envelope.bincode '' {e | e ∈ es ∨ e ∈ fs}))
    (hes : verifyReceiptChainWithKeys x ec serde es ks clock = .ok ())
    (hfs : verifyReceiptChainWithKeys x ec serde fs ls clock' = .ok ())
    (hlast : es.getLast? = fs.getLast?) : es = fs := by
  obtain ⟨rs, hes⟩ := verifyReceiptChainWithKeys_eq_ok.mp hes
  obtain ⟨rs', hfs⟩ := verifyReceiptChainWithKeys_eq_ok.mp hfs
  obtain ⟨front, hop, hzip, hend⟩ := hes.last_hop
  obtain ⟨front', hop', hzip', hend'⟩ := hfs.last_hop
  have hlinked := hes.linked_hops
  have hlinked' := hfs.linked_hops
  rw [hzip] at hlinked
  rw [hzip'] at hlinked'
  have htip : hop.1 = hop'.1 := by
    rw [hend, hend'] at hlast
    exact Option.some.inj hlast
  have hsame : List.Forall₂ Eq (front ++ [hop]) (front' ++ [hop']) := by
    refine forall₂_of_tip_eq hlinked hlinked' ?_ (fun u v huv => by rw [huv]) (by rw [htip])
    intro u hu v hv hhash
    rw [← hzip] at hu
    rw [← hzip'] at hv
    -- the hash gives the envelope, and the envelope its receipt, whatever key opens it
    have hmem : u.1 ∈ {e | e ∈ es ∨ e ∈ fs} := Or.inl (List.of_mem_zip hu).1
    have hmem' : v.1 ∈ {e | e ∈ es ∨ e ∈ fs} := Or.inr (List.of_mem_zip hv).1
    have henvelope := hbincode hmem hmem' (hblake3 ⟨_, hmem, rfl⟩ ⟨_, hmem', rfl⟩ hhash)
    obtain ⟨k, now, hextract⟩ := hes.extracts_of_mem hu
    obtain ⟨k', now', hextract'⟩ := hfs.extracts_of_mem hv
    rw [← henvelope] at hextract'
    exact Prod.ext henvelope
      (extractReceipt_unique (hcommits u.1 (List.of_mem_zip hu).1) hextract hextract')
  rw [List.forall₂_eq_eq_eq] at hsame
  rw [← hes.fst_zip, ← hfs.fst_zip, hzip, hzip', hsame]

end History

section Sample

theorem sampleEnvelope_commitsOn (ciphertexts : Set Bytes) :
    sampleEnvelope.CommitsOn ciphertexts := by
  intro ciphertext _ key key' nonce nonce' aad aad' text text' h h'
  have htag := (Option.ite_none_right_eq_some.mp h)
  have htag' := (Option.ite_none_right_eq_some.mp h')
  have hkeys := List.append_inj_left (htag.1.symm.trans htag'.1)
    (key.property.trans key'.property.symm)
  exact ⟨Subtype.ext hkeys, Option.some.inj (htag.2.symm.trans htag'.2)⟩

theorem sampleEnvelope_correct_head : sampleEnvelope.Correct headCrates :=
  ⟨sampleEnvelope_correct.commutes, sampleEnvelope_correct.expands,
    sampleEnvelope_correct.encrypts, sampleEnvelope_correct.decrypts⟩

theorem headHash_salt {e e' : Envelope} (h : headHash e.bincode = headHash e'.bincode) :
    e.hkdfSalt.val.take 31 = e'.hkdfSalt.val.take 31 := by
  have hhead : ∀ e : Envelope, (headHash e.bincode).val.tail = e.hkdfSalt.val.take 31 := by
    intro e
    have hsalt := e.hkdfSalt.property
    simp only [headHash, fit, Envelope.bincode, List.cons_append, List.append_assoc,
      List.take_succ_cons, List.tail_cons]
    exact List.take_append_of_le_length (by omega)
  rw [← hhead e, ← hhead e', h]

theorem sampleEnvelope_sized {payload : Bytes} {k b : DeviceKeypair} {draws : SealDraws}
    {e : Envelope} (h : Envelope.seal headCrates sampleEnvelope payload k
      (b.verifyingKey headCrates) draws = .ok e) : e.Sized := by
  obtain ⟨key, noncePrefix, chunks, -, hchunks, rfl⟩ := seal_eq_ok.mp h
  have hlen := hchunks.length_eq
  have hbound := hchunks.bounded
  refine ⟨?_, ?_, fit_length 32 _, fit_length 32 _⟩
  · show chunks.length < 256 ^ 8
    omega
  · intro c hc
    obtain ⟨i, hi⟩ := List.mem_iff_getElem?.mp hc
    obtain ⟨piece, hpiece, -, hmanifest, hdata⟩ := hchunks.piece hi
    have hle := payloadChunks_piece_le (List.mem_of_getElem? hpiece)
    have hkey := key.property
    have hdigest : ∀ digest : Digest, digest.val.length = 32 := fun digest => digest.property
    have hmanifestLen := sealedManifest_length headCrates_signsLawfully k draws.createdAt
      (UInt64.ofNat i) piece
    constructor
    · rw [← Option.some.inj hdata, List.length_append, List.length_append, hkey, hdigest]
      unfold defaultChunkSize at hle
      omega
    · rw [hmanifest, hmanifestLen]
      decide

def historyTransfer (k : UInt8) (time : UInt64) (salt : UInt8) : Transfer where
  beneficiary := sampleKey k
  description := none
  draws := ⟨time, time, ⟨time, ⟨(sampleKey salt).secret, (sampleKey salt).secretLength⟩, fun _ => time⟩⟩

theorem history_sample : ∃ e e', e.Sized ∧ e'.Sized ∧
    e.hkdfSalt.val = List.replicate 32 9 ∧ e'.hkdfSalt.val = List.replicate 32 8 ∧
    ∀ clock : Nat → UInt64, 1700000000 ≤ clock 0 + 300 → 1700000100 ≤ clock 1 + 300 →
      verifyReceiptChainWithKeys headCrates sampleEnvelope sampleReceiptSerde [e, e']
        [sampleKey 2, sampleKey 3] clock = .ok () := by
  have hx := headCrates_signsLawfully
  have hec := sampleEnvelope_correct_head
  have hserde := sampleReceiptSerde_roundTrips
  have hamount : (1000 : UInt64) ≠ 0 := by decide
  have hready : (historyTransfer 2 1700000000 9).Ready headCrates sampleEnvelope
      sampleReceiptSerde (sampleKey 1) :=
    ⟨by decide, by decide, fun _ => sampleReceiptSerde_fits⟩
  have hready' : (historyTransfer 3 1700000100 8).Ready headCrates sampleEnvelope
      sampleReceiptSerde (sampleKey 2) :=
    ⟨by decide, by decide, fun _ => sampleReceiptSerde_fits⟩
  obtain ⟨e, r, hcreate, hholds, hr⟩ := createReceipt_succeeds hx hec hserde hamount hready
  obtain ⟨e', -, hassign, -, -⟩ := assignReceipt_succeeds hx hec hserde hholds hr hready'
  have hseal := (createReceipt_eq_ok.mp hcreate).2
  obtain ⟨-, -, _, _, -, -, -, hseal'⟩ := assignReceipt_eq_ok.mp hassign
  refine ⟨e, e', sampleEnvelope_sized hseal, sampleEnvelope_sized hseal', ?_, ?_, ?_⟩
  · obtain ⟨_, _, _, -, -, rfl⟩ := seal_eq_ok.mp hseal
    rfl
  · obtain ⟨_, _, _, -, -, rfl⟩ := seal_eq_ok.mp hseal'
    rfl
  · intro clock hfirst hsecond
    have howned := createReceipt_owned hx hec hserde hcreate hfirst
    obtain ⟨_, hnext, -⟩ := howned.assign hx hec hserde rfl rfl hassign hsecond
    exact verifyReceiptChainWithKeys_eq_ok.mpr ⟨_, hnext⟩

theorem last_envelope_determines_chain_sample : ∃ es fs : List Envelope,
    es.length = 2 ∧ es.getLast? = fs.getLast? ∧
    verifyReceiptChainWithKeys headCrates sampleEnvelope sampleReceiptSerde es
      [sampleKey 2, sampleKey 3] (fun _ => 1700000200) = .ok () ∧
    verifyReceiptChainWithKeys headCrates sampleEnvelope sampleReceiptSerde fs
      [sampleKey 2, sampleKey 3] (fun i => 1800000000 + UInt64.ofNat i) = .ok () ∧
    es = fs := by
  obtain ⟨e, e', hsized, hsized', hsalt, hsalt', haccepted⟩ := history_sample
  have hes := haccepted (fun _ => 1700000200) (by decide) (by decide)
  have hfs := haccepted (fun i => 1800000000 + UInt64.ofNat i) (by decide) (by decide)
  have hmem : ∀ f, f ∈ [e, e'] ∨ f ∈ [e, e'] → f = e ∨ f = e' := by
    intro f hf
    simpa using hf
  have hbincode : Set.InjOn Envelope.bincode {f | f ∈ [e, e'] ∨ f ∈ [e, e']} := by
    refine bincode_injOn.mono ?_
    intro f hf
    rcases hmem f hf with rfl | rfl
    · exact hsized
    · exact hsized'
  have hblake3 : Set.InjOn headCrates.blake3
      (Envelope.bincode '' {f | f ∈ [e, e'] ∨ f ∈ [e, e']}) := by
    intro a ha b hb hab
    obtain ⟨f, hf, rfl⟩ := ha
    obtain ⟨g, hg, rfl⟩ := hb
    have hsalts := headHash_salt hab
    rcases hmem f hf with rfl | rfl <;> rcases hmem g hg with rfl | rfl
    · rfl
    · rw [hsalt, hsalt'] at hsalts
      exact absurd hsalts (by decide)
    · rw [hsalt, hsalt'] at hsalts
      exact absurd hsalts (by decide)
    · rfl
  exact ⟨[e, e'], [e, e'], rfl, rfl, hes, hfs, last_envelope_determines_chain
    (fun _ _ => sampleEnvelope_commitsOn _) hbincode hblake3 hes hfs rfl⟩

end Sample

end Sealedge
