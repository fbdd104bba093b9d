import Sealedge.Receipts
import Sealedge.SerdeText

namespace Sealedge

open Delimited

def byteText (b : UInt8) : String :=
  b.toNat.repr

def hashText : Option Digest → String
  | none => "null"
  | some digest => "[" ++ (sepBy byteText digest.val ++ "]")

def descriptionText : Option String → String
  | none => "null"
  | some s => JsonString.quote s

/-- The JSON text of a receipt. -/
def receiptText (r : OwnershipReceipt) : String :=
  "\x7b\"issuer\":[" ++ (sepBy byteText r.issuer ++
  ("],\"beneficiary\":[" ++ (sepBy byteText r.beneficiary ++
  ("],\"amount\":" ++ (r.amount.toNat.repr ++
  (",\"prev_envelope_hash\":" ++ (hashText r.prevEnvelopeHash ++
  (",\"description\":" ++ (descriptionText r.description ++
  (",\"created_at\":" ++ (r.createdAt.toNat.repr ++ "\x7d")))))))))))

theorem bytes_step {a b : Bytes} {s t : String} (hs : HeadIs (· = ']') s)
    (ht : HeadIs (· = ']') t) (h : sepBy byteText a ++ s = sepBy byteText b ++ t) :
    a = b ∧ s = t := by
  have hbare : ∀ b, Bare (fun c => c = ',' ∨ c = ']') (byteText b) := by
    intro b c hc hstop
    have hd := Numerals.repr_isDigit hc
    rcases hstop with rfl | rfl
    · exact absurd hd (by decide)
    · exact absurd hd (by decide)
  have hopens : ∀ b, HeadIs (· ≠ ']') (byteText b) := by
    intro b
    cases hb : (byteText b).toList with
    | nil => exact absurd (Nat.toList_repr ▸ hb) Nat.toDigits_ne_nil
    | cons c rest =>
      refine ⟨c, rest, hb, ?_⟩
      rintro rfl
      exact absurd (Numerals.repr_isDigit (hb ▸ List.mem_cons_self)) (by decide)
  obtain ⟨hall, hrest⟩ := sepBy_append_inj (r := Eq) (p := fun c => c = ',' ∨ c = ']') (.inl rfl)
    (.inr rfl) (by decide) (fun u v s' t' hs' ht' he => by
      obtain ⟨huv, hst⟩ := bare_append_inj (hbare u) (hbare v) hs' ht' he
      exact ⟨UInt8.toNat_inj.mp (Numerals.repr_injective huv), hst⟩) hopens hs ht h
  exact ⟨List.forall₂_eq_eq_eq ▸ hall, hrest⟩

theorem hash_step {a b : Option Digest} {s t : String}
    (h : hashText a ++ s = hashText b ++ t) : a = b ∧ s = t := by
  have hclose : ∀ u : String, HeadIs (· = ']') ("]" ++ u) := fun u => ⟨']', u.toList, by simp, rfl⟩
  cases a with
  | none =>
    cases b with
    | none => exact ⟨rfl, skip h⟩
    | some digest =>
      simp only [hashText, String.append_assoc] at h
      exact absurd h (diverge_ne (by decide))
  | some digest =>
    cases b with
    | none =>
      simp only [hashText, String.append_assoc] at h
      exact absurd h.symm (diverge_ne (by decide))
    | some digest' =>
      simp only [hashText, String.append_assoc] at h
      obtain ⟨hdigest, hrest⟩ := bytes_step (hclose _) (hclose _) (skip h)
      rw [Subtype.ext hdigest]
      exact ⟨rfl, skip hrest⟩

theorem description_step {a b : Option String} {s t : String}
    (h : descriptionText a ++ s = descriptionText b ++ t) : a = b ∧ s = t := by
  cases a with
  | none =>
    cases b with
    | none => exact ⟨rfl, skip h⟩
    | some d =>
      simp only [descriptionText, JsonString.quote, String.append_assoc] at h
      exact absurd h (diverge_ne (by decide))
  | some d =>
    cases b with
    | none =>
      simp only [descriptionText, JsonString.quote, String.append_assoc] at h
      exact absurd h.symm (diverge_ne (by decide))
    | some d' =>
      obtain ⟨hd, hrest⟩ := JsonString.quote_append_inj h
      rw [hd]
      exact ⟨rfl, hrest⟩

theorem receiptText_injective : Function.Injective receiptText := by
  intro a b h
  have hclose : ∀ u : String, HeadIs (· = ']') ("]" ++ u) := fun u => ⟨']', u.toList, by simp, rfl⟩
  have hbeneficiary : ∀ u, HeadIs (· = ']') ("],\"beneficiary\":[" ++ u) :=
    fun u => (hclose ",\"beneficiary\":[").append u
  have hamount : ∀ u, HeadIs (· = ']') ("],\"amount\":" ++ u) :=
    fun u => (hclose ",\"amount\":").append u
  have hcomma : HeadIs EndsNumber ",\"prev_envelope_hash\":" := endsNumber_comma rfl
  have hprev : ∀ u, HeadIs EndsNumber (",\"prev_envelope_hash\":" ++ u) := hcomma.append
  unfold receiptText at h
  obtain ⟨h1, h⟩ := bytes_step (hbeneficiary _) (hbeneficiary _) (skip h)
  obtain ⟨h2, h⟩ := bytes_step (hamount _) (hamount _) (skip h)
  obtain ⟨h3, h⟩ := number_step (bare_repr _) (bare_repr _) (hprev _) (hprev _) h
  obtain ⟨h4, h⟩ := hash_step (skip h)
  obtain ⟨h5, h⟩ := description_step (skip h)
  obtain ⟨h6, -⟩ := number_step (bare_repr _) (bare_repr _) (endsNumber_brace "")
    (endsNumber_brace "") h
  have h3 := UInt64.toNat_inj.mp (Numerals.repr_injective h3)
  have h6 := UInt64.toNat_inj.mp (Numerals.repr_injective h6)
  cases a
  cases b
  simp_all

/-- JSON as `serde_json` writes it, read back by its meaning. -/
noncomputable def sampleReceiptSerde : ReceiptSerde where
  toVec r := intoBytes (receiptText r)
  fromSlice bytes := (readBack receiptText bytes).toOption

theorem sampleReceiptSerde_roundTrips : sampleReceiptSerde.RoundTrips := by
  intro r _ _
  have hread := readBack_print receiptText_injective r
  simp only [sampleReceiptSerde, hread]
  rfl

theorem intoBytes_length_le (s : String) : (intoBytes s).length ≤ 4 * s.length := by
  have hchars : ∀ cs : List Char, (cs.flatMap String.utf8EncodeChar).length ≤ 4 * cs.length := by
    intro cs
    induction cs with
    | nil => simp
    | cons c cs ih =>
      have hc := c.utf8Size_le_four
      rw [List.flatMap_cons, List.length_append, String.length_utf8EncodeChar, List.length_cons]
      omega
  rw [intoBytes_eq_flatMap, ← String.length_toList]
  exact hchars s.toList

theorem sepBy_byteText_length (bytes : Bytes) :
    (sepBy byteText bytes).length ≤ 4 * bytes.length := by
  have hbyte : ∀ b : UInt8, (byteText b).length ≤ 3 := by
    intro b
    have hb := b.toNat_lt
    exact (Nat.length_repr_le_iff (by decide)).mpr (by omega)
  have htail : ∀ bytes, (sepTail byteText bytes).length ≤ 4 * bytes.length := by
    intro bytes
    induction bytes with
    | nil => simp [sepTail]
    | cons b rest ih =>
      have hb := hbyte b
      rw [sepTail, String.length_append, String.length_append, List.length_cons]
      have hcomma : (",").length = 1 := rfl
      omega
  cases bytes with
  | nil => simp [sepBy]
  | cons b rest =>
    have hb := hbyte b
    have hrest := htail rest
    rw [sepBy, String.length_append, List.length_cons]
    omega

theorem receiptText_short {r : OwnershipReceipt} (hissuer : r.issuer.length = 32)
    (hbeneficiary : r.beneficiary.length = 32) (hdescription : r.description = none) :
    (receiptText r).length ≤ 2 ^ 20 := by
  have hnumber : ∀ n : UInt64, n.toNat.repr.length ≤ 20 := by
    intro n
    have hn := n.toNat_lt
    exact (Nat.length_repr_le_iff (by decide)).mpr (by omega)
  have hhash : (hashText r.prevEnvelopeHash).length ≤ 130 := by
    cases r.prevEnvelopeHash with
    | none => decide
    | some digest =>
      have hbytes := sepBy_byteText_length digest.val
      have hlen := digest.property
      rw [hashText, String.length_append, String.length_append]
      have hopen : ("[").length = 1 := rfl
      have hclose : ("]").length = 1 := rfl
      omega
  have h1 := sepBy_byteText_length r.issuer
  have h2 := sepBy_byteText_length r.beneficiary
  have h3 := hnumber r.amount
  have h4 := hnumber r.createdAt
  unfold receiptText
  rw [hdescription]
  simp only [String.length_append, descriptionText]
  have hlabels : ("\x7b\"issuer\":[").length + ("],\"beneficiary\":[").length +
      ("],\"amount\":").length + (",\"prev_envelope_hash\":").length +
      (",\"description\":").length + ("null").length + (",\"created_at\":").length +
      ("\x7d").length ≤ 200 := by decide
  omega

end Sealedge
