import Sealedge.EnvelopeRoundTrip
import Sealedge.ReceiptText

namespace Sealedge

open Fallible

/-- A hand-over of a receipt to a key. -/
structure Transfer where
  beneficiary : DeviceKeypair
  description : Option String
  draws : ReceiptDraws

section Chain

variable (x : Crates) (ec : EnvelopeCrates) (serde : ReceiptSerde)

/-- `assign_receipt` again and again, each time by the last beneficiary. -/
def assignAll : Envelope → DeviceKeypair → List Transfer → Except String (List Envelope)
  | _, _, [] => .ok []
  | last, k, t :: rest => do
    let e ← assignReceipt x ec serde last k (t.beneficiary.verifyingKey x) t.description t.draws
    let es ← assignAll e t.beneficiary rest
    pure (e :: es)

/-- `create_receipt` for the first beneficiary, and the assignments after it. -/
def issueChain (amount : UInt64) (origin : DeviceKeypair) (first : Transfer)
    (rest : List Transfer) : Except String (List Envelope) := do
  let e ← createReceipt x ec serde origin (first.beneficiary.verifyingKey x) amount
    first.description first.draws
  let es ← assignAll x ec serde e first.beneficiary rest
  pure (e :: es)

end Chain

section Closed

variable {x : Crates} {ec : EnvelopeCrates} {serde : ReceiptSerde}

theorem OwnershipReceipt.Valid.at_time {r : OwnershipReceipt} {now later : UInt64}
    (h : r.Valid x now) (htime : r.createdAt ≤ later + 300) : r.Valid x later :=
  ⟨h.amount, h.issuer, h.beneficiary, htime⟩

theorem seal_parties {payload beneficiaryKey : Bytes} {k : DeviceKeypair} {draws : SealDraws}
    {e : Envelope} (h : Envelope.seal x ec payload k beneficiaryKey draws = .ok e) :
    e.verifyingKeyBytes = k.verifyingKey x ∧ e.beneficiaryKeyBytes = beneficiaryKey := by
  obtain ⟨key, noncePrefix, chunks, -, -, rfl⟩ := seal_eq_ok.mp h
  exact ⟨rfl, rfl⟩

variable (x ec serde) in
/-- The envelope holds the receipt for the key, under the keys that the receipt names. -/
structure Holds (e : Envelope) (b : DeviceKeypair) (r : OwnershipReceipt) : Prop where
  unseals : e.unseal x ec b = .ok (serde.toVec r)
  parses : serde.fromSlice (serde.toVec r) = some r
  bound : Bound x e r
  beneficiary : e.beneficiaryKeyBytes = b.verifyingKey x

theorem holds_of_seal (hx : x.SignsLawfully) (hec : ec.Correct x) (hserde : serde.RoundTrips)
    {r : OwnershipReceipt} {k b : DeviceKeypair} {draws : SealDraws} {e : Envelope}
    (hissuer : r.issuer = k.verifyingKey x) (hbeneficiary : r.beneficiary = b.verifyingKey x)
    (hseal : Envelope.seal x ec (serde.toVec r) k (b.verifyingKey x) draws = .ok e) :
    Holds x ec serde e b r := by
  obtain ⟨hvk, hbk⟩ := seal_parties hseal
  refine ⟨unseal_sealed hx hec hseal (.refl _), ?_, ⟨?_, ?_, ?_, ?_⟩, hbk⟩
  · apply hserde
    · rw [hissuer]
      exact hx.publicLength k.secret
    · rw [hbeneficiary]
      exact hx.publicLength b.secret
  · rw [hvk]
    exact hx.publicKey k.secret
  · rw [hissuer, hvk]
  · rw [hbk]
    exact hx.publicKey b.secret
  · rw [hbeneficiary, hbk]

theorem Holds.extracts {e : Envelope} {b : DeviceKeypair} {r : OwnershipReceipt} {now : UInt64}
    (h : Holds x ec serde e b r) (hvalid : r.Valid x now) :
    extractReceipt x ec serde e b now = .ok r :=
  extractReceipt_eq_ok.mpr ⟨_, h.unseals, h.parses, hvalid⟩

theorem createReceipt_owned (hx : x.SignsLawfully) (hec : ec.Correct x)
    (hserde : serde.RoundTrips) {amount : UInt64} {origin b : DeviceKeypair}
    {description : Option String} {draws : ReceiptDraws} {e : Envelope}
    (h : createReceipt x ec serde origin (b.verifyingKey x) amount description draws = .ok e)
    {clock : Nat → UInt64} (hclock : draws.createdAt ≤ clock 0 + 300) :
    OwnedChain x ec serde [e] [b] clock [OwnershipReceipt.newOrigin x origin (b.verifyingKey x)
      amount description draws.createdAt] := by
  obtain ⟨hvalid, hseal⟩ := createReceipt_eq_ok.mp h
  have hholds := holds_of_seal hx hec hserde rfl rfl hseal
  refine ⟨by simp, rfl, rfl, ?_, ?_, .singleton _, ?_⟩
  · intro i e' k he hk
    cases i with
    | zero =>
      cases he
      cases hk
      exact ⟨_, rfl, hholds.extracts (hvalid.at_time hclock)⟩
    | succ i => cases he
  · intro r hr
    cases hr
    rfl
  · intro hop hmem
    rw [List.zip_cons_cons, List.zip_nil_left, List.mem_singleton] at hmem
    rw [hmem]
    exact hholds.bound

theorem OwnedChain.last {es : List Envelope} {ks : List DeviceKeypair} {clock : Nat → UInt64}
    {rs : List OwnershipReceipt} (h : OwnedChain x ec serde es ks clock rs) {last : Envelope}
    (hlast : es.getLast? = some last) {k : DeviceKeypair} (hk : ks.getLast? = some k) :
    ∃ r ∈ rs, ∃ now, extractReceipt x ec serde last k now = .ok r ∧
      (es.zip rs).getLast? = some (last, r) ∧ Bound x last r := by
  have hlen := h.receipts_length
  have hkeys := h.keys_length
  rw [List.getLast?_eq_getElem?] at hlast hk
  rw [hkeys] at hk
  obtain ⟨r, hr, hextract⟩ := h.extracts _ _ _ hlast hk
  have hzip : (es.zip rs).getLast? = some (last, r) := by
    rw [List.getLast?_eq_getElem?, List.length_zip, hlen, Nat.min_self,
      List.getElem?_zip_eq_some]
    exact ⟨hlast, hr⟩
  exact ⟨r, List.mem_of_getElem? hr, _, hextract, hzip,
    h.bound _ (List.mem_of_getLast? hzip)⟩

theorem OwnedChain.snoc {es : List Envelope} {ks : List DeviceKeypair} {clock : Nat → UInt64}
    {rs : List OwnershipReceipt} (h : OwnedChain x ec serde es ks clock rs) {e : Envelope}
    {b : DeviceKeypair} {r : OwnershipReceipt}
    (hextract : extractReceipt x ec serde e b (clock es.length) = .ok r) (hbound : Bound x e r)
    (hlink : ∀ hop, (es.zip rs).getLast? = some hop → FollowsOn x hop (e, r)) :
    OwnedChain x ec serde (es ++ [e]) (ks ++ [b]) clock (rs ++ [r]) := by
  have hlen := h.receipts_length
  have hkeys := h.keys_length
  have hzip : (es ++ [e]).zip (rs ++ [r]) = es.zip rs ++ [(e, r)] := by
    rw [List.zip_append hlen.symm]
    rfl
  refine ⟨by simp, by simp [hkeys], by simp [hlen], ?_, ?_, ?_, ?_⟩
  · intro i e' k he hk
    by_cases hi : i < es.length
    · rw [List.getElem?_append_left hi] at he
      rw [List.getElem?_append_left (by omega)] at hk
      rw [List.getElem?_append_left (by omega)]
      exact h.extracts i e' k he hk
    · have hi' := (List.getElem?_eq_some_iff.mp he).1
      have hn : i = es.length := by
        simp only [List.length_append, List.length_singleton] at hi'
        omega
      subst hn
      rw [List.getElem?_concat_length] at he
      rw [← hkeys, List.getElem?_concat_length] at hk
      cases he
      cases hk
      refine ⟨r, ?_, hextract⟩
      rw [← hlen, List.getElem?_concat_length]
  · intro first hfirst
    have hne : rs ≠ [] := by
      intro hnil
      rw [hnil] at hlen
      exact h.nonempty (List.length_eq_zero_iff.mp hlen.symm)
    rw [List.head?_append_of_ne_nil _ hne] at hfirst
    exact h.origin first hfirst
  · rw [hzip, List.isChain_append]
    refine ⟨h.linked, .singleton _, ?_⟩
    intro hop hhop next hnext
    cases hnext
    exact hlink hop hhop
  · rw [hzip]
    intro hop hhop
    rcases List.mem_append.mp hhop with hhop | hhop
    · exact h.bound hop hhop
    · rw [List.mem_singleton] at hhop
      rw [hhop]
      exact hbound

theorem OwnedChain.assign (hx : x.SignsLawfully) (hec : ec.Correct x) (hserde : serde.RoundTrips)
    {es : List Envelope} {ks : List DeviceKeypair} {clock : Nat → UInt64}
    {rs : List OwnershipReceipt} (h : OwnedChain x ec serde es ks clock rs) {last e : Envelope}
    (hlast : es.getLast? = some last) {k b : DeviceKeypair} (hk : ks.getLast? = some k)
    {description : Option String} {draws : ReceiptDraws}
    (hassign : assignReceipt x ec serde last k (b.verifyingKey x) description draws = .ok e)
    (hclock : draws.createdAt ≤ clock es.length + 300) :
    ∃ r, OwnedChain x ec serde (es ++ [e]) (ks ++ [b]) clock (rs ++ [r]) ∧
      ∃ previous ∈ rs, r.amount = previous.amount := by
  obtain ⟨-, hsame, payload, receipt, hunseal, hparse, hvalid, hseal⟩ :=
    assignReceipt_eq_ok.mp hassign
  obtain ⟨previous, hmem, now, hextract, hend, hbound⟩ := h.last hlast hk
  -- the assigner reads the receipt that the check reads
  obtain ⟨payload', hunseal', hparse', -⟩ := extractReceipt_eq_ok.mp hextract
  have hpayload : payload' = payload := Except.ok.inj (hunseal'.symm.trans hunseal)
  rw [hpayload] at hparse'
  have hreceipt : receipt = previous := Option.some.inj (hparse.symm.trans hparse')
  rw [hreceipt] at hvalid hseal
  have hholds := holds_of_seal hx hec hserde rfl rfl hseal
  refine ⟨_, h.snoc (hholds.extracts (hvalid.at_time hclock)) hholds.bound ?_, previous, hmem, rfl⟩
  intro hop hhop
  rw [hend] at hhop
  cases hhop
  refine ⟨rfl, ?_, rfl⟩
  rw [hbound.beneficiary, hsame]
  rfl

theorem assignAll_eq_ok_cons {last : Envelope} {k : DeviceKeypair} {t : Transfer}
    {rest : List Transfer} {es : List Envelope} :
    assignAll x ec serde last k (t :: rest) = .ok es ↔ ∃ e new,
      assignReceipt x ec serde last k (t.beneficiary.verifyingKey x) t.description t.draws = .ok e ∧
      assignAll x ec serde e t.beneficiary rest = .ok new ∧ es = e :: new := by
  rw [assignAll]
  simp only [bind_eq_ok]
  constructor
  · rintro ⟨e, hassign, new, hnew, h⟩
    exact ⟨e, new, hassign, hnew, (Except.ok.inj h).symm⟩
  · rintro ⟨e, new, hassign, hnew, rfl⟩
    exact ⟨e, hassign, new, hnew, rfl⟩

theorem issueChain_eq_ok {amount : UInt64} {origin : DeviceKeypair} {first : Transfer}
    {rest : List Transfer} {es : List Envelope} :
    issueChain x ec serde amount origin first rest = .ok es ↔ ∃ e new,
      createReceipt x ec serde origin (first.beneficiary.verifyingKey x) amount first.description
        first.draws = .ok e ∧
      assignAll x ec serde e first.beneficiary rest = .ok new ∧ es = e :: new := by
  rw [issueChain]
  simp only [bind_eq_ok]
  constructor
  · rintro ⟨e, hcreate, new, hnew, h⟩
    exact ⟨e, new, hcreate, hnew, (Except.ok.inj h).symm⟩
  · rintro ⟨e, new, hcreate, hnew, rfl⟩
    exact ⟨e, hcreate, new, hnew, rfl⟩

/-- By induction on the assignments, each of which makes the chain longer by one. -/
theorem OwnedChain.assignAll (hx : x.SignsLawfully) (hec : ec.Correct x)
    (hserde : serde.RoundTrips) {amount : UInt64} {clock : Nat → UInt64} {ts : List Transfer}
    {es new : List Envelope} {ks : List DeviceKeypair} {rs : List OwnershipReceipt}
    (h : OwnedChain x ec serde es ks clock rs) (hamount : ∀ r ∈ rs, r.amount = amount)
    {last : Envelope} (hlast : es.getLast? = some last) {k : DeviceKeypair}
    (hk : ks.getLast? = some k) (hassign : assignAll x ec serde last k ts = .ok new)
    (hclock : ∀ i t, ts[i]? = some t → t.draws.createdAt ≤ clock (es.length + i) + 300) :
    ∃ receipts, OwnedChain x ec serde (es ++ new) (ks ++ ts.map Transfer.beneficiary) clock
      receipts ∧ ∀ r ∈ receipts, r.amount = amount := by
  induction ts generalizing es ks rs last k new with
  | nil =>
    cases hassign
    refine ⟨rs, ?_, hamount⟩
    rw [List.append_nil, List.map_nil, List.append_nil]
    exact h
  | cons t rest ih =>
    obtain ⟨e, new, hfirst, hrest, rfl⟩ := assignAll_eq_ok_cons.mp hassign
    obtain ⟨r, hnext, previous, hmem, hsame⟩ := h.assign hx hec hserde hlast hk hfirst
      (hclock 0 t rfl)
    have hamounts : ∀ r' ∈ rs ++ [r], r'.amount = amount := by
      intro r' hr'
      rcases List.mem_append.mp hr' with hr' | hr'
      · exact hamount r' hr'
      · rw [List.mem_singleton] at hr'
        rw [hr', hsame, hamount previous hmem]
    have hlater : ∀ i t', rest[i]? = some t' →
        t'.draws.createdAt ≤ clock ((es ++ [e]).length + i) + 300 := by
      intro i t' ht'
      have htime := hclock (i + 1) t' ht'
      rwa [List.length_append, List.length_singleton, Nat.add_assoc, Nat.add_comm 1 i]
    obtain ⟨receipts, howned, hall⟩ := ih hnext hamounts List.getLast?_concat
      List.getLast?_concat hrest hlater
    refine ⟨receipts, ?_, hall⟩
    rw [List.append_assoc, List.append_assoc] at howned
    exact howned

theorem issueChain_owned (hx : x.SignsLawfully) (hec : ec.Correct x) (hserde : serde.RoundTrips)
    {amount : UInt64} {origin : DeviceKeypair} {first : Transfer} {rest : List Transfer}
    {es : List Envelope} (h : issueChain x ec serde amount origin first rest = .ok es)
    {clock : Nat → UInt64}
    (hclock : ∀ i t, (first :: rest)[i]? = some t → t.draws.createdAt ≤ clock i + 300) :
    ∃ receipts,
      OwnedChain x ec serde es ((first :: rest).map Transfer.beneficiary) clock receipts ∧
      ∀ r ∈ receipts, r.amount = amount := by
  obtain ⟨e, new, hcreate, hnew, rfl⟩ := issueChain_eq_ok.mp h
  have howned := createReceipt_owned hx hec hserde hcreate (hclock 0 first rfl)
  refine howned.assignAll hx hec hserde ?_ rfl rfl hnew ?_
  · intro r hr
    rw [List.mem_singleton] at hr
    rw [hr]
    rfl
  · intro i t ht
    have htime := hclock (i + 1) t ht
    rwa [List.length_singleton, Nat.add_comm 1 i]

theorem signatureLinks_iff {es : List Envelope} : signatureLinks x es = true ↔
    es.IsChain (fun previous current => ∃ key, current.issuer x = .ok key ∧
      previous.beneficiary x = .ok key) := by
  induction es with
  | nil => simp [signatureLinks]
  | cons e rest ih =>
    cases rest with
    | nil => simp [signatureLinks]
    | cons next rest =>
      rw [signatureLinks, Bool.and_eq_true, ih, List.isChain_cons_cons]
      refine and_congr_left ?_
      intro _
      constructor
      · intro h
        split at h
        next issuer beneficiary hissuer hbeneficiary =>
          rw [beq_iff_eq] at h
          exact ⟨issuer, hissuer, h ▸ hbeneficiary⟩
        next => cases h
      · rintro ⟨key, hissuer, hbeneficiary⟩
        rw [hissuer, hbeneficiary]
        exact beq_self_eq_true key

theorem OwnedChain.fst_zip {es : List Envelope} {ks : List DeviceKeypair} {clock : Nat → UInt64}
    {rs : List OwnershipReceipt} (h : OwnedChain x ec serde es ks clock rs) :
    (es.zip rs).map Prod.fst = es :=
  List.map_fst_zip (Nat.le_of_eq h.receipts_length.symm)

theorem OwnedChain.extracts_of_mem {es : List Envelope} {ks : List DeviceKeypair}
    {clock : Nat → UInt64} {rs : List OwnershipReceipt}
    (h : OwnedChain x ec serde es ks clock rs) {hop : Envelope × OwnershipReceipt}
    (hhop : hop ∈ es.zip rs) : ∃ k now, extractReceipt x ec serde hop.1 k now = .ok hop.2 := by
  have hkeys := h.keys_length
  obtain ⟨i, hi⟩ := List.mem_iff_getElem?.mp hhop
  obtain ⟨he, hr⟩ := List.getElem?_zip_eq_some.mp hi
  have hlt := (List.getElem?_eq_some_iff.mp he).1
  obtain ⟨r, hr', hextract⟩ := h.extracts i hop.1 _ he (List.getElem?_eq_getElem (by omega))
  rw [hr] at hr'
  cases hr'
  exact ⟨_, _, hextract⟩

theorem OwnedChain.verifySignatureChain {es : List Envelope} {ks : List DeviceKeypair}
    {clock : Nat → UInt64} {rs : List OwnershipReceipt}
    (h : OwnedChain x ec serde es ks clock rs) : verifySignatureChain x es = true := by
  have hlinks : signatureLinks x es = true := by
    rw [signatureLinks_iff, ← h.fst_zip, List.isChain_map]
    refine h.linked.imp_of_mem_imp ?_
    intro hop next hhop hnext hlinked
    have hbound := h.bound hop hhop
    have hbound' := h.bound next hnext
    refine ⟨next.1.verifyingKeyBytes, issuer_eq_ok.mpr ⟨hbound'.issuerKey, rfl⟩,
      beneficiary_eq_ok.mpr ⟨hbound.beneficiaryKey, ?_⟩⟩
    rw [← hbound'.issuer, hlinked.issuer, hbound.beneficiary]
  have hverify : es.all (·.verify x) = true := by
    rw [List.all_eq_true]
    intro e he
    rw [← h.fst_zip] at he
    obtain ⟨hop, hhop, rfl⟩ := List.mem_map.mp he
    obtain ⟨_, _, hextract⟩ := h.extracts_of_mem hhop
    obtain ⟨payload, hunseal, -⟩ := extractReceipt_eq_ok.mp hextract
    exact (unseal_eq_ok.mp hunseal).1
  have hne : es.isEmpty = false := by
    rw [List.isEmpty_eq_false_iff]
    exact h.nonempty
  rw [Sealedge.verifySignatureChain, hne, hverify, hlinks]
  rfl

theorem OwnedChain.at_clock {es : List Envelope} {ks : List DeviceKeypair}
    {clock later : Nat → UInt64} {rs : List OwnershipReceipt}
    (h : OwnedChain x ec serde es ks clock rs)
    (hlater : ∀ i r, rs[i]? = some r → r.createdAt ≤ later i + 300) :
    OwnedChain x ec serde es ks later rs := by
  refine ⟨h.nonempty, h.keys_length, h.receipts_length, ?_, h.origin, h.linked, h.bound⟩
  intro i e k he hk
  obtain ⟨r, hr, hextract⟩ := h.extracts i e k he hk
  obtain ⟨payload, hunseal, hparse, hvalid⟩ := extractReceipt_eq_ok.mp hextract
  exact ⟨r, hr, extractReceipt_eq_ok.mpr ⟨payload, hunseal, hparse,
    hvalid.at_time (hlater i r hr)⟩⟩

variable (x ec serde) in
/-- What a hand-over needs to go through: the two keys agree on a secret, the clock does not go
back by more than the tolerance within the call, and the receipt fits an envelope. -/
structure Transfer.Ready (t : Transfer) (k : DeviceKeypair) : Prop where
  shared : (ec.x25519 k (t.beneficiary.verifyingKey x)).val.all (· == 0) = false
  clock : t.draws.createdAt ≤ t.draws.checkedAt + 300
  fits : ∀ r : OwnershipReceipt, r.issuer.length = 32 → r.beneficiary.length = 32 →
    r.description = t.description → (serde.toVec r).length ≤ 2 ^ 24 * defaultChunkSize

variable (x ec serde) in
/-- Every hand-over is ready, each by the beneficiary of the one before it. -/
def AllReady : DeviceKeypair → List Transfer → Prop
  | _, [] => True
  | k, t :: rest => t.Ready x ec serde k ∧ AllReady t.beneficiary rest

theorem createReceipt_succeeds (hx : x.SignsLawfully) (hec : ec.Correct x)
    (hserde : serde.RoundTrips) {amount : UInt64} (hamount : amount ≠ 0) {origin : DeviceKeypair}
    {t : Transfer} (ht : t.Ready x ec serde origin) : ∃ e r,
      createReceipt x ec serde origin (t.beneficiary.verifyingKey x) amount t.description t.draws =
        .ok e ∧ Holds x ec serde e t.beneficiary r ∧ r.amount ≠ 0 := by
  obtain ⟨e, hseal⟩ := seal_succeeds hec ht.shared (ht.fits (OwnershipReceipt.newOrigin x origin
    (t.beneficiary.verifyingKey x) amount t.description t.draws.createdAt)
    (hx.publicLength origin.secret) (hx.publicLength t.beneficiary.secret) rfl) t.draws.sealing
  refine ⟨e, _, createReceipt_eq_ok.mpr ⟨?_, hseal⟩, holds_of_seal hx hec hserde rfl rfl hseal,
    hamount⟩
  exact ⟨hamount, hx.publicKey origin.secret, hx.publicKey t.beneficiary.secret, ht.clock⟩

theorem assignReceipt_succeeds (hx : x.SignsLawfully) (hec : ec.Correct x)
    (hserde : serde.RoundTrips) {last : Envelope} {k : DeviceKeypair} {r : OwnershipReceipt}
    (hholds : Holds x ec serde last k r) (hamount : r.amount ≠ 0) {t : Transfer}
    (ht : t.Ready x ec serde k) : ∃ e next,
      assignReceipt x ec serde last k (t.beneficiary.verifyingKey x) t.description t.draws =
        .ok e ∧ Holds x ec serde e t.beneficiary next ∧ next.amount ≠ 0 := by
  obtain ⟨e, hseal⟩ := seal_succeeds hec ht.shared (ht.fits (OwnershipReceipt.newAssignment x k
    (t.beneficiary.verifyingKey x) r.amount (last.hash x) t.description t.draws.createdAt)
    (hx.publicLength k.secret) (hx.publicLength t.beneficiary.secret) rfl) t.draws.sealing
  refine ⟨e, _, assignReceipt_eq_ok.mpr ⟨hholds.bound.beneficiaryKey, hholds.beneficiary, _, r,
    hholds.unseals, hholds.parses, ?_, hseal⟩, holds_of_seal hx hec hserde rfl rfl hseal, hamount⟩
  exact ⟨hamount, hx.publicKey k.secret, hx.publicKey t.beneficiary.secret, ht.clock⟩

theorem assignAll_succeeds (hx : x.SignsLawfully) (hec : ec.Correct x)
    (hserde : serde.RoundTrips) {ts : List Transfer} {last : Envelope} {k : DeviceKeypair}
    {r : OwnershipReceipt} (hholds : Holds x ec serde last k r) (hamount : r.amount ≠ 0)
    (hready : AllReady x ec serde k ts) :
    ∃ es, assignAll x ec serde last k ts = .ok es := by
  induction ts generalizing last k r with
  | nil => exact ⟨[], rfl⟩
  | cons t rest ih =>
    obtain ⟨e, next, hassign, hnext, hamount'⟩ :=
      assignReceipt_succeeds hx hec hserde hholds hamount hready.1
    obtain ⟨es, hes⟩ := ih hnext hamount' hready.2
    exact ⟨e :: es, assignAll_eq_ok_cons.mpr ⟨e, es, hassign, hes, rfl⟩⟩

/-- Chains are closed under assignment: what `create_receipt` and `assign_receipt` make is
accepted by both checks with the original amount in every receipt, it can be made for all keys
that agree on secrets, and an assignment extends every accepted chain. -/
theorem receipt_chain_closed (hx : x.SignsLawfully) (hec : ec.Correct x)
    (hserde : serde.RoundTrips) :
    (∀ amount origin first rest es clock,
      issueChain x ec serde amount origin first rest = .ok es →
      (∀ i t, (first :: rest)[i]? = some t → t.draws.createdAt ≤ clock i + 300) →
      verifyReceiptChainWithKeys x ec serde es ((first :: rest).map Transfer.beneficiary) clock =
        .ok () ∧
      (∀ i e t r, es[i]? = some e → (first :: rest)[i]? = some t →
        extractReceipt x ec serde e t.beneficiary (clock i) = .ok r → r.amount = amount) ∧
      verifySignatureChain x es = true) ∧
    (∀ amount origin first rest, amount ≠ 0 → AllReady x ec serde origin (first :: rest) →
      ∃ es, issueChain x ec serde amount origin first rest = .ok es) ∧
    (∀ es ks clock later last k b description draws e,
      verifyReceiptChainWithKeys x ec serde es ks clock = .ok () →
      es.getLast? = some last → ks.getLast? = some k →
      assignReceipt x ec serde last k (b.verifyingKey x) description draws = .ok e →
      (∀ i e' k' r, es[i]? = some e' → ks[i]? = some k' →
        extractReceipt x ec serde e' k' (clock i) = .ok r → r.createdAt ≤ later i + 300) →
      draws.createdAt ≤ later es.length + 300 →
      verifyReceiptChainWithKeys x ec serde (es ++ [e]) (ks ++ [b]) later = .ok ()) := by
  refine ⟨?_, ?_, ?_⟩
  · intro amount origin first rest es clock hissue hclock
    obtain ⟨receipts, howned, hamounts⟩ := issueChain_owned hx hec hserde hissue hclock
    refine ⟨verifyReceiptChainWithKeys_eq_ok.mpr ⟨receipts, howned⟩, ?_,
      howned.verifySignatureChain⟩
    intro i e t r he ht hextract
    obtain ⟨r', hr', hextract'⟩ := howned.extracts i e t.beneficiary he
      (by rw [List.getElem?_map, ht]; rfl)
    rw [hextract] at hextract'
    cases hextract'
    exact hamounts r (List.mem_of_getElem? hr')
  · intro amount origin first rest hamount hready
    obtain ⟨e, r, hcreate, hholds, hr⟩ := createReceipt_succeeds hx hec hserde hamount hready.1
    obtain ⟨es, hes⟩ := assignAll_succeeds hx hec hserde hholds hr hready.2
    exact ⟨e :: es, issueChain_eq_ok.mpr ⟨e, es, hcreate, hes, rfl⟩⟩
  · intro es ks clock later last k b description draws e hverify hlast hk hassign hlater hnew
    obtain ⟨receipts, howned⟩ := verifyReceiptChainWithKeys_eq_ok.mp hverify
    have hkeys := howned.keys_length
    have hreceipts := howned.receipts_length
    have hlater' : OwnedChain x ec serde es ks later receipts := by
      refine howned.at_clock ?_
      intro i r hr
      have hi := (List.getElem?_eq_some_iff.mp hr).1
      have he := List.getElem?_eq_getElem (l := es) (i := i) (by omega)
      have hk' := List.getElem?_eq_getElem (l := ks) (i := i) (by omega)
      obtain ⟨r', hr', hextract⟩ := howned.extracts i _ _ he hk'
      rw [hr] at hr'
      cases hr'
      exact hlater i _ _ r he hk' hextract
    obtain ⟨r, hnext, -⟩ := hlater'.assign hx hec hserde hlast hk hassign hnew
    exact verifyReceiptChainWithKeys_eq_ok.mpr ⟨_, hnext⟩

end Closed

section Sample

def sampleTransfer (k : UInt8) (time : UInt64) : Transfer where
  beneficiary := sampleKey k
  description := none
  draws := ⟨time, time, sampleSealDraws⟩

theorem sampleReceiptSerde_fits {r : OwnershipReceipt} (hissuer : r.issuer.length = 32)
    (hbeneficiary : r.beneficiary.length = 32) (hdescription : r.description = none) :
    (sampleReceiptSerde.toVec r).length ≤ 2 ^ 24 * defaultChunkSize := by
  have hbytes := intoBytes_length_le (receiptText r)
  have hshort := receiptText_short hissuer hbeneficiary hdescription
  show (intoBytes (receiptText r)).length ≤ 2 ^ 24 * defaultChunkSize
  unfold defaultChunkSize
  omega

theorem sampleTransfer_ready {giver k : UInt8} (time : UInt64)
    (hshared : (sampleEnvelope.x25519 (sampleKey giver)
      ((sampleKey k).verifyingKey sampleCrates)).val.all (· == 0) = false)
    (htime : time ≤ time + 300) :
    (sampleTransfer k time).Ready sampleCrates sampleEnvelope sampleReceiptSerde
      (sampleKey giver) :=
  ⟨hshared, htime, fun _ => sampleReceiptSerde_fits⟩

theorem receipt_chain_closed_sample : ∃ es,
    issueChain sampleCrates sampleEnvelope sampleReceiptSerde 1000 (sampleKey 1)
      (sampleTransfer 2 1700000000) [sampleTransfer 3 1700000100] = .ok es ∧
    verifyReceiptChainWithKeys sampleCrates sampleEnvelope sampleReceiptSerde es
      [sampleKey 2, sampleKey 3] (fun _ => 1700000200) = .ok () ∧
    verifySignatureChain sampleCrates es = true := by
  have hclosed := receipt_chain_closed sampleCrates_signsLawfully sampleEnvelope_correct
    sampleReceiptSerde_roundTrips
  obtain ⟨es, hes⟩ := hclosed.2.1 1000 (sampleKey 1) (sampleTransfer 2 1700000000)
    [sampleTransfer 3 1700000100] (by decide)
    ⟨sampleTransfer_ready _ (by decide) (by decide), sampleTransfer_ready _ (by decide) (by decide),
      trivial⟩
  have haccepted := hclosed.1 1000 (sampleKey 1) (sampleTransfer 2 1700000000)
    [sampleTransfer 3 1700000100] es (fun _ => 1700000200) hes (by
      intro i t ht
      match i with
      | 0 => cases ht; decide
      | 1 => cases ht; decide
      | _ + 2 => cases ht)
  exact ⟨es, hes, haccepted.1, haccepted.2.2⟩

end Sample

end Sealedge
