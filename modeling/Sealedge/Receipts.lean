import Mathlib.Data.List.Chain
import Sealedge.EnvelopeSpec

namespace Sealedge

open Fallible

structure OwnershipReceipt where
  issuer : Bytes
  beneficiary : Bytes
  amount : UInt64
  prevEnvelopeHash : Option Digest
  description : Option String
  createdAt : UInt64
  deriving DecidableEq

/-- `serde_json` on receipts. -/
structure ReceiptSerde where
  toVec : OwnershipReceipt → Bytes
  fromSlice : Bytes → Option OwnershipReceipt

/-- A receipt, whose keys are arrays of 32 bytes, is read back from its JSON text. -/
def ReceiptSerde.RoundTrips (serde : ReceiptSerde) : Prop :=
  ∀ r : OwnershipReceipt, r.issuer.length = 32 → r.beneficiary.length = 32 →
    serde.fromSlice (serde.toVec r) = some r

/-- The clock readings of a call that makes a receipt, and what `seal` draws in it. -/
structure ReceiptDraws where
  createdAt : UInt64
  checkedAt : UInt64
  sealing : SealDraws

section Model

variable (x : Crates) (ec : EnvelopeCrates) (serde : ReceiptSerde)

namespace OwnershipReceipt

def newOrigin (issuerKey : DeviceKeypair) (beneficiaryKey : Bytes) (amount : UInt64)
    (description : Option String) (timestamp : UInt64) : OwnershipReceipt where
  issuer := issuerKey.verifyingKey x
  beneficiary := beneficiaryKey
  amount
  prevEnvelopeHash := none
  description
  createdAt := timestamp

def newAssignment (issuerKey : DeviceKeypair) (beneficiaryKey : Bytes) (amount : UInt64)
    (prevEnvelopeHash : Digest) (description : Option String) (timestamp : UInt64) :
    OwnershipReceipt where
  issuer := issuerKey.verifyingKey x
  beneficiary := beneficiaryKey
  amount
  prevEnvelopeHash := some prevEnvelopeHash
  description
  createdAt := timestamp

def issuerKey (r : OwnershipReceipt) : Except String Bytes := do
  (x.ed25519Key r.issuer).mapError fun err => "Invalid issuer key: " ++ err
  pure r.issuer

def beneficiaryKey (r : OwnershipReceipt) : Except String Bytes := do
  (x.ed25519Key r.beneficiary).mapError fun err => "Invalid beneficiary key: " ++ err
  pure r.beneficiary

def isOrigin (r : OwnershipReceipt) : Bool :=
  r.prevEnvelopeHash.isNone

def validate (r : OwnershipReceipt) (now : UInt64) : Except String Unit := do
  failWhen (r.amount == 0) "OwnershipReceipt amount cannot be zero"
  let _ ← (r.issuerKey x).mapError fun _ => "Invalid issuer key"
  let _ ← (r.beneficiaryKey x).mapError fun _ => "Invalid beneficiary key"
  failWhen (now + 300 < r.createdAt) "OwnershipReceipt timestamp is too far in the future"

end OwnershipReceipt

def createReceipt (issuerKey : DeviceKeypair) (beneficiaryKey : Bytes) (amount : UInt64)
    (description : Option String) (draws : ReceiptDraws) : Except String Envelope := do
  let receipt := OwnershipReceipt.newOrigin x issuerKey beneficiaryKey amount description
    draws.createdAt
  (receipt.validate x draws.checkedAt).mapError fun _ => "OwnershipReceipt validation failed"
  let payload := serde.toVec receipt
  (Envelope.seal x ec payload issuerKey beneficiaryKey draws.sealing).mapError
    fun _ => "Failed to seal receipt in envelope"

def assignReceipt (previousEnvelope : Envelope) (assignerKey : DeviceKeypair)
    (newBeneficiaryKey : Bytes) (description : Option String) (draws : ReceiptDraws) :
    Except String Envelope := do
  failWhen (!previousEnvelope.verify x) "Previous envelope signature is invalid"
  let previousBeneficiary ← previousEnvelope.beneficiary x
  failWhen (previousBeneficiary != assignerKey.verifyingKey x)
    "Assigner key does not match previous beneficiary"
  let previousPayload ← (previousEnvelope.unseal x ec assignerKey).mapError
    fun _ => "Failed to unseal previous envelope - assigner key may be invalid"
  let previousReceipt ← (serde.fromSlice previousPayload).elim
    (.error "Failed to deserialize previous receipt") .ok
  let assignmentReceipt := OwnershipReceipt.newAssignment x assignerKey newBeneficiaryKey
    previousReceipt.amount (previousEnvelope.hash x) description draws.createdAt
  (assignmentReceipt.validate x draws.checkedAt).mapError
    fun _ => "Assignment receipt validation failed"
  let payload := serde.toVec assignmentReceipt
  (Envelope.seal x ec payload assignerKey newBeneficiaryKey draws.sealing).mapError
    fun _ => "Failed to seal assignment receipt in envelope"

def extractReceipt (envelope : Envelope) (decryptionKey : DeviceKeypair) (now : UInt64) :
    Except String OwnershipReceipt := do
  let payload ← (envelope.unseal x ec decryptionKey).mapError fun _ => "Failed to unseal envelope"
  let receipt ← (serde.fromSlice payload).elim
    (.error "Failed to deserialize receipt from payload") .ok
  (receipt.validate x now).mapError fun _ => "Extracted receipt validation failed"
  pure receipt

/-- Each envelope is issued by the beneficiary of the one before it. -/
def signatureLinks : List Envelope → Bool
  | previous :: current :: rest =>
    (match current.issuer x, previous.beneficiary x with
      | .ok currentIssuer, .ok previousBeneficiary => currentIssuer == previousBeneficiary
      | _, _ => false) && signatureLinks (current :: rest)
  | _ => true

def verifySignatureChain (envelopes : List Envelope) : Bool :=
  !envelopes.isEmpty && envelopes.all (·.verify x) && signatureLinks x envelopes

/-- The loop over neighbours, `i` being the position of the second one. -/
def checkReceiptLinks : Nat → List (Envelope × OwnershipReceipt) → Except String Unit
  | i, (previousEnvelope, previous) :: (envelope, receipt) :: rest => do
    failWhen (receipt.prevEnvelopeHash != some (previousEnvelope.hash x))
      ("envelope " ++ i.repr ++ ": prev_envelope_hash does not match envelope " ++
        (i - 1).repr ++ "'s hash")
    failWhen (receipt.issuer != previous.beneficiary)
      ("envelope " ++ i.repr ++ ": issuer does not match previous beneficiary")
    failWhen (receipt.amount != previous.amount)
      ("envelope " ++ i.repr ++ ": amount " ++ receipt.amount.toNat.repr ++
        " != previous amount " ++ previous.amount.toNat.repr)
    checkReceiptLinks (i + 1) ((envelope, receipt) :: rest)
  | _, _ => .ok ()

/-- The loop that binds each receipt to the parties of its envelope. -/
def bindParties : Nat → List (Envelope × OwnershipReceipt) → Except String Unit
  | _, [] => .ok ()
  | i, (envelope, receipt) :: rest => do
    let issuer ← (envelope.issuer x).mapError
      fun _ => "envelope " ++ i.repr ++ ": invalid issuer key"
    failWhen (receipt.issuer != issuer)
      ("envelope " ++ i.repr ++ ": receipt issuer does not match the signing key")
    let beneficiary ← (envelope.beneficiary x).mapError
      fun _ => "envelope " ++ i.repr ++ ": invalid beneficiary key"
    failWhen (receipt.beneficiary != beneficiary)
      ("envelope " ++ i.repr ++ ": receipt beneficiary does not match the envelope beneficiary")
    bindParties (i + 1) rest

/-- `verify_receipt_chain_with_keys`; the clock is read once for every envelope. -/
def verifyReceiptChainWithKeys (envelopes : List Envelope) (keys : List DeviceKeypair)
    (clock : Nat → UInt64) : Except String Unit := do
  failWhen envelopes.isEmpty "empty receipt chain"
  failWhen (keys.length != envelopes.length)
    ("need one beneficiary key per envelope: " ++ keys.length.repr ++ " keys for " ++
      envelopes.length.repr ++ " envelopes")
  let receipts ← (envelopes.zip keys).zipIdx.mapM fun ((env, key), i) =>
    (extractReceipt x ec serde env key (clock i)).mapError
      fun _ => "envelope " ++ i.repr ++ ": unseal/extract failed"
  -- the list of receipts is as long as the chain, so there is a first one
  failWhen (!(receipts.head?.all OwnershipReceipt.isOrigin))
    "envelope 0 is not an origin receipt (prev_envelope_hash must be None)"
  checkReceiptLinks x 1 (envelopes.zip receipts)
  bindParties x 0 (envelopes.zip receipts)

end Model

section Spec

variable {x : Crates} {ec : EnvelopeCrates} {serde : ReceiptSerde}

variable (x) in
/-- What `validate` asks. -/
structure OwnershipReceipt.Valid (r : OwnershipReceipt) (now : UInt64) : Prop where
  amount : r.amount ≠ 0
  issuer : x.ed25519Key r.issuer = .ok ()
  beneficiary : x.ed25519Key r.beneficiary = .ok ()
  time : r.createdAt ≤ now + 300

theorem validate_eq_ok {r : OwnershipReceipt} {now : UInt64} {u : Unit} :
    r.validate x now = .ok u ↔ r.Valid x now := by
  unfold OwnershipReceipt.validate OwnershipReceipt.issuerKey OwnershipReceipt.beneficiaryKey
  simp only [bind_eq_ok, mapError_eq_ok, failWhen_eq_ok, beq_eq_false_iff_ne,
    decide_eq_false_iff_not, UInt64.not_lt]
  constructor
  · rintro ⟨_, hamount, _, ⟨_, hissuer, -⟩, _, ⟨_, hbeneficiary, -⟩, htime⟩
    exact ⟨hamount, hissuer, hbeneficiary, htime⟩
  · intro h
    exact ⟨(), h.amount, _, ⟨(), h.issuer, rfl⟩, _, ⟨(), h.beneficiary, rfl⟩, h.time⟩

theorem checkedKey_eq_ok {bytes key : Bytes} {message : String → String} :
    (do (x.ed25519Key bytes).mapError message; pure bytes) = Except.ok key ↔
      x.ed25519Key bytes = .ok () ∧ key = bytes := by
  simp only [bind_eq_ok, mapError_eq_ok]
  constructor
  · rintro ⟨_, hkey, h⟩
    exact ⟨hkey, (Except.ok.inj h).symm⟩
  · rintro ⟨hkey, rfl⟩
    exact ⟨(), hkey, rfl⟩

theorem issuer_eq_ok {e : Envelope} {key : Bytes} :
    e.issuer x = .ok key ↔ x.ed25519Key e.verifyingKeyBytes = .ok () ∧ key = e.verifyingKeyBytes :=
  checkedKey_eq_ok

theorem beneficiary_eq_ok {e : Envelope} {key : Bytes} :
    e.beneficiary x = .ok key ↔
      x.ed25519Key e.beneficiaryKeyBytes = .ok () ∧ key = e.beneficiaryKeyBytes :=
  checkedKey_eq_ok

theorem extractReceipt_eq_ok {e : Envelope} {k : DeviceKeypair} {now : UInt64}
    {r : OwnershipReceipt} :
    extractReceipt x ec serde e k now = .ok r ↔ ∃ payload, e.unseal x ec k = .ok payload ∧
      serde.fromSlice payload = some r ∧ r.Valid x now := by
  unfold extractReceipt
  simp only [bind_eq_ok, mapError_eq_ok, elim_eq_ok, validate_eq_ok]
  constructor
  · rintro ⟨payload, hunseal, receipt, hparse, _, hvalid, h⟩
    cases h
    exact ⟨payload, hunseal, hparse, hvalid⟩
  · rintro ⟨payload, hunseal, hparse, hvalid⟩
    exact ⟨payload, hunseal, r, hparse, (), hvalid, rfl⟩

theorem createReceipt_eq_ok {issuerKey : DeviceKeypair} {beneficiaryKey : Bytes} {amount : UInt64}
    {description : Option String} {draws : ReceiptDraws} {e : Envelope} :
    createReceipt x ec serde issuerKey beneficiaryKey amount description draws = .ok e ↔
      (OwnershipReceipt.newOrigin x issuerKey beneficiaryKey amount description
        draws.createdAt).Valid x draws.checkedAt ∧
      Envelope.seal x ec (serde.toVec (OwnershipReceipt.newOrigin x issuerKey beneficiaryKey amount
        description draws.createdAt)) issuerKey beneficiaryKey draws.sealing = .ok e := by
  unfold createReceipt
  simp only [bind_eq_ok, mapError_eq_ok, validate_eq_ok]
  constructor
  · rintro ⟨_, hvalid, hseal⟩
    exact ⟨hvalid, hseal⟩
  · rintro ⟨hvalid, hseal⟩
    exact ⟨(), hvalid, hseal⟩

theorem assignReceipt_eq_ok {previous e : Envelope} {k : DeviceKeypair} {beneficiaryKey : Bytes}
    {description : Option String} {draws : ReceiptDraws} :
    assignReceipt x ec serde previous k beneficiaryKey description draws = .ok e ↔
      x.ed25519Key previous.beneficiaryKeyBytes = .ok () ∧
      previous.beneficiaryKeyBytes = k.verifyingKey x ∧
      ∃ payload receipt, previous.unseal x ec k = .ok payload ∧
        serde.fromSlice payload = some receipt ∧
        (OwnershipReceipt.newAssignment x k beneficiaryKey receipt.amount (previous.hash x)
          description draws.createdAt).Valid x draws.checkedAt ∧
        Envelope.seal x ec (serde.toVec (OwnershipReceipt.newAssignment x k beneficiaryKey
          receipt.amount (previous.hash x) description draws.createdAt)) k beneficiaryKey
          draws.sealing = .ok e := by
  unfold assignReceipt
  simp only [bind_eq_ok, mapError_eq_ok, elim_eq_ok, validate_eq_ok, failWhen_eq_ok,
    beneficiary_eq_ok, bne_eq_false_iff_eq]
  constructor
  · rintro ⟨_, -, _, ⟨hkey, rfl⟩, _, hsame, payload, hunseal, receipt, hparse, _, hvalid, hseal⟩
    exact ⟨hkey, hsame, payload, receipt, hunseal, hparse, hvalid, hseal⟩
  · rintro ⟨hkey, hsame, payload, receipt, hunseal, hparse, hvalid, hseal⟩
    have hverify := (unseal_eq_ok.mp hunseal).1
    exact ⟨(), by simp [hverify], _, ⟨hkey, rfl⟩, (), hsame, payload, hunseal, receipt, hparse, (),
      hvalid, hseal⟩

variable (x) in
/-- The second receipt hands on what the first one gave. -/
structure FollowsOn (previous current : Envelope × OwnershipReceipt) : Prop where
  hash : current.2.prevEnvelopeHash = some (previous.1.hash x)
  issuer : current.2.issuer = previous.2.beneficiary
  amount : current.2.amount = previous.2.amount

variable (x) in
/-- The receipt names the parties of its envelope. -/
structure Bound (e : Envelope) (r : OwnershipReceipt) : Prop where
  issuerKey : x.ed25519Key e.verifyingKeyBytes = .ok ()
  issuer : r.issuer = e.verifyingKeyBytes
  beneficiaryKey : x.ed25519Key e.beneficiaryKeyBytes = .ok ()
  beneficiary : r.beneficiary = e.beneficiaryKeyBytes

theorem checkReceiptLinks_eq_ok {i : Nat} {hops : List (Envelope × OwnershipReceipt)} {u : Unit} :
    checkReceiptLinks x i hops = .ok u ↔ hops.IsChain (FollowsOn x) := by
  induction hops generalizing i with
  | nil => simp [checkReceiptLinks]
  | cons hop rest ih =>
    cases rest with
    | nil => simp [checkReceiptLinks]
    | cons next rest =>
      rw [checkReceiptLinks]
      simp only [bind_eq_ok, failWhen_eq_ok, bne_eq_false_iff_eq, List.isChain_cons_cons, ih]
      constructor
      · rintro ⟨_, hhash, _, hissuer, _, hamount, hrest⟩
        exact ⟨⟨hhash, hissuer, hamount⟩, hrest⟩
      · rintro ⟨h, hrest⟩
        exact ⟨(), h.hash, (), h.issuer, (), h.amount, hrest⟩

theorem bindParties_eq_ok {i : Nat} {hops : List (Envelope × OwnershipReceipt)} {u : Unit} :
    bindParties x i hops = .ok u ↔ ∀ hop ∈ hops, Bound x hop.1 hop.2 := by
  induction hops generalizing i with
  | nil => simp [bindParties]
  | cons hop rest ih =>
    obtain ⟨e, r⟩ := hop
    rw [bindParties]
    simp only [bind_eq_ok, mapError_eq_ok, failWhen_eq_ok, bne_eq_false_iff_eq, issuer_eq_ok,
      beneficiary_eq_ok, ih, List.forall_mem_cons]
    constructor
    · rintro ⟨_, ⟨hikey, rfl⟩, _, hissuer, _, ⟨hbkey, rfl⟩, _, hbeneficiary, hrest⟩
      exact ⟨⟨hikey, hissuer, hbkey, hbeneficiary⟩, hrest⟩
    · rintro ⟨h, hrest⟩
      exact ⟨_, ⟨h.issuerKey, rfl⟩, (), h.issuer, _, ⟨h.beneficiaryKey, rfl⟩, (), h.beneficiary,
        hrest⟩

variable (x ec serde) in
/-- What the keyed check accepts, with the receipts it reads. -/
structure OwnedChain (envelopes : List Envelope) (keys : List DeviceKeypair)
    (clock : Nat → UInt64) (receipts : List OwnershipReceipt) : Prop where
  nonempty : envelopes ≠ []
  keys_length : keys.length = envelopes.length
  receipts_length : receipts.length = envelopes.length
  extracts : ∀ (i : Nat) e k, envelopes[i]? = some e → keys[i]? = some k → ∃ r,
    receipts[i]? = some r ∧ extractReceipt x ec serde e k (clock i) = .ok r
  origin : ∀ r, receipts.head? = some r → r.prevEnvelopeHash = none
  linked : (envelopes.zip receipts).IsChain (FollowsOn x)
  bound : ∀ hop ∈ envelopes.zip receipts, Bound x hop.1 hop.2

theorem verifyReceiptChainWithKeys_eq_ok {envelopes : List Envelope} {keys : List DeviceKeypair}
    {clock : Nat → UInt64} {u : Unit} :
    verifyReceiptChainWithKeys x ec serde envelopes keys clock = .ok u ↔
      ∃ receipts, OwnedChain x ec serde envelopes keys clock receipts := by
  have hzip : ∀ (i : Nat) e k, (envelopes.zip keys)[i]? = some (e, k) ↔
      envelopes[i]? = some e ∧ keys[i]? = some k := by
    intro i e k
    rw [List.getElem?_zip_eq_some]
  unfold verifyReceiptChainWithKeys
  simp only [bind_eq_ok, failWhen_eq_ok, mapM_zipIdx_eq_ok, mapError_eq_ok, bne_eq_false_iff_eq,
    checkReceiptLinks_eq_ok, bindParties_eq_ok]
  constructor
  · rintro ⟨_, hne, _, hkeys, receipts, ⟨hlen, heach⟩, _, horigin, _, hlinked, hbound⟩
    refine ⟨receipts, ?_, hkeys, ?_, ?_, ?_, hlinked, hbound⟩
    · intro hnil
      rw [hnil] at hne
      cases hne
    · rw [hlen, List.length_zip, hkeys, Nat.min_self]
    · intro i e k he hk
      exact heach i (e, k) ((hzip i e k).mpr ⟨he, hk⟩)
    · intro r hr
      rw [hr] at horigin
      simpa [OwnershipReceipt.isOrigin] using horigin
  · rintro ⟨receipts, h⟩
    refine ⟨(), ?_, (), h.keys_length, receipts, ⟨?_, ?_⟩, (), ?_, (), h.linked, h.bound⟩
    · have hne := h.nonempty
      cases envelopes with
      | nil => exact absurd rfl hne
      | cons => rfl
    · rw [h.receipts_length, List.length_zip, h.keys_length, Nat.min_self]
    · rintro i ⟨e, k⟩ hp
      obtain ⟨he, hk⟩ := (hzip i e k).mp hp
      exact h.extracts i e k he hk
    · cases hr : receipts.head? with
      | none => rfl
      | some r => simp [OwnershipReceipt.isOrigin, h.origin r hr]

end Spec

end Sealedge
