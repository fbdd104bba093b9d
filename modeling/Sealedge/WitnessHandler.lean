import Sealedge.WitnessDb

namespace Sealedge

open AtomicProgram

inductive StatusCode
  | badRequest
  | unauthorized
  | forbidden
  | conflict
  | internalServerError
  deriving DecidableEq

structure Refusal where
  status : StatusCode
  message : String
  deriving DecidableEq

/-- A receipt that was issued, with its signed form. -/
structure IssuedReceipt where
  receipt : WitnessReceipt
  jws : String
  deriving DecidableEq

abbrev WitnessProg := Prog DbOp DbOp.Resp (Except Refusal IssuedReceipt)

def refuse (status : StatusCode) (message : String) : WitnessProg :=
  .ret (.error ⟨status, message⟩)

/-- The end of the handler: build the receipt and sign it. -/
def issueReceipt (req : WitnessRequest) (registered : Bool) (observedAt : String)
    (prev : Option WitnessEntry) : WitnessProg :=
  .op .newUuid fun jti =>
    let receipt :=
      WitnessReceipt.build req.devicePub registered req.sequence req.tip observedAt prev jti
    .op (.signWitnessJws receipt) fun signed =>
      match (signed : Except String String) with
      | .error e => refuse .internalServerError ("failed to sign witness receipt: " ++ e)
      | .ok jws => .ret (.ok ⟨receipt, jws⟩)

/-- The lineage row of a verified rotation record. -/
def lineageRow (req : WitnessRequest) (oldPub : String) (rotationSeq : UInt64)
    (observedAt : String) : LineageRow where
  newPub := req.devicePub
  oldPub := oldPub
  rotationSeq := Int64.ofUInt64 rotationSeq
  observedAt := observedAt

def recordLineage (req : WitnessRequest) (registered : Bool) (observedAt : String)
    (prev : Option WitnessEntry) (oldPub : String) (rotationSeq : UInt64) : WitnessProg :=
  .op (.lineageInsert (lineageRow req oldPub rotationSeq observedAt)) fun inserted =>
    match (inserted : Except DbError Unit) with
    | .error _ => refuse .internalServerError "lineage insert failed"
    | .ok _ => issueReceipt req registered observedAt prev

/-- If the request carries a rotation record: verify it, compare it with the old key's witnessed
predecessor, and record the lineage. -/
def checkLineage (x : Crates) (req : WitnessRequest) (registered : Bool) (observedAt : String)
    (prev : Option WitnessEntry) : WitnessProg :=
  match req.rotation with
  | none => issueReceipt req registered observedAt prev
  | some rec =>
    match verifyLineageRotation x rec req.devicePub req.sequence req.tip with
    | .reject msg => refuse .badRequest ("rotation lineage rejected: " ++ msg)
    | .ok oldPub rotationSeq =>
      if 0 < rotationSeq then
        .op (.witnessEntryAt oldPub (rotationSeq - 1)) fun found =>
          match (found : Except DbError (Option WitnessEntry)) with
          | .error _ => refuse .internalServerError "lineage predecessor lookup failed"
          | .ok none => recordLineage req registered observedAt prev oldPub rotationSeq
          | .ok (some entry) =>
            if entry.tip ≠ rec.prevArchiveHash then
              refuse .conflict
                "rotation prev_archive_hash does not match the old key's witnessed chain"
            else recordLineage req registered observedAt prev oldPub rotationSeq
      else recordLineage req registered observedAt prev oldPub rotationSeq

def witnessRow (req : WitnessRequest) (registered : Bool) (observedNow : String) : WitnessRow where
  devicePub := req.devicePub
  sequence := Int64.ofUInt64 req.sequence
  tip := req.tip
  observedAt := observedNow
  deviceRegistered := registered
  signedAt := req.signedAt

/-- Acts on the decision; the ledger row is inserted before the rotation record is looked at. -/
def actOnDecision (x : Crates) (req : WitnessRequest) (registered : Bool) (observedNow : String) :
    WitnessDecision → WitnessProg
  | .fork existingTip =>
    refuse .conflict ("fork: sequence " ++ req.sequence.toNat.repr ++
      " already witnessed with a different tip (" ++ existingTip ++ ")")
  | .rollback maxSequence =>
    refuse .conflict ("rollback: sequence " ++ req.sequence.toNat.repr ++
      " is at or below the last witnessed sequence " ++ maxSequence.toNat.repr)
  | .replay existing prev => checkLineage x req registered existing.observedAt prev
  | .record prev =>
    .op (.witnessInsert (witnessRow req registered observedNow)) fun inserted =>
      match (inserted : Except DbError Unit) with
      | .error e => refuse .conflict ("witness ledger insert conflict: " ++ e)
      | .ok _ => checkLineage x req registered observedNow prev

/-- The gates for revoked and superseded keys, then the clock. -/
def gateDecision (x : Crates) (req : WitnessRequest) (found : Option RevocationState)
    (superseded : Option UInt64) (existing : List WitnessEntry) : WitnessProg :=
  let decision := decideWitness existing req.sequence req.tip
  if refuseRevokedWitness (isRevoked (found.getD RevocationState.default)) decision then
    refuse .forbidden "device key is revoked; new chronicle tips are refused"
  else if refuseSuperseded superseded req.sequence decision then
    refuse .conflict ("superseded: this key rotated away at sequence " ++
      (superseded.getD 0).toNat.repr ++ "; new tips beyond it are refused")
  else
    .op .now fun observedNow => actOnDecision x req found.isSome observedNow decision

/-- The reads that the decision rests on, in the order of the handler. -/
def loadState (x : Crates) (req : WitnessRequest) : WitnessProg :=
  .op (.getDeviceRevocationByPub req.devicePub) fun found =>
    match (found : Except DbError (Option RevocationState)) with
    | .error _ => refuse .internalServerError "registry lookup failed"
    | .ok found =>
      .op (.lineageRotationSeq req.devicePub) fun superseded =>
        match (superseded : Except DbError (Option UInt64)) with
        | .error _ => refuse .internalServerError "lineage lookup failed"
        | .ok superseded =>
          .op (.witnessEntries req.devicePub) fun existing =>
            match (existing : Except DbError (List WitnessEntry)) with
            | .error _ => refuse .internalServerError "witness ledger read failed"
            | .ok existing => gateDecision x req found superseded existing

/-- `POST /v1/witness`, one atomic operation at a time. -/
def witnessHandler (x : Crates) (req : WitnessRequest) : WitnessProg :=
  if !req.verify x then refuse .unauthorized "invalid witness request signature"
  else loadState x req

theorem witnessHandler_of_verify {x : Crates} {req : WitnessRequest} (h : req.verify x = true) :
    witnessHandler x req = loadState x req := by
  simp [witnessHandler, h]

abbrev WitnessExchange := Exchange DbOp DbOp.Resp

def loaded (devicePub : String) (existing : List WitnessEntry) : WitnessExchange :=
  ⟨.witnessEntries devicePub, .ok existing⟩

/-- The two lookups that come before the ledger is loaded. -/
def asked (devicePub : String) (found : Option RevocationState) (superseded : Option UInt64) :
    List WitnessExchange :=
  [⟨.getDeviceRevocationByPub devicePub, .ok found⟩, ⟨.lineageRotationSeq devicePub, .ok superseded⟩]

def insertedRow (row : WitnessRow) : WitnessExchange :=
  ⟨.witnessInsert row, .ok ()⟩

section Inversion

variable {x : Crates} {req : WitnessRequest} {registered : Bool} {observedAt : String}
  {prev : Option WitnessEntry} {log : List WitnessExchange} {q : WitnessProg}

theorem follows_refuse {status : StatusCode} {message : String}
    (h : Follows (refuse status message) log q) : q = refuse status message := by
  cases log with
  | nil => exact (follows_nil.mp h).symm
  | cons e log => exact absurd h follows_ret_cons

theorem refuse_ne_issued {status : StatusCode} {message : String} {issued : IssuedReceipt} :
    (.ret (.ok issued) : WitnessProg) ≠ refuse status message := by
  intro h
  cases h

/-- The operations behind the ledger insert are never another ledger insert, and what they end
in is a receipt for the values they were given. -/
structure Settles (req : WitnessRequest) (registered : Bool) (observedAt : String)
    (prev : Option WitnessEntry) (q : WitnessProg) : Prop where
  noInsert : ∀ row k, q ≠ .op (.witnessInsert row) k
  receipt : ∀ issued, q = .ret (.ok issued) → ∃ jti, issued.receipt =
    WitnessReceipt.build req.devicePub registered req.sequence req.tip observedAt prev jti

theorem settles_refuse {status : StatusCode} {message : String} :
    Settles req registered observedAt prev (refuse status message) := by
  refine ⟨?_, ?_⟩
  · intro row k h
    cases h
  · intro issued h
    exact absurd h.symm refuse_ne_issued

theorem settles_op {o : DbOp} {k : o.Resp → WitnessProg} (ho : ∀ row, o ≠ .witnessInsert row) :
    Settles req registered observedAt prev (.op o k) := by
  refine ⟨?_, ?_⟩
  · intro row k' h
    exact ho row (Prog.op.inj h).1
  · intro issued h
    cases h

theorem issueReceipt_settles (h : Follows (issueReceipt req registered observedAt prev) log q) :
    Settles req registered observedAt prev q := by
  unfold issueReceipt at h
  rcases log with _ | ⟨e, log⟩
  · rw [← follows_nil.mp h]
    exact settles_op (fun row h => by cases h)
  obtain ⟨jti, -, h⟩ := follows_op_cons.mp h
  rcases log with _ | ⟨e, log⟩
  · rw [← follows_nil.mp h]
    exact settles_op (fun row h => by cases h)
  obtain ⟨signed, -, h⟩ := follows_op_cons.mp h
  cases signed with
  | error e =>
    rw [follows_refuse h]
    exact settles_refuse
  | ok jws =>
    rcases log with _ | ⟨e, log⟩
    · rw [← follows_nil.mp h]
      refine ⟨?_, ?_⟩
      · intro row k he
        cases he
      · intro issued he
        cases he
        exact ⟨jti, rfl⟩
    · exact absurd h follows_ret_cons

theorem recordLineage_settles {oldPub : String} {rotationSeq : UInt64}
    (h : Follows (recordLineage req registered observedAt prev oldPub rotationSeq) log q) :
    Settles req registered observedAt prev q := by
  unfold recordLineage at h
  rcases log with _ | ⟨e, log⟩
  · rw [← follows_nil.mp h]
    exact settles_op (fun row h => by cases h)
  obtain ⟨inserted, -, h⟩ := follows_op_cons.mp h
  cases inserted with
  | error e =>
    rw [follows_refuse h]
    exact settles_refuse
  | ok u => exact issueReceipt_settles h

theorem checkLineage_settles (h : Follows (checkLineage x req registered observedAt prev) log q) :
    Settles req registered observedAt prev q := by
  unfold checkLineage at h
  split at h
  next => exact issueReceipt_settles h
  next rec hrec =>
  split at h
  next msg hcheck =>
    rw [follows_refuse h]
    exact settles_refuse
  next oldPub rotationSeq hcheck =>
  split at h
  next hpos =>
    rcases log with _ | ⟨e, log⟩
    · rw [← follows_nil.mp h]
      exact settles_op (fun row h => by cases h)
    obtain ⟨found, -, h⟩ := follows_op_cons.mp h
    rcases found with e | (_ | entry)
    · rw [follows_refuse h]
      exact settles_refuse
    · exact recordLineage_settles h
    · dsimp only at h
      split at h
      next =>
        rw [follows_refuse h]
        exact settles_refuse
      next => exact recordLineage_settles h
  next => exact recordLineage_settles h

/-- The program neither inserts a ledger row next nor has issued a receipt. -/
def Pending (q : WitnessProg) : Prop :=
  (∀ row k, q ≠ .op (.witnessInsert row) k) ∧ ∀ issued, q ≠ .ret (.ok issued)

theorem pending_refuse {status : StatusCode} {message : String} :
    Pending (refuse status message) := by
  refine ⟨?_, ?_⟩
  · intro row k h
    cases h
  · intro issued h
    cases h

theorem pending_op {o : DbOp} {k : o.Resp → WitnessProg} (ho : ∀ row, o ≠ .witnessInsert row) :
    Pending (.op o k) := by
  refine ⟨?_, ?_⟩
  · intro row k' h
    exact ho row (Prog.op.inj h).1
  · intro issued h
    cases h

/-- A request that got past its gates: what it has read, and the decision it acts on. -/
structure PastGates (x : Crates) (req : WitnessRequest) (log : List WitnessExchange)
    (q : WitnessProg) (found : Option RevocationState) (superseded : Option UInt64)
    (existing : List WitnessEntry) (observedNow : String) (rest : List WitnessExchange) : Prop where
  log_eq : log = asked req.devicePub found superseded ++ loaded req.devicePub existing ::
    ⟨.now, observedNow⟩ :: rest
  notRevoked : refuseRevokedWitness (isRevoked (found.getD RevocationState.default))
    (decideWitness existing req.sequence req.tip) = false
  notSuperseded : refuseSuperseded superseded req.sequence
    (decideWitness existing req.sequence req.tip) = false
  acts : Follows (actOnDecision x req found.isSome observedNow
    (decideWitness existing req.sequence req.tip)) rest q

theorem witnessHandler_cases (h : Follows (witnessHandler x req) log q) :
    Pending q ∨ ∃ found superseded existing observedNow rest,
      PastGates x req log q found superseded existing observedNow rest := by
  unfold witnessHandler at h
  split at h
  next =>
    rw [follows_refuse h]
    exact Or.inl pending_refuse
  next =>
  unfold loadState at h
  rcases log with _ | ⟨e₁, log⟩
  · rw [← follows_nil.mp h]
    exact Or.inl (pending_op (fun row h => by cases h))
  replace h := follows_op_cons.mp h
  obtain ⟨found, rfl, h⟩ := h
  rcases found with e | found
  · rw [follows_refuse h]
    exact Or.inl pending_refuse
  rcases log with _ | ⟨e₂, log⟩
  · rw [← follows_nil.mp h]
    exact Or.inl (pending_op (fun row h => by cases h))
  replace h := follows_op_cons.mp h
  obtain ⟨superseded, rfl, h⟩ := h
  rcases superseded with e | superseded
  · rw [follows_refuse h]
    exact Or.inl pending_refuse
  rcases log with _ | ⟨e₃, log⟩
  · rw [← follows_nil.mp h]
    exact Or.inl (pending_op (fun row h => by cases h))
  replace h := follows_op_cons.mp h
  obtain ⟨existing, rfl, h⟩ := h
  rcases existing with e | existing
  · rw [follows_refuse h]
    exact Or.inl pending_refuse
  simp only [gateDecision] at h
  split at h
  next =>
    rw [follows_refuse h]
    exact Or.inl pending_refuse
  next hrevoked =>
  split at h
  next =>
    rw [follows_refuse h]
    exact Or.inl pending_refuse
  next hsuperseded =>
  rcases log with _ | ⟨e₄, log⟩
  · rw [← follows_nil.mp h]
    exact Or.inl (pending_op (fun row h => by cases h))
  replace h := follows_op_cons.mp h
  obtain ⟨observedNow, rfl, h⟩ := h
  exact Or.inr ⟨found, superseded, existing, observedNow, log, rfl,
    Bool.eq_false_iff.mpr hrevoked, Bool.eq_false_iff.mpr hsuperseded, h⟩

/-- The handler is about to insert only the row of a request that it decided to record. -/
theorem witnessHandler_insert {row : WitnessRow}
    {k : (DbOp.witnessInsert row).Resp → WitnessProg}
    (h : Follows (witnessHandler x req) log (.op (.witnessInsert row) k)) :
    ∃ registered observedNow existing prev, loaded req.devicePub existing ∈ log ∧
      decideWitness existing req.sequence req.tip = .record prev ∧
      row = witnessRow req registered observedNow := by
  rcases witnessHandler_cases h with hp | ⟨found, superseded, existing, observedNow, rest, hg⟩
  · exact absurd rfl (hp.1 row k)
  have acts := hg.acts
  have hmem : loaded req.devicePub existing ∈ log := by simp [hg.log_eq]
  cases hd : decideWitness existing req.sequence req.tip with
  | fork existingTip =>
    rw [hd] at acts
    exact absurd (follows_refuse acts) (pending_refuse.1 row k).symm
  | rollback maxSequence =>
    rw [hd] at acts
    exact absurd (follows_refuse acts) (pending_refuse.1 row k).symm
  | replay e prev =>
    rw [hd] at acts
    exact absurd rfl ((checkLineage_settles acts).noInsert row k)
  | record prev =>
    rw [hd] at acts
    simp only [actOnDecision] at acts
    rcases rest with _ | ⟨e, rest⟩
    · have hrow := follows_nil.mp acts
      cases hrow
      exact ⟨found.isSome, observedNow, existing, prev, hmem, hd, rfl⟩
    · obtain ⟨inserted, -, acts⟩ := follows_op_cons.mp acts
      rcases inserted with e | u
      · exact absurd (follows_refuse acts) (pending_refuse.1 row k).symm
      · exact absurd rfl ((checkLineage_settles acts).noInsert row k)

/-- Where a receipt's timestamp comes from: the replayed entry, or the row just inserted. -/
theorem witnessHandler_issued {issued : IssuedReceipt}
    (h : Follows (witnessHandler x req) log (.ret (.ok issued))) :
    ∃ registered observedAt existing prev jti, issued.receipt =
        WitnessReceipt.build req.devicePub registered req.sequence req.tip observedAt prev jti ∧
      ((∃ e before after, decideWitness existing req.sequence req.tip = .replay e prev ∧
          observedAt = e.observedAt ∧ log = before ++ loaded req.devicePub existing :: after) ∨
        (decideWitness existing req.sequence req.tip = .record prev ∧
          ∃ before after, loaded req.devicePub existing ∈ before ∧
            log = before ++ insertedRow (witnessRow req registered observedAt) :: after)) := by
  rcases witnessHandler_cases h with hp | ⟨found, superseded, existing, observedNow, rest, hg⟩
  · exact absurd rfl (hp.2 issued)
  have acts := hg.acts
  cases hd : decideWitness existing req.sequence req.tip with
  | fork existingTip =>
    rw [hd] at acts
    exact absurd (follows_refuse acts) refuse_ne_issued
  | rollback maxSequence =>
    rw [hd] at acts
    exact absurd (follows_refuse acts) refuse_ne_issued
  | replay e prev =>
    rw [hd] at acts
    obtain ⟨jti, hreceipt⟩ := (checkLineage_settles acts).receipt issued rfl
    refine ⟨found.isSome, e.observedAt, existing, prev, jti, hreceipt, Or.inl ?_⟩
    exact ⟨e, asked req.devicePub found superseded, ⟨.now, observedNow⟩ :: rest, hd, rfl, hg.log_eq⟩
  | record prev =>
    rw [hd] at acts
    simp only [actOnDecision] at acts
    rcases rest with _ | ⟨e, rest⟩
    · cases follows_nil.mp acts
    · replace acts := follows_op_cons.mp acts
      obtain ⟨inserted, rfl, acts⟩ := acts
      rcases inserted with e | u
      · exact absurd (follows_refuse acts) refuse_ne_issued
      · obtain ⟨jti, hreceipt⟩ := (checkLineage_settles acts).receipt issued rfl
        refine ⟨found.isSome, observedNow, existing, prev, jti, hreceipt, Or.inr ⟨hd, ?_⟩⟩
        refine ⟨asked req.devicePub found superseded ++
          [loaded req.devicePub existing, ⟨.now, observedNow⟩], rest, by simp, ?_⟩
        rw [hg.log_eq, List.append_assoc]
        rfl

end Inversion

end Sealedge
