import Sealedge.Witness

namespace Sealedge

/-- The revocation columns of a device. -/
structure RevocationState where
  revokedAt : Option String
  minEpoch : Option UInt32
  deriving DecidableEq

def RevocationState.default : RevocationState := ⟨none, none⟩

def isRevoked (state : RevocationState) : Bool := state.revokedAt.isSome

/-- Whether an archive of an epoch clears the floor of its device. -/
def epochAllowed (minEpoch : Option UInt32) (archiveEpoch : UInt32) : Bool :=
  match minEpoch with
  | some floor => decide (floor ≤ archiveEpoch)
  | none => true

/-- What a revoke request does to a device. -/
inductive RevokeOutcome
  | apply (revokedAt : String) (minEpoch : Option UInt32)
  | reject (reason : String)
  deriving DecidableEq

/-- The reader of RFC 3339 texts: the instant, in the order of time. -/
abbrev InstantReader := String → Option Int

/-- The new `revoked_at`: it may be set and moved earlier. -/
def resolveRevokedAt (parse : InstantReader) (current requested : Option String) (now : String) :
    Except String String :=
  match current, requested with
  | none, none => .ok now
  | none, some r =>
    if (parse r).isNone then .error ("malformed revoked_at: " ++ r) else .ok r
  | some c, none => .ok c
  | some c, some r =>
    match parse c, parse r with
    | some cd, some rd =>
      if rd ≤ cd then .ok r else .error "revoked_at may only move earlier, never later"
    | _, _ => .error ("malformed revoked_at: " ++ r)

/-- The new floor: one that is given may not be lower. -/
def resolveMinEpoch (current requested : Option UInt32) : Except String (Option UInt32) :=
  match current, requested with
  | cur, none => .ok cur
  | none, some r => .ok (some r)
  | some c, some r =>
    if c ≤ r then .ok (some r)
    else .error ("min_epoch must be non-decreasing (current " ++ c.toNat.repr ++ ", got " ++
      r.toNat.repr ++ ")")

def decideRevoke (parse : InstantReader) (current : RevocationState)
    (reqRevokedAt : Option String) (reqMinEpoch : Option UInt32) (now : String) : RevokeOutcome :=
  match resolveRevokedAt parse current.revokedAt reqRevokedAt now with
  | .error reason => .reject reason
  | .ok revokedAt =>
    match resolveMinEpoch current.minEpoch reqMinEpoch with
    | .error reason => .reject reason
    | .ok minEpoch => .apply revokedAt minEpoch

/-- From one state to the other the instant is not cleared and not moved later, and the floor does
not disappear and does not sink. -/
structure RevocationState.Tightens (parse : InstantReader) (s t : RevocationState) : Prop where
  instant : ∀ c, s.revokedAt = some c → ∃ r, t.revokedAt = some r ∧
    ∀ cd, parse c = some cd → ∃ rd, parse r = some rd ∧ rd ≤ cd
  floor : ∀ c, s.minEpoch = some c → ∃ r, t.minEpoch = some r ∧ c ≤ r

theorem RevocationState.Tightens.refl (parse : InstantReader) (s : RevocationState) :
    s.Tightens parse s :=
  ⟨fun c hc => ⟨c, hc, fun cd hcd => ⟨cd, hcd, Int.le_refl _⟩⟩,
    fun c hc => ⟨c, hc, UInt32.le_refl _⟩⟩

theorem RevocationState.Tightens.trans {parse : InstantReader} {s t u : RevocationState}
    (hst : s.Tightens parse t) (htu : t.Tightens parse u) : s.Tightens parse u := by
  constructor
  · intro c hc
    obtain ⟨r, hr, hearlier⟩ := hst.instant c hc
    obtain ⟨q, hq, hearliest⟩ := htu.instant r hr
    refine ⟨q, hq, ?_⟩
    intro cd hcd
    obtain ⟨rd, hrd, hle⟩ := hearlier cd hcd
    obtain ⟨qd, hqd, hle'⟩ := hearliest rd hrd
    exact ⟨qd, hqd, by omega⟩
  · intro c hc
    obtain ⟨r, hr, hle⟩ := hst.floor c hc
    obtain ⟨q, hq, hle'⟩ := htu.floor r hr
    exact ⟨q, hq, UInt32.le_trans hle hle'⟩

theorem resolveRevokedAt_ok {parse : InstantReader} {current requested : Option String}
    {now revokedAt c : String} (h : resolveRevokedAt parse current requested now = .ok revokedAt)
    (hc : current = some c) :
    ∀ cd, parse c = some cd → ∃ rd, parse revokedAt = some rd ∧ rd ≤ cd := by
  subst hc
  intro cd hcd
  cases requested with
  | none =>
    cases h
    exact ⟨cd, hcd, Int.le_refl _⟩
  | some r =>
    unfold resolveRevokedAt at h
    dsimp only at h
    rw [hcd] at h
    cases hr : parse r with
    | none =>
      rw [hr] at h
      cases h
    | some rd =>
      rw [hr] at h
      dsimp only at h
      split at h
      next hle =>
        cases h
        exact ⟨rd, hr, hle⟩
      next => cases h

theorem resolveMinEpoch_ok {current requested minEpoch : Option UInt32} {c : UInt32}
    (h : resolveMinEpoch current requested = .ok minEpoch) (hc : current = some c) :
    ∃ r, minEpoch = some r ∧ c ≤ r := by
  subst hc
  cases requested with
  | none =>
    cases h
    exact ⟨c, rfl, UInt32.le_refl _⟩
  | some r =>
    unfold resolveMinEpoch at h
    dsimp only at h
    split at h
    next hle =>
      cases h
      exact ⟨r, rfl, hle⟩
    next => cases h

theorem decideRevoke_tightens {parse : InstantReader} {current : RevocationState}
    {reqRevokedAt : Option String} {reqMinEpoch minEpoch : Option UInt32} {now revokedAt : String}
    (h : decideRevoke parse current reqRevokedAt reqMinEpoch now = .apply revokedAt minEpoch) :
    current.Tightens parse ⟨some revokedAt, minEpoch⟩ := by
  unfold decideRevoke at h
  split at h
  next => cases h
  next at' hat =>
    split at h
    next => cases h
    next epoch hepoch =>
      cases h
      exact ⟨fun c hc => ⟨_, rfl, resolveRevokedAt_ok hat hc⟩,
        fun c hc => resolveMinEpoch_ok hepoch hc⟩

def WitnessDecision.isRecord : WitnessDecision → Bool
  | record _ => true
  | _ => false

/-- A revoked device is refused a new witness; what was witnessed before still replays. -/
def refuseRevokedWitness (revoked : Bool) (decision : WitnessDecision) : Bool :=
  revoked && decision.isRecord

/-- A key that has been rotated away records nothing beyond the rotation. -/
def refuseSuperseded (rotationSeq : Option UInt64) (sequence : UInt64)
    (decision : WitnessDecision) : Bool :=
  match rotationSeq with
  | some rseq => decide (rseq < sequence) && decision.isRecord
  | none => false

inductive LineageCheck
  | ok (oldPub : String) (rotationSeq : UInt64)
  | reject (reason : String)
  deriving DecidableEq

/-- What can be checked of an attached rotation record without the ledger. -/
def verifyLineageRotation (x : Crates) (rec : RotationRecord) (reqDevicePub : String)
    (reqSequence : UInt64) (reqTip : String) : LineageCheck :=
  if !rec.verify x then
    .reject "rotation co-signature/epoch verification failed"
  else if rec.new.publicKey ≠ reqDevicePub then
    .reject "rotation new.public_key does not match the request device_pub"
  else if rec.sequence ≠ reqSequence then
    .reject ("rotation sequence " ++ rec.sequence.toNat.repr ++
      " does not match request sequence " ++ reqSequence.toNat.repr)
  else if formatArchiveId (rec.archiveDigest x) ≠ reqTip then
    .reject "rotation digest does not match the witnessed tip"
  else .ok rec.old.publicKey rec.sequence

theorem verifyLineageRotation_ok {x : Crates} {rec : RotationRecord} {devicePub tip oldPub : String}
    {sequence rotationSeq : UInt64}
    (h : verifyLineageRotation x rec devicePub sequence tip = .ok oldPub rotationSeq) :
    rec.Cosigned x ∧ rec.new.publicKey = devicePub ∧ rec.sequence = sequence ∧
      formatArchiveId (rec.archiveDigest x) = tip ∧ oldPub = rec.old.publicKey ∧
      rotationSeq = sequence := by
  unfold verifyLineageRotation at h
  split at h
  next => cases h
  next hverify =>
  split at h
  next => cases h
  next hnew =>
  split at h
  next => cases h
  next hseq =>
  split at h
  next => cases h
  next htip =>
    obtain ⟨rfl, rfl⟩ := LineageCheck.ok.inj h
    refine ⟨RotationRecord.verify_iff.mp (by simpa using hverify), not_not.mp hnew, not_not.mp hseq,
      not_not.mp htip, rfl, not_not.mp hseq⟩

end Sealedge
