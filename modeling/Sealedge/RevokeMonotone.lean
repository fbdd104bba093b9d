import Sealedge.RevokeHandler

namespace Sealedge

open AtomicProgram

/-- Every device stays registered, and its revocation columns only tighten. -/
def Devices.Tightens (parse : InstantReader) (s t : Devices) : Prop :=
  ∀ row ∈ s.rows, ∃ row' ∈ t.rows, row'.id = row.id ∧ row'.orgId = row.orgId ∧
    row'.devicePub = row.devicePub ∧ row.revocation.Tightens parse row'.revocation

/-- If the exchange is a read of the device's row, it is the row of this state. -/
def ReadIsCurrent (devices : Devices) (orgId id : String) : RevokeExchange → Prop
  | ⟨.getDeviceRevocation org dev, resp⟩ =>
    org = orgId → dev = id →
      ∀ found, (resp : Except DbError (Option (String × RevocationState))) = .ok found →
        found = devices.getDeviceRevocation orgId id
  | _ => True

/-- A request updates the row only while it is still the one that the request has read. -/
def RowCurrent (devices : Devices) (log : List RevokeExchange) : RevokeOp → Prop
  | .setDeviceRevocation orgId id _ _ => ∀ e ∈ log, ReadIsCurrent devices orgId id e
  | _ => True

instance ReadIsCurrent.decidable (devices : Devices) (orgId id : String) :
    (e : RevokeExchange) → Decidable (ReadIsCurrent devices orgId id e)
  | ⟨.getDeviceRevocation org dev, .ok found⟩ =>
    decidable_of_iff (org = orgId → dev = id → found = devices.getDeviceRevocation orgId id)
      ⟨fun h horg hdev _ he => Except.ok.inj he ▸ h horg hdev,
        fun h horg hdev => h horg hdev found rfl⟩
  | ⟨.getDeviceRevocation _ _, .error _⟩ => isTrue (fun _ _ _ he => by cases he)
  | ⟨.now, _⟩ => isTrue trivial
  | ⟨.setDeviceRevocation _ _ _ _, _⟩ => isTrue trivial

instance RowCurrent.decidable (devices : Devices) (log : List RevokeExchange) :
    (o : RevokeOp) → Decidable (RowCurrent devices log o)
  | .setDeviceRevocation orgId id _ _ =>
    inferInstanceAs (Decidable (∀ e ∈ log, ReadIsCurrent devices orgId id e))
  | .getDeviceRevocation _ _ => isTrue trivial
  | .now => isTrue trivial

section Rows

variable {parse : InstantReader} {s t u : Devices} {orgId id revokedAt : String}
  {minEpoch : Option UInt32}

theorem Devices.Tightens.refl (parse : InstantReader) (s : Devices) : s.Tightens parse s :=
  fun row hrow => ⟨row, hrow, rfl, rfl, rfl, .refl parse _⟩

theorem Devices.Tightens.trans (hst : s.Tightens parse t) (htu : t.Tightens parse u) :
    s.Tightens parse u := by
  intro row hrow
  obtain ⟨row', hrow', hid, horg, hpub, htight⟩ := hst row hrow
  obtain ⟨row'', hrow'', hid', horg', hpub', htight'⟩ := htu row' hrow'
  exact ⟨row'', hrow'', hid'.trans hid, horg'.trans horg, hpub'.trans hpub, htight.trans htight'⟩

theorem Devices.rowOf_eq {row : DeviceRecord} (hrow : row ∈ s.rows) (hid : row.id = id)
    (horg : row.orgId = orgId) : s.rowOf orgId id = some row := by
  cases hfound : s.rowOf orgId id with
  | none =>
    have hmiss := List.find?_eq_none.mp hfound row hrow
    simp [hid, horg] at hmiss
  | some r =>
    have hkeys := List.find?_some hfound
    rw [Bool.and_eq_true, beq_iff_eq, beq_iff_eq] at hkeys
    have hmem := List.mem_of_find?_eq_some hfound
    rw [List.inj_on_of_nodup_map s.primaryKey hmem hrow (hkeys.1.trans hid.symm)]

theorem DeviceRecord.revocation_revoke (row : DeviceRecord) :
    (row.revoke revokedAt minEpoch).revocation = ⟨some revokedAt, minEpoch⟩ := by
  cases minEpoch with
  | none => rfl
  | some e => simp [DeviceRecord.revoke, DeviceRecord.revocation]

theorem Devices.setDeviceRevocation_tightens
    (h : ∀ pub current, s.getDeviceRevocation orgId id = some (pub, current) →
      current.Tightens parse ⟨some revokedAt, minEpoch⟩) :
    s.Tightens parse (s.setDeviceRevocation orgId id revokedAt minEpoch) := by
  intro row hrow
  obtain ⟨hid, horg, -, hpub⟩ := updated_keeps orgId id revokedAt minEpoch row
  refine ⟨updated orgId id revokedAt minEpoch row, List.mem_map_of_mem hrow, hid, horg, hpub, ?_⟩
  unfold updated
  split
  next hmatch =>
    have hread : s.getDeviceRevocation orgId id = some (row.devicePub, row.revocation) := by
      rw [Devices.getDeviceRevocation, Devices.rowOf_eq hrow hmatch.1 hmatch.2, Option.map_some]
    rw [DeviceRecord.revocation_revoke]
    exact h _ _ hread
  next => exact .refl parse _

theorem Devices.createDevice_tightens (row : DeviceRecord) :
    s.Tightens parse ((s.createDevice row).getD s) := by
  unfold Devices.createDevice
  split
  next =>
    intro r hr
    exact ⟨r, List.mem_append_left _ hr, rfl, rfl, rfl, .refl parse _⟩
  next => exact .refl parse s

theorem performRevoke_cases (o : RevokeOp) (fate : o.Fate) (s : Devices) :
    (performRevoke o fate s).2 = s ∨
    ∃ orgId id revokedAt minEpoch, o = .setDeviceRevocation orgId id revokedAt minEpoch ∧
      (performRevoke o fate s).2 = s.setDeviceRevocation orgId id revokedAt minEpoch := by
  cases o with
  | getDeviceRevocation orgId id => exact Or.inl rfl
  | now => exact Or.inl rfl
  | setDeviceRevocation orgId id revokedAt minEpoch =>
    cases (fate : Option DbError) with
    | some e => exact Or.inl rfl
    | none => exact Or.inr ⟨orgId, id, revokedAt, minEpoch, rfl, rfl⟩

end Rows

theorem respects_tightens (parse : InstantReader) (calls : List RevokeCall) :
    Respects registry (calls.map (revokeDeviceHandler parse)) RowCurrent
      (Devices.Tightens parse) where
  refl := Devices.Tightens.refl parse
  trans := Devices.Tightens.trans
  other d s := Devices.createDevice_tightens d.record
  own := by
    intro p hp log o k hf s fate hal
    obtain ⟨call, -, rfl⟩ := List.mem_map.mp hp
    rcases performRevoke_cases o fate s with hsame | ⟨orgId, id, revokedAt, minEpoch, rfl, hset⟩
    · rw [show (registry.perform o fate s).2 = s from hsame]
      exact .refl parse s
    · obtain ⟨devicePub, current, now, hread, happly⟩ := revokeDeviceHandler_update hf
      rw [show (registry.perform _ fate s).2 = _ from hset]
      refine Devices.setDeviceRevocation_tightens ?_
      intro pub state hstate
      have hcurrent := hal _ hread rfl rfl (some (devicePub, current)) rfl
      rw [hstate] at hcurrent
      obtain ⟨-, rfl⟩ := Prod.mk.inj (Option.some.inj hcurrent)
      exact decideRevoke_tightens happly

/-- In every interleaving where requests update rows that are still the ones they have read,
revocation only tightens between any two points of time. -/
theorem revocation_tightens_of_current_rows (parse : InstantReader) (calls : List RevokeCall)
    (devices : Devices) (events : List (Event RevokeOp RevokeOp.Fate NewDevice))
    (h : AllowedRun registry RowCurrent
      (launch devices (calls.map (revokeDeviceHandler parse))) events) :
    ∀ before between after, events = before ++ between ++ after →
      Devices.Tightens parse
        (run registry (launch devices (calls.map (revokeDeviceHandler parse))) before).store
        (run registry (launch devices (calls.map (revokeDeviceHandler parse)))
          (before ++ between)).store := by
  intro before between after hevents
  rw [hevents] at h
  obtain ⟨hbefore, hbetween⟩ := allowedRun_append (allowedRun_append h).1
  have hr := respects_tightens parse calls
  rw [run_append]
  exact run_rel hr between (tracked_run hr before (tracked_launch hr) hbefore) hbetween

/-- A number in decimal digits. -/
def decimal (digits : List Char) : Option Nat :=
  if digits.all Char.isDigit then some (Nat.ofDigitChars 10 digits 0) else none

/-- Days since 1970-01-01, with years that begin in March. -/
def daysFromCivil (year month day : Nat) : Int :=
  let y := if month ≤ 2 then year - 1 else year
  let m := if month ≤ 2 then month + 9 else month - 3
  ((y * 365 + y / 4 - y / 100 + y / 400 + (153 * m + 2) / 5 + day - 1 : Nat) : Int) - 719468

/-- The seconds of a text in the form `2026-01-01T00:00:00Z`. -/
def utcInstant (s : String) : Option Int := do
  let cs := s.toList
  if [cs[4]?, cs[7]?, cs[10]?, cs[13]?, cs[16]?, cs[19]?, cs[20]?] ≠
      [some '-', some '-', some 'T', some ':', some ':', some 'Z', none] then none
  else
    let year ← decimal (cs.take 4)
    let month ← decimal ((cs.drop 5).take 2)
    let day ← decimal ((cs.drop 8).take 2)
    let hour ← decimal ((cs.drop 11).take 2)
    let minute ← decimal ((cs.drop 14).take 2)
    let second ← decimal ((cs.drop 17).take 2)
    if 1 ≤ month ∧ month ≤ 12 ∧ 1 ≤ day ∧ day ≤ 31 ∧ hour < 24 ∧ minute < 60 ∧ second < 60 then
      some (daysFromCivil year month day * 86400 + (hour * 3600 + minute * 60 + second : Nat))
    else none

/-- No statement fails. -/
def calmRegistry (reading : String) : (o : RevokeOp) → o.Fate
  | .getDeviceRevocation _ _ => (none : Option DbError)
  | .now => reading
  | .setDeviceRevocation _ _ _ _ => (none : Option DbError)

/-- A registry with one device that is not revoked. -/
def freshDevices : Devices where
  rows := [⟨"device-1", "org-1", "cam-1", "ed25519:AAAA", none, none⟩]
  uniqueId := by simp
  uniquePub := by simp
  primaryKey := by simp

def januaryRevoke : RevokeCall :=
  ⟨"org-1", "device-1", ⟨some "2026-01-01T00:00:00Z", some 5⟩⟩

def juneRevoke : RevokeCall :=
  ⟨"org-1", "device-1", ⟨some "2026-06-01T00:00:00Z", none⟩⟩

/-- The requests take their steps in this order. -/
def revokeTurns (turns : List Nat) : List (Event RevokeOp RevokeOp.Fate NewDevice) :=
  turns.map (fun i => .thread i (calmRegistry "2026-07-01T00:00:00Z"))

def revokePool (calls : List RevokeCall) :
    Pool Devices RevokeOp RevokeOp.Resp (Except RevokeRefusal RevokeResponse) :=
  launch freshDevices (calls.map (revokeDeviceHandler utcInstant))

theorem revocation_tightens_in_turn :
    Devices.Tightens utcInstant
      (run registry (revokePool [juneRevoke, januaryRevoke]) (revokeTurns [0, 0, 0])).store
      (run registry (revokePool [juneRevoke, januaryRevoke])
        (revokeTurns [0, 0, 0] ++ revokeTurns [1, 1, 1])).store ∧
    (run registry (revokePool [juneRevoke, januaryRevoke])
      (revokeTurns [0, 0, 0] ++ revokeTurns [1, 1, 1])).store.rows.map
        (fun r => (r.revokedAt, r.minEpoch)) = [(some "2026-01-01T00:00:00Z", some 5)] := by
  have hallowed : AllowedRun registry RowCurrent (revokePool [juneRevoke, januaryRevoke])
      (revokeTurns [0, 0, 0] ++ revokeTurns [1, 1, 1] ++ []) := by
    decide +kernel
  refine ⟨?_, by decide +kernel⟩
  exact revocation_tightens_of_current_rows utcInstant [juneRevoke, januaryRevoke] freshDevices _
    hallowed _ _ _ rfl

theorem racing_revokes_loosen :
    (run registry (revokePool [januaryRevoke, juneRevoke])
      (revokeTurns [0, 1, 0, 1, 0])).store.rows =
        [⟨"device-1", "org-1", "cam-1", "ed25519:AAAA", some "2026-01-01T00:00:00Z", some 5⟩] ∧
    (run registry (revokePool [januaryRevoke, juneRevoke])
      (revokeTurns [0, 1, 0, 1, 0, 1])).store.rows =
        [⟨"device-1", "org-1", "cam-1", "ed25519:AAAA", some "2026-06-01T00:00:00Z", none⟩] ∧
    ¬Devices.Tightens utcInstant
      (run registry (revokePool [januaryRevoke, juneRevoke]) (revokeTurns [0, 1, 0, 1, 0])).store
      (run registry (revokePool [januaryRevoke, juneRevoke])
        (revokeTurns [0, 1, 0, 1, 0, 1])).store := by
  have hfirst : (run registry (revokePool [januaryRevoke, juneRevoke])
      (revokeTurns [0, 1, 0, 1, 0])).store.rows =
        [⟨"device-1", "org-1", "cam-1", "ed25519:AAAA", some "2026-01-01T00:00:00Z", some 5⟩] := by
    decide +kernel
  have hlast : (run registry (revokePool [januaryRevoke, juneRevoke])
      (revokeTurns [0, 1, 0, 1, 0, 1])).store.rows =
        [⟨"device-1", "org-1", "cam-1", "ed25519:AAAA", some "2026-06-01T00:00:00Z", none⟩] := by
    decide +kernel
  refine ⟨hfirst, hlast, ?_⟩
  intro h
  obtain ⟨row', hrow', -, -, -, htight⟩ := h _ (by rw [hfirst]; exact List.mem_singleton_self _)
  rw [hlast, List.mem_singleton] at hrow'
  obtain ⟨r, hr, hearlier⟩ := htight.instant _ rfl
  rw [hrow'] at hr
  cases hr
  obtain ⟨rd, hrd, hle⟩ := hearlier 1767225600 (by decide +kernel)
  have hjune : utcInstant "2026-06-01T00:00:00Z" = some 1780272000 := by decide +kernel
  rw [hjune] at hrd
  cases hrd
  omega

end Sealedge
