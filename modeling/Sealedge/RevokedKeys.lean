import Sealedge.RevokeMonotone
import Sealedge.WitnessLineage

namespace Sealedge

open AtomicProgram

/-- The tables of the witness and revoke endpoints. -/
structure PlatformTables where
  devices : Devices
  witnessLog : WitnessLog
  deviceLineage : DeviceLineage

/-- The tables as the witness endpoint reads them. -/
def PlatformTables.db (s : PlatformTables) : Db where
  devices := s.devices.rows.map (fun r => ⟨r.devicePub, r.revocation⟩)
  witnessLog := s.witnessLog
  deviceLineage := s.deviceLineage

/-- A call that the platform serves, with what happens outside meanwhile. -/
inductive PlatformCall
  | witness (fates : Fates) (req : WitnessRequest)
  | revoke (fates : (o : RevokeOp) → o.Fate) (call : RevokeCall)
  | register (device : NewDevice)

section Calls

variable (x : Crates) (parse : InstantReader)

def PlatformTables.serve (s : PlatformTables) : PlatformCall → PlatformTables
  | .witness fates req =>
    { s with
      witnessLog := (serveWitness x fates req s.db).2.witnessLog
      deviceLineage := (serveWitness x fates req s.db).2.deviceLineage }
  | .revoke fates call =>
    { s with devices := (solo registry fates (revokeDeviceHandler parse call) s.devices).2 }
  | .register device => { s with devices := registry.disturb device s.devices }

/-- Calls served one at a time. -/
def CallRun : PlatformTables → PlatformTables → Prop :=
  Relation.ReflTransGen (fun s t => ∃ call, t = s.serve x parse call)

end Calls

/-- The key is registered and revoked. -/
def PlatformTables.Revoked (s : PlatformTables) (key : String) : Prop :=
  ∃ row ∈ s.devices.rows, row.devicePub = key ∧ row.revokedAt.isSome = true

/-- A verified rotation that the call attaches does not start from a revoked key, or is one whose
new key the lineage already knows. -/
def HandsOverUnrevoked (x : Crates) (s : PlatformTables) : PlatformCall → Prop
  | .witness _ req => ∀ rec oldPub rotationSeq, req.verify x = true → req.rotation = some rec →
      verifyLineageRotation x rec req.devicePub req.sequence req.tip = .ok oldPub rotationSeq →
      (∃ row ∈ s.deviceLineage.rows, row.newPub = req.devicePub) ∨ ¬s.Revoked oldPub
  | _ => True

/-- Calls served one at a time, none of them handing over a revoked chronicle. -/
def UnrevokedRun (x : Crates) (parse : InstantReader) : PlatformTables → PlatformTables → Prop :=
  Relation.ReflTransGen (fun s t => ∃ call, HandsOverUnrevoked x s call ∧ t = s.serve x parse call)

section Steps

variable {x : Crates} {parse : InstantReader} {s t : PlatformTables} {key : String}

theorem revocationOf_registered {row : DeviceRecord} (hrow : row ∈ s.devices.rows) :
    s.db.revocationOf row.devicePub = some row.revocation := by
  have hfind := find?_of_nodup s.devices.uniquePub hrow
  rw [Db.revocationOf, PlatformTables.db, List.find?_map, Option.map_map]
  show ((s.devices.rows.find? (fun r => r.devicePub == row.devicePub)).map _) = _
  rw [hfind]
  rfl

theorem not_admitted_of_revoked {fates : Fates} {req : WitnessRequest}
    {prev : Option WitnessEntry} (h : s.Revoked req.devicePub) :
    ¬Admitted x fates req s.db (.record prev) := by
  obtain ⟨row, hrow, hpub, hrevoked⟩ := h
  intro hadmitted
  have hfree := hadmitted.notRevoked
  rw [← hpub, revocationOf_registered hrow, Option.getD_some] at hfree
  have hstate : isRevoked row.revocation = true := hrevoked
  rw [hstate] at hfree
  cases hfree

theorem performRevoke_keeps_revoked (o : RevokeOp) (fate : o.Fate) (devices : Devices)
    (h : ∃ row ∈ devices.rows, row.devicePub = key ∧ row.revokedAt.isSome = true) :
    ∃ row ∈ (performRevoke o fate devices).2.rows,
      row.devicePub = key ∧ row.revokedAt.isSome = true := by
  rcases performRevoke_cases o fate devices with hsame | ⟨orgId, id, revokedAt, minEpoch, -, hset⟩
  · rw [hsame]
    exact h
  · obtain ⟨row, hrow, hpub, hrevoked⟩ := h
    rw [hset]
    refine ⟨_, List.mem_map_of_mem hrow, (Devices.updated_keeps _ _ _ _ row).2.2.2.trans hpub, ?_⟩
    unfold Devices.updated
    split
    next => rfl
    next => exact hrevoked

theorem PlatformTables.Revoked.serve (h : s.Revoked key) (call : PlatformCall) :
    (s.serve x parse call).Revoked key := by
  cases call with
  | witness fates req => exact h
  | revoke fates call =>
    exact solo_preserves (P := fun devices : Devices => ∃ row ∈ devices.rows,
      row.devicePub = key ∧ row.revokedAt.isSome = true)
      (fun o fate devices hd => performRevoke_keeps_revoked o fate devices hd) fates _ h
  | register device =>
    obtain ⟨row, hrow, hpub, hrevoked⟩ := h
    have htightens : s.devices.Tightens parse (registry.disturb device s.devices) :=
      Devices.createDevice_tightens device.record
    obtain ⟨row', hrow', -, -, hpub', htight⟩ := htightens row hrow
    obtain ⟨at', hat⟩ := Option.isSome_iff_exists.mp hrevoked
    obtain ⟨r, hr, -⟩ := htight.instant at' hat
    have hsome : row'.revokedAt = some r := hr
    exact ⟨row', hrow', hpub'.trans hpub, by rw [hsome]; rfl⟩

theorem serve_log_of_revoked (h : s.Revoked key) (call : PlatformCall) :
    ∀ row ∈ (s.serve x parse call).witnessLog.rows, row.devicePub = key →
      row ∈ s.witnessLog.rows := by
  intro row hrow hpub
  cases call with
  | revoke fates call => exact hrow
  | register device => exact hrow
  | witness fates req =>
    have hrow : row ∈ (serveWitness x fates req s.db).2.witnessLog.rows := hrow
    rcases serveWitness_log x fates req s.db with hsame | ⟨prev, hadmitted, hins⟩
    · rw [hsame] at hrow
      exact hrow
    · rw [WitnessLog.insert_eq_some hins] at hrow
      rcases List.mem_append.mp hrow with hold | hnew
      · exact hold
      · have hdev : req.devicePub = key := by
          rw [← hpub, List.mem_singleton.mp hnew]
          rfl
        exact absurd hadmitted (not_admitted_of_revoked (hdev ▸ h))

/-- One call that hands over no revoked chronicle adds no lineage row from a revoked key. -/
theorem serve_lineage_of_revoked {call : PlatformCall} (h : s.Revoked key)
    (hcall : HandsOverUnrevoked x s call) :
    ∀ row ∈ (s.serve x parse call).deviceLineage.rows, row.oldPub = key →
      row ∈ s.deviceLineage.rows := by
  intro row hrow hold
  cases call with
  | revoke fates call => exact hrow
  | register device => exact hrow
  | witness fates req =>
    have hrow : row ∈ (serveWitness x fates req s.db).2.deviceLineage.rows := hrow
    rcases serveWitness_lineage x fates req s.db with hsame |
      ⟨rec, oldPub, rotationSeq, observedAt, hverify, hrec, hok, hins⟩
    · rw [hsame] at hrow
      exact hrow
    · rw [hins] at hrow
      rcases s.db.deviceLineage.insert_cases (lineageRow req oldPub rotationSeq observedAt) with
        ⟨-, hsame⟩ | ⟨hfresh, hrows⟩
      · rw [hsame] at hrow
        exact hrow
      · rw [hrows] at hrow
        rcases List.mem_append.mp hrow with hmem | hnew
        · exact hmem
        · have hkey : oldPub = key := by
            rw [← hold, List.mem_singleton.mp hnew]
            rfl
          rcases hcall rec oldPub rotationSeq hverify hrec hok with ⟨r, hr, hknown⟩ | hfree
          · exact absurd hknown (hfresh r hr)
          · exact absurd (hkey ▸ h) hfree

end Steps

/-- Once a registered key is revoked, no call adds a ledger row under it, and no call adds a
lineage row from it in a run where no verified rotation starts from a revoked key. -/
theorem revoked_chronicle_ends {x : Crates} {parse : InstantReader} {s : PlatformTables}
    {key : String} (hrevoked : s.Revoked key) :
    (∀ t, CallRun x parse s t →
      ∀ row ∈ t.witnessLog.rows, row.devicePub = key → row ∈ s.witnessLog.rows) ∧
    ∀ t, UnrevokedRun x parse s t →
      (∀ row ∈ t.witnessLog.rows, row.devicePub = key → row ∈ s.witnessLog.rows) ∧
      ∀ row ∈ t.deviceLineage.rows, row.oldPub = key → row ∈ s.deviceLineage.rows := by
  have hledger : ∀ t, CallRun x parse s t → t.Revoked key ∧
      ∀ row ∈ t.witnessLog.rows, row.devicePub = key → row ∈ s.witnessLog.rows := by
    intro t hrun
    induction hrun with
    | refl => exact ⟨hrevoked, fun row hrow _ => hrow⟩
    | @tail b c _ hstep ih =>
      obtain ⟨call, rfl⟩ := hstep
      refine ⟨ih.1.serve call, ?_⟩
      intro row hrow hpub
      exact ih.2 row (serve_log_of_revoked ih.1 call row hrow hpub) hpub
  have hforget : ∀ t, UnrevokedRun x parse s t → CallRun x parse s t := fun t hrun =>
    Relation.ReflTransGen.mono (fun _ _ ⟨call, _, hserve⟩ => ⟨call, hserve⟩) _ _ hrun
  refine ⟨fun t hrun => (hledger t hrun).2, fun t hrun => ⟨(hledger t (hforget t hrun)).2, ?_⟩⟩
  induction hrun with
  | refl => exact fun row hrow _ => hrow
  | @tail b c hbefore hstep ih =>
    obtain ⟨call, hcall, rfl⟩ := hstep
    intro row hrow hold
    have hstill := (hledger b (hforget b hbefore)).1
    exact ih row (serve_lineage_of_revoked hstill hcall row hrow hold) hold

section RevokedRuns

/-- One registered device, and nothing witnessed yet. -/
def registeredTables (key : String) : PlatformTables where
  devices :=
    { rows := [⟨"device-1", "org-1", "cam-1", key, none, none⟩]
      uniqueId := List.nodup_singleton _
      uniquePub := List.nodup_singleton _
      primaryKey := List.nodup_singleton _ }
  witnessLog := .empty
  deviceLineage := .empty

/-- Its organization revokes the device as of now. -/
def revokeNow : PlatformCall :=
  .revoke (calmRegistry "2026-07-01T00:00:00Z") ⟨"org-1", "device-1", ⟨none, none⟩⟩

def revokedTables (x : Crates) (key : String) : PlatformTables :=
  (registeredTables key).serve x utcInstant revokeNow

theorem revokedTables_rows (x : Crates) (key : String) :
    (revokedTables x key).devices.rows =
      [⟨"device-1", "org-1", "cam-1", key, some "2026-07-01T00:00:00Z", none⟩] := by
  rfl

theorem revokedTables_revoked (x : Crates) (key : String) : (revokedTables x key).Revoked key := by
  unfold PlatformTables.Revoked
  rw [revokedTables_rows]
  exact ⟨_, List.mem_singleton_self _, rfl, rfl⟩

theorem revokedTables_unregistered {x : Crates} {key other : String} (h : key ≠ other) :
    ¬(revokedTables x key).Revoked other := by
  rintro ⟨row, hrow, hpub, -⟩
  rw [revokedTables_rows, List.mem_singleton] at hrow
  rw [hrow] at hpub
  exact h hpub

variable {x : Crates} (hx : x.SignsLawfully) (key : String) (old new : DeviceKeypair)

include hx

theorem revokedTables_rotation (h : key ≠ new.public x) :
    ((revokedTables x key).serve x utcInstant
      (.witness noonFates (rotationRequest x old new))).deviceLineage.rows =
      [rotationRow x old new] := by
  have hunregistered : (revokedTables x key).db.revocationOf (new.public x) = none := by
    rw [Db.revocationOf, PlatformTables.db, revokedTables_rows]
    simp [h]
  obtain ⟨log, -, hrun⟩ := serveWitness_rotation hx old new hunregistered rfl rfl rfl
  show (serveWitness x noonFates (rotationRequest x old new)
    (revokedTables x key).db).2.deviceLineage.rows = _
  rw [hrun]
  rfl

/-- A rotation that starts from another key hands over no revoked chronicle. -/
theorem revokedTables_unrevokedRun (h : key ≠ old.public x) :
    UnrevokedRun x utcInstant (revokedTables x key)
      ((revokedTables x key).serve x utcInstant
        (.witness noonFates (rotationRequest x old new))) := by
  refine Relation.ReflTransGen.single ⟨_, ?_, rfl⟩
  intro rec oldPub rotationSeq _ hrec hok
  have hrec : rotationTo x old new = rec := Option.some.inj hrec
  rw [← hrec, verifyLineageRotation_rotationRequest hx] at hok
  obtain ⟨rfl, -⟩ := LineageCheck.ok.inj hok
  exact Or.inr (revokedTables_unregistered h)

end RevokedRuns

theorem revoked_chronicle_ends_sample :
    (revokedTables sampleCrates ((sampleKey 1).public sampleCrates)).Revoked
      ((sampleKey 1).public sampleCrates) ∧
    ∀ row ∈ ((revokedTables sampleCrates ((sampleKey 1).public sampleCrates)).serve sampleCrates
        utcInstant (.witness noonFates
          (rotationRequest sampleCrates (sampleKey 2) (sampleKey 3)))).deviceLineage.rows,
      row.oldPub ≠ (sampleKey 1).public sampleCrates := by
  have hx := sampleCrates_signsLawfully
  have hold : (sampleKey 1).public sampleCrates ≠ (sampleKey 2).public sampleCrates := by
    decide +kernel
  have hrevoked := revokedTables_revoked sampleCrates ((sampleKey 1).public sampleCrates)
  refine ⟨hrevoked, ?_⟩
  have hrun := revokedTables_unrevokedRun hx _ (sampleKey 2) (sampleKey 3) hold
  intro row hrow hpub
  have hthere := ((revoked_chronicle_ends hrevoked).2 _ hrun).2 row hrow hpub
  cases hthere

theorem revoked_key_hands_over :
    (revokedTables sampleCrates ((sampleKey 1).public sampleCrates)).Revoked
      ((sampleKey 1).public sampleCrates) ∧
    (revokedTables sampleCrates
      ((sampleKey 1).public sampleCrates)).deviceLineage.rows = [] ∧
    ∃ row ∈ ((revokedTables sampleCrates ((sampleKey 1).public sampleCrates)).serve sampleCrates
        utcInstant (.witness noonFates
          (rotationRequest sampleCrates (sampleKey 1) (sampleKey 2)))).deviceLineage.rows,
      row.oldPub = (sampleKey 1).public sampleCrates ∧
      row.newPub = (sampleKey 2).public sampleCrates := by
  have hnew : (sampleKey 1).public sampleCrates ≠ (sampleKey 2).public sampleCrates := by
    decide +kernel
  refine ⟨revokedTables_revoked _ _, rfl, ?_⟩
  rw [revokedTables_rotation sampleCrates_signsLawfully _ (sampleKey 1) (sampleKey 2) hnew]
  exact ⟨_, List.mem_singleton_self _, rotationRow_oldPub _ _, rotationRow_newPub _ _⟩

end Sealedge
