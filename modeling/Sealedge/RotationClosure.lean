import Sealedge.WitnessLineage

namespace Sealedge

open AtomicProgram

/-- The row is the only one that leads away from its old key. -/
def OnlySuccessor (lineage : DeviceLineage) (row : LineageRow) : Prop :=
  ∀ other ∈ lineage.rows, other.oldPub = row.oldPub → other = row

section Closing

variable {x : Crates} {db db' : Db} {row : LineageRow}

/-- With one row for the old key, the lookup finds its sequence whatever row comes first. -/
theorem rotationSeqOf_only {lineage : DeviceLineage} (hrow : row ∈ lineage.rows)
    (honly : OnlySuccessor lineage row) (pick : Nat) :
    lineage.rotationSeqOf row.oldPub pick = some row.rotationSeq.toUInt64 := by
  unfold DeviceLineage.rotationSeqOf
  generalize hfound : lineage.rows.filter (fun r => r.oldPub == row.oldPub) = found
  have hmem : row ∈ found := by
    rw [← hfound]
    exact List.mem_filter.mpr ⟨hrow, by simp⟩
  have hpos : 0 < found.length := List.length_pos_of_mem hmem
  have hpick : pick % found.length < found.length := Nat.mod_lt _ hpos
  have hsame : found[pick % found.length] = row := by
    have hin : found[pick % found.length] ∈ lineage.rows.filter (fun r => r.oldPub == row.oldPub) :=
      hfound ▸ List.getElem_mem hpick
    obtain ⟨hin, hold⟩ := List.mem_filter.mp hin
    exact honly _ hin (by simpa using hold)
  simp only
  rw [List.getElem?_eq_getElem hpick, hsame, Option.map_some]

theorem not_admitted_beyond {fates : Fates} {req : WitnessRequest} {prev : Option WitnessEntry}
    (hrow : row ∈ db.deviceLineage.rows) (honly : OnlySuccessor db.deviceLineage row)
    (hdev : req.devicePub = row.oldPub) (hbeyond : row.rotationSeq.toUInt64 < req.sequence) :
    ¬Admitted x fates req db (.record prev) := by
  intro hadmitted
  have hpassed := hadmitted.notSuperseded
  rw [Db.supersededAt, hdev, rotationSeqOf_only hrow honly] at hpassed
  simp [refuseSuperseded, hbeyond, WitnessDecision.isRecord] at hpassed

theorem serveCall_closed {call : Call} (hrow : row ∈ db.deviceLineage.rows)
    (honly : OnlySuccessor db.deviceLineage row) {entry : WitnessEntry}
    (hentry : entry ∈ (serveCall x call db).witnessLog.entriesOf row.oldPub)
    (hbeyond : row.rotationSeq.toUInt64 < entry.sequence) :
    entry ∈ db.witnessLog.entriesOf row.oldPub := by
  cases call with
  | registry devices => exact hentry
  | witness fates req =>
    have hentry : entry ∈ (serveWitness x fates req db).2.witnessLog.entriesOf row.oldPub := hentry
    rcases serveWitness_log x fates req db with hsame | ⟨prev, hadmitted, hins⟩
    · rw [hsame] at hentry
      exact hentry
    · obtain ⟨r, hr, hdev, hre⟩ := WitnessLog.mem_entriesOf.mp hentry
      rw [WitnessLog.insert_eq_some hins] at hr
      rcases List.mem_append.mp hr with hold | hnew
      · exact WitnessLog.mem_entriesOf.mpr ⟨r, hold, hdev, hre⟩
      · rw [List.mem_singleton.mp hnew] at hdev hre
        rw [← hre] at hbeyond
        exact absurd hadmitted (not_admitted_beyond hrow honly hdev hbeyond)

end Closing

/-- Once a rotation is recorded as the only one from its old key, that key's ledger gains no entry
beyond the rotation, and what is co-signed there was in the ledger when it was recorded. -/
theorem rotation_closes_ledger {x : Crates} {db db' : Db} {row : LineageRow}
    (hrun : ServedRun x db db') (hrow : row ∈ db.deviceLineage.rows)
    (honly : OnlySuccessor db'.deviceLineage row) :
    (∀ entry ∈ db'.witnessLog.entriesOf row.oldPub,
      row.rotationSeq.toUInt64 < entry.sequence →
      entry ∈ db.witnessLog.entriesOf row.oldPub) ∧
    ∀ fates req issued, req.devicePub = row.oldPub → row.rotationSeq.toUInt64 < req.sequence →
      (serveWitness x fates req db').1 = .ok issued →
      ∃ entry ∈ db.witnessLog.entriesOf row.oldPub,
        entry.sequence = req.sequence ∧ entry.tip = req.tip := by
  have hclosed : ∀ entry ∈ db'.witnessLog.entriesOf row.oldPub,
      row.rotationSeq.toUInt64 < entry.sequence →
      entry ∈ db.witnessLog.entriesOf row.oldPub := by
    induction hrun with
    | refl => exact fun entry hentry _ => hentry
    | @tail s t hbefore hstep ih =>
      obtain ⟨call, rfl⟩ := hstep
      have hearlier : OnlySuccessor s.deviceLineage row := fun other hother =>
        honly other (serveCall_lineage_subset x call s other hother)
      have hstill := servedRun_lineage_subset hbefore row hrow
      intro entry hentry hbeyond
      exact ih hearlier entry (serveCall_closed hstill hearlier hentry hbeyond) hbeyond
  refine ⟨hclosed, ?_⟩
  intro fates req issued hdev hbeyond hissued
  have hstill := servedRun_lineage_subset hrun row hrow
  rcases serveWitness_cases x fates req db' with ⟨r, hout⟩ | ⟨e, prev, hadmitted, -⟩ |
    ⟨prev, log, hadmitted, -, -, -⟩
  · rw [hout] at hissued
    cases hissued
  · obtain ⟨-, hmem, hseq, htip⟩ := decideWitness_replay hadmitted.decided
    rw [hdev] at hmem
    exact ⟨e, hclosed e hmem (hseq ▸ hbeyond), hseq, htip⟩
  · exact absurd hadmitted (not_admitted_beyond hstill honly hdev hbeyond)

section OldKey

variable {x : Crates} (hx : x.SignsLawfully) (old new : DeviceKeypair)

/-- The old key asks for a tip at the sequence at which it was rotated away. -/
def boundaryRequest (x : Crates) (old : DeviceKeypair) : WitnessRequest :=
  .createSigned x old 1 "b3:aa" "2026-01-02T00:00:00Z"

/-- The database after the rotation and then the request of the old key. -/
def boundaryDb (x : Crates) (old new : DeviceKeypair) : Db :=
  serveCall x (.witness noonFates (boundaryRequest x old)) (rotatedDb x old new)

include hx

theorem rotatedDb_revocationOf (pub : String) : (rotatedDb x old new).revocationOf pub = none := by
  simp [Db.revocationOf, (rotatedDb_eq hx old new).1]

theorem boundary_admitted (hne : new.public x ≠ old.public x) :
    Admitted x noonFates (boundaryRequest x old) (rotatedDb x old new) (.record none) := by
  obtain ⟨-, -, hlineages⟩ := rotatedDb_eq hx old new
  have hsuperseded : (rotatedDb x old new).deviceLineage.rotationSeqOf (old.public x) 0 = some 1 := by
    simp [DeviceLineage.rotationSeqOf, hlineages, rotationRow, lineageRow]
  have hdecided : decideWitness ((rotatedDb x old new).witnessLog.entriesOf (old.public x)) 1 "b3:aa" =
      .record none := by
    rw [rotatedDb_entriesOf hx old new hne]
    rfl
  refine ⟨WitnessRequest.verify_createSigned hx _ _ _ _, rfl, rfl, rfl, hdecided, ?_, ?_⟩
  · show refuseRevokedWitness (isRevoked (((rotatedDb x old new).revocationOf
      (old.public x)).getD _)) _ = _
    rw [rotatedDb_revocationOf hx]
    rfl
  · show refuseSuperseded ((rotatedDb x old new).deviceLineage.rotationSeqOf
      (old.public x) 0) 1 _ = _
    rw [hsuperseded]
    rfl

theorem boundaryDb_eq (hne : new.public x ≠ old.public x) :
    (boundaryDb x old new).witnessLog.rows =
      [witnessRow (rotationRequest x old new) false "2026-01-01T12:00:00Z",
        witnessRow (boundaryRequest x old) false "2026-01-01T12:00:00Z"] ∧
    (boundaryDb x old new).deviceLineage.rows = [rotationRow x old new] := by
  obtain ⟨-, hrows, hlineages⟩ := rotatedDb_eq hx old new
  have hrow : recordedRow noonFates (boundaryRequest x old) (rotatedDb x old new) =
      witnessRow (boundaryRequest x old) false "2026-01-01T12:00:00Z" := by
    show witnessRow _ ((rotatedDb x old new).revocationOf (old.public x)).isSome _ = _
    rw [rotatedDb_revocationOf hx]
    rfl
  obtain ⟨log, hins, hserved⟩ := serveWitness_record (boundary_admitted hx old new hne) rfl
  have hended : (serveWitness x noonFates (boundaryRequest x old) (rotatedDb x old new)).2 =
      { rotatedDb x old new with witnessLog := log } := by
    rw [hserved]
    rfl
  rw [boundaryDb, serveCall, hended]
  refine ⟨?_, hlineages⟩
  show log.rows = _
  rw [WitnessLog.insert_eq_some hins, hrows, hrow]
  rfl

end OldKey

theorem rotation_closes_ledger_sample :
    OnlySuccessor (boundaryDb sampleCrates (sampleKey 1) (sampleKey 2)).deviceLineage
      (rotationRow sampleCrates (sampleKey 1) (sampleKey 2)) ∧
    ∀ entry ∈ (boundaryDb sampleCrates (sampleKey 1) (sampleKey 2)).witnessLog.entriesOf
        ((sampleKey 1).public sampleCrates), 1 < entry.sequence →
      entry ∈ (rotatedDb sampleCrates (sampleKey 1) (sampleKey 2)).witnessLog.entriesOf
        ((sampleKey 1).public sampleCrates) := by
  have hx := sampleCrates_signsLawfully
  have hne : (sampleKey 2).public sampleCrates ≠ (sampleKey 1).public sampleCrates := by
    decide +kernel
  have hrow : rotationRow sampleCrates (sampleKey 1) (sampleKey 2) ∈
      (rotatedDb sampleCrates (sampleKey 1) (sampleKey 2)).deviceLineage.rows := by
    rw [(rotatedDb_eq hx _ _).2.2]
    exact List.mem_singleton_self _
  have honly : OnlySuccessor (boundaryDb sampleCrates (sampleKey 1) (sampleKey 2)).deviceLineage
      (rotationRow sampleCrates (sampleKey 1) (sampleKey 2)) := by
    intro other hother _
    rw [(boundaryDb_eq hx _ _ hne).2] at hother
    exact List.mem_singleton.mp hother
  exact ⟨honly, (rotation_closes_ledger (Relation.ReflTransGen.single ⟨_, rfl⟩) hrow honly).1⟩

theorem rotation_sequence_cosigned_twice :
    ServedRun sampleCrates emptyDb (boundaryDb sampleCrates (sampleKey 1) (sampleKey 2)) ∧
    ∃ row ∈ (boundaryDb sampleCrates (sampleKey 1) (sampleKey 2)).deviceLineage.rows,
      (∃ e ∈ (boundaryDb sampleCrates (sampleKey 1) (sampleKey 2)).witnessLog.entriesOf row.oldPub,
        e.sequence = row.rotationSeq.toUInt64 ∧ e.tip = "b3:aa") ∧
      ∃ e ∈ (boundaryDb sampleCrates (sampleKey 1) (sampleKey 2)).witnessLog.entriesOf row.newPub,
        e.sequence = row.rotationSeq.toUInt64 := by
  have hne : (sampleKey 2).public sampleCrates ≠ (sampleKey 1).public sampleCrates := by
    decide +kernel
  obtain ⟨hrows, hlineages⟩ := boundaryDb_eq sampleCrates_signsLawfully _ _ hne
  refine ⟨?_, rotationRow sampleCrates (sampleKey 1) (sampleKey 2), ?_, ?_, ?_⟩
  · exact .tail (.single ⟨.witness noonFates (rotationRequest sampleCrates (sampleKey 1)
      (sampleKey 2)), rfl⟩) ⟨.witness noonFates (boundaryRequest sampleCrates (sampleKey 1)), rfl⟩
  · rw [hlineages]
    exact List.mem_singleton_self _
  · refine ⟨_, WitnessLog.mem_entriesOf.mpr ⟨witnessRow (boundaryRequest sampleCrates (sampleKey 1))
      false "2026-01-01T12:00:00Z", ?_, rfl, rfl⟩, rfl, rfl⟩
    rw [hrows]
    exact List.mem_cons_of_mem _ (List.mem_singleton_self _)
  · refine ⟨_, WitnessLog.mem_entriesOf.mpr ⟨witnessRow (rotationRequest sampleCrates (sampleKey 1)
      (sampleKey 2)) false "2026-01-01T12:00:00Z", ?_, rfl, rfl⟩, rfl⟩
    rw [hrows]
    exact List.mem_cons_self

end Sealedge
