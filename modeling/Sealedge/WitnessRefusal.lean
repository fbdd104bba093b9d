import Sealedge.SoloWitness

namespace Sealedge

open AtomicProgram

/-- The statuses 400, 401, 403 and 409. -/
def StatusCode.isClientError : StatusCode → Bool
  | internalServerError => false
  | _ => true

/-- If the request is refused as a client error, ledger and lineage are as they were. -/
def RefusalLeavesNoTrace (x : Crates) (fates : Fates) (req : WitnessRequest) (db : Db) : Prop :=
  ∀ r, (serveWitness x fates req db).1 = .error r → r.status.isClientError = true →
    (serveWitness x fates req db).2.witnessLog = db.witnessLog ∧
    (serveWitness x fates req db).2.deviceLineage = db.deviceLineage

/-- The row that the request inserts when its tip is recorded. -/
def recordedRow (fates : Fates) (req : WitnessRequest) (db : Db) : WitnessRow :=
  witnessRow req (db.revocationOf req.devicePub).isSome (fates .now)

/-- The tip is recorded, and then the attached rotation record is refused. -/
def RecordsThenRefuses (x : Crates) (fates : Fates) (req : WitnessRequest) (db : Db) : Prop :=
  (∃ prev, Admitted x fates req db (.record prev)) ∧
    fates (.witnessInsert (recordedRow fates req db)) = (none : Option DbError) ∧
    LineageRefused x fates req db

section Outcomes

variable {x : Crates} {fates : Fates} {req : WitnessRequest} {db : Db}

theorem serveWitness_record {prev : Option WitnessEntry}
    (h : Admitted x fates req db (.record prev))
    (hf : fates (.witnessInsert (recordedRow fates req db)) = (none : Option DbError)) :
    ∃ log, db.witnessLog.insert (recordedRow fates req db) = some log ∧
      serveWitness x fates req db = solo platform fates
        (checkLineage x req (db.revocationOf req.devicePub).isSome (fates .now) prev)
        { db with witnessLog := log } := by
  obtain ⟨log, hins⟩ : ∃ log, db.witnessLog.insert (recordedRow fates req db) = some log :=
    WitnessLog.insert_of_record h.decided
  refine ⟨log, hins, ?_⟩
  have hp : platform.perform (.witnessInsert (recordedRow fates req db)) (fates _) db =
      (.ok (), { db with witnessLog := log }) := by
    simp only [platform, performDb, hf, Db.insertWitness, hins]
    rfl
  rw [serveWitness_admitted h]
  exact solo_op hp

theorem serveWitness_record_fault {prev : Option WitnessEntry} {e : DbError}
    (h : Admitted x fates req db (.record prev))
    (hf : fates (.witnessInsert (recordedRow fates req db)) = (some e : Option DbError)) :
    ∃ r, serveWitness x fates req db = (.error r, db) := by
  have hp : platform.perform (.witnessInsert (recordedRow fates req db)) (fates _) db =
      (.error e, db) := by
    simp only [platform, performDb, hf]
  rw [serveWitness_admitted h]
  exact ⟨_, (solo_op hp).trans solo_refuse⟩

/-- All that a request served alone can do: be refused with nothing changed, or pass on to the
lineage check, after a replay or after its row has gone into the ledger. -/
theorem serveWitness_cases (x : Crates) (fates : Fates) (req : WitnessRequest) (db : Db) :
    (∃ r, serveWitness x fates req db = (.error r, db)) ∨
    (∃ e prev, Admitted x fates req db (.replay e prev) ∧
      serveWitness x fates req db = solo platform fates
        (checkLineage x req (db.revocationOf req.devicePub).isSome e.observedAt prev) db) ∨
    (∃ prev log, Admitted x fates req db (.record prev) ∧
      fates (.witnessInsert (recordedRow fates req db)) = (none : Option DbError) ∧
      db.witnessLog.insert (recordedRow fates req db) = some log ∧
      serveWitness x fates req db = solo platform fates
        (checkLineage x req (db.revocationOf req.devicePub).isSome (fates .now) prev)
        { db with witnessLog := log }) := by
  by_cases hadmitted : ∃ decision, Admitted x fates req db decision
  · obtain ⟨decision, h⟩ := hadmitted
    cases decision with
    | fork existingTip =>
      rw [serveWitness_admitted h]
      exact Or.inl ⟨_, solo_refuse⟩
    | rollback maxSequence =>
      rw [serveWitness_admitted h]
      exact Or.inl ⟨_, solo_refuse⟩
    | replay e prev => exact Or.inr (Or.inl ⟨e, prev, h, serveWitness_admitted h⟩)
    | record prev =>
      cases hf : (fates (.witnessInsert (recordedRow fates req db)) : Option DbError) with
      | some e => exact Or.inl (serveWitness_record_fault h hf)
      | none =>
        obtain ⟨log, hins, hrun⟩ := serveWitness_record h hf
        exact Or.inr (Or.inr ⟨prev, log, h, rfl, hins, hrun⟩)
  · exact Or.inl (serveWitness_not_admitted (fun decision h => hadmitted ⟨decision, h⟩))

/-- The row just inserted stands at the rotation's own sequence, so the lookup of the entry
before it is not affected. -/
theorem lineageRefused_insert {log : WitnessLog}
    (hins : db.witnessLog.insert (recordedRow fates req db) = some log) :
    LineageRefused x fates req { db with witnessLog := log } ↔ LineageRefused x fates req db := by
  have same : ∀ {rec oldPub rotationSeq},
      verifyLineageRotation x rec req.devicePub req.sequence req.tip = .ok oldPub rotationSeq →
      0 < rotationSeq →
      log.entryAt oldPub (rotationSeq - 1) = db.witnessLog.entryAt oldPub (rotationSeq - 1) := by
    intro rec oldPub rotationSeq hok hpos
    apply WitnessLog.entryAt_insert hins
    obtain ⟨-, -, -, -, -, hseq⟩ := verifyLineageRotation_ok hok
    intro heq
    have hsub : req.sequence = rotationSeq - 1 := congrArg Int64.toUInt64 heq
    rw [← hseq] at hsub
    have hnat := UInt64.lt_iff_toNat_lt.mp hpos
    have hle : (1 : UInt64) ≤ rotationSeq := by
      rw [UInt64.le_iff_toNat_le]
      exact hnat
    have hdec := UInt64.toNat_sub_of_le rotationSeq 1 hle
    rw [← hsub] at hdec
    have hone : (1 : UInt64).toNat = 1 := rfl
    omega
  constructor
  · rintro ⟨rec, hrec, hcase⟩
    refine ⟨rec, hrec, hcase.imp_right ?_⟩
    rintro ⟨oldPub, rotationSeq, entry, hok, hpos, hread, hentry, htip⟩
    exact ⟨oldPub, rotationSeq, entry, hok, hpos, hread, same hok hpos ▸ hentry, htip⟩
  · rintro ⟨rec, hrec, hcase⟩
    refine ⟨rec, hrec, hcase.imp_right ?_⟩
    rintro ⟨oldPub, rotationSeq, entry, hok, hpos, hread, hentry, htip⟩
    exact ⟨oldPub, rotationSeq, entry, hok, hpos, hread, (same hok hpos).trans hentry, htip⟩

theorem WitnessLog.ne_of_insert {log log' : WitnessLog} {row : WitnessRow}
    (h : log.insert row = some log') : log' ≠ log := by
  intro he
  have hlen := congrArg List.length (WitnessLog.insert_eq_some h)
  rw [he, List.length_append, List.length_singleton] at hlen
  omega

end Outcomes

/-- A refused request leaves no trace exactly when it is not one whose tip is recorded before its
rotation record is refused. -/
theorem refusal_leaves_no_trace_iff (x : Crates) (fates : Fates) (req : WitnessRequest) (db : Db) :
    RefusalLeavesNoTrace x fates req db ↔ ¬RecordsThenRefuses x fates req db := by
  constructor
  · rintro h ⟨⟨prev, hadmitted⟩, hf, hrefused⟩
    obtain ⟨log, hins, hrun⟩ := serveWitness_record hadmitted hf
    have hrefused' := (lineageRefused_insert hins).mpr hrefused
    obtain ⟨r, hout, hstatus⟩ := checkLineage_refused (db.revocationOf req.devicePub).isSome
      (fates .now) prev hrefused'
    rw [hout] at hrun
    have hclient : r.status.isClientError = true := by
      cases hr : r.status with
      | internalServerError => exact absurd hr hstatus
      | _ => rfl
    have hsame := (h r (by rw [hrun]) hclient).1
    rw [hrun] at hsame
    exact WitnessLog.ne_of_insert hins hsame
  · intro h r herr hclient
    have internal : ∀ {q db' db''}, serveWitness x fates req db = solo platform fates q db' →
        EndsIn fates q db' db'' .internalServerError → False := by
      rintro q db' db'' hrun ⟨result, hout, hstatus⟩
      rw [hrun, hout] at herr
      rw [hstatus r herr] at hclient
      cases hclient
    rcases serveWitness_cases x fates req db with ⟨r', hout⟩ | ⟨e, prev, -, hrun⟩ |
      ⟨prev, log, hadmitted, hf, hins, hrun⟩
    · rw [hout]
      exact ⟨rfl, rfl⟩
    · by_cases hrefused : LineageRefused x fates req db
      · obtain ⟨r', hout, -⟩ := checkLineage_refused (db.revocationOf req.devicePub).isSome
          e.observedAt prev hrefused
        rw [hrun, hout]
        exact ⟨rfl, rfl⟩
      · obtain ⟨db', hends, -⟩ := checkLineage_accepted hrefused
        exact (internal hrun hends).elim
    · have hrefused : ¬LineageRefused x fates req { db with witnessLog := log } := by
        intro hr
        exact h ⟨⟨prev, hadmitted⟩, hf, (lineageRefused_insert hins).mp hr⟩
      obtain ⟨db', hends, -⟩ := checkLineage_accepted hrefused
      exact (internal hrun hends).elim

/-- A record of another kind, which no rotation check accepts. -/
def strayRotation : RotationRecord where
  trstVersion := "0.2.0"
  kind := "archive"
  sequence := 5
  prevArchiveHash := "b3:00"
  old := { publicKey := "ed25519:old", keyEpoch := 0 }
  new := { publicKey := "ed25519:new", keyAgreementPublic := "x25519:new", keyEpoch := 1 }
  rotatedAt := "2026-01-01T00:00:00Z"
  sigOld := ""
  sigNew := ""

/-- The signature of a request does not cover the record attached to it. -/
def strayRequest : WitnessRequest :=
  { tipRequest 5 "b3:aa" with rotation := some strayRotation }

theorem refused_rotation_leaves_ledger_row :
    (serveWitness sampleCrates (calmFates "2026-01-01T00:00:00Z") strayRequest emptyDb).1 =
      .error ⟨.badRequest,
        "rotation lineage rejected: rotation co-signature/epoch verification failed"⟩ ∧
    (serveWitness sampleCrates (calmFates "2026-01-01T00:00:00Z") strayRequest emptyDb).2.witnessLog.rows =
      [witnessRow strayRequest false "2026-01-01T00:00:00Z"] ∧
    ¬RefusalLeavesNoTrace sampleCrates (calmFates "2026-01-01T00:00:00Z") strayRequest emptyDb := by
  have hverify : strayRequest.verify sampleCrates = true := tipRequest_verify 5 "b3:aa"
  have hserve : serveWitness sampleCrates (calmFates "2026-01-01T00:00:00Z") strayRequest emptyDb =
      solo platform (calmFates "2026-01-01T00:00:00Z") (loadState sampleCrates strayRequest)
        emptyDb := by
    rw [serveWitness, witnessHandler_of_verify hverify]
  have hresult : (serveWitness sampleCrates (calmFates "2026-01-01T00:00:00Z") strayRequest
      emptyDb).1 = .error ⟨.badRequest,
        "rotation lineage rejected: rotation co-signature/epoch verification failed"⟩ := by
    rw [hserve]
    decide +kernel
  have hrows : (serveWitness sampleCrates (calmFates "2026-01-01T00:00:00Z") strayRequest
      emptyDb).2.witnessLog.rows = [witnessRow strayRequest false "2026-01-01T00:00:00Z"] := by
    rw [hserve]
    decide +kernel
  refine ⟨hresult, hrows, ?_⟩
  intro h
  have hsame := (h _ hresult rfl).1
  rw [hsame] at hrows
  cases hrows

end Sealedge
