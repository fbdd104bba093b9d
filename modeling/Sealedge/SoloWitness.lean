import Sealedge.WitnessLedger

namespace Sealedge

open AtomicProgram

abbrev Fates := (o : DbOp) → o.Fate

/-- `witness_handler` alone on the database. -/
def serveWitness (x : Crates) (fates : Fates) (req : WitnessRequest) (db : Db) :
    Except Refusal IssuedReceipt × Db :=
  solo platform fates (witnessHandler x req) db

/-- The sequence at which the database reports the key to have rotated away. -/
def Db.supersededAt (db : Db) (fates : Fates) (devicePub : String) : Option UInt64 :=
  db.deviceLineage.rotationSeqOf devicePub (fates (.lineageRotationSeq devicePub)).2

/-- The request is signed, its reads succeed, and the decision on them passes both gates. -/
structure Admitted (x : Crates) (fates : Fates) (req : WitnessRequest) (db : Db)
    (decision : WitnessDecision) : Prop where
  verified : req.verify x = true
  revocationRead : fates (.getDeviceRevocationByPub req.devicePub) = (none : Option DbError)
  lineageRead : (fates (.lineageRotationSeq req.devicePub)).1 = none
  ledgerRead : fates (.witnessEntries req.devicePub) = (none : Option DbError)
  decided : decideWitness (db.witnessLog.entriesOf req.devicePub) req.sequence req.tip = decision
  notRevoked : refuseRevokedWitness
    (isRevoked ((db.revocationOf req.devicePub).getD RevocationState.default)) decision = false
  notSuperseded : refuseSuperseded (db.supersededAt fates req.devicePub) req.sequence decision = false

/-- The attached rotation record does not verify, or contradicts the old key's ledger. -/
def LineageRefused (x : Crates) (fates : Fates) (req : WitnessRequest) (db : Db) : Prop :=
  ∃ rec, req.rotation = some rec ∧
    ((∃ msg, verifyLineageRotation x rec req.devicePub req.sequence req.tip = .reject msg) ∨
      ∃ oldPub rotationSeq entry,
        verifyLineageRotation x rec req.devicePub req.sequence req.tip = .ok oldPub rotationSeq ∧
        0 < rotationSeq ∧
        fates (.witnessEntryAt oldPub (rotationSeq - 1)) = (none : Option DbError) ∧
        db.witnessLog.entryAt oldPub (rotationSeq - 1) = some entry ∧
        entry.tip ≠ rec.prevArchiveHash)

section Stages

variable {x : Crates} {fates : Fates} {req : WitnessRequest} {db : Db} {registered : Bool}
  {observedAt : String} {prev : Option WitnessEntry}

theorem perform_revocation {pub : String} {fault : Option DbError}
    (h : fates (.getDeviceRevocationByPub pub) = fault) :
    platform.perform (.getDeviceRevocationByPub pub) (fates _) db =
      (faulty fault (db.revocationOf pub), db) := by
  rw [← h]
  rfl

theorem perform_rotationSeq {pub : String} {fault : Option DbError}
    (h : (fates (.lineageRotationSeq pub)).1 = fault) :
    platform.perform (.lineageRotationSeq pub) (fates _) db =
      (faulty fault (db.supersededAt fates pub), db) := by
  rw [← h]
  rfl

theorem perform_entries {pub : String} {fault : Option DbError}
    (h : fates (.witnessEntries pub) = fault) :
    platform.perform (.witnessEntries pub) (fates _) db =
      (faulty fault (db.witnessLog.entriesOf pub), db) := by
  rw [← h]
  rfl

theorem perform_entryAt {pub : String} {sequence : UInt64} {fault : Option DbError}
    (h : fates (.witnessEntryAt pub sequence) = fault) :
    platform.perform (.witnessEntryAt pub sequence) (fates _) db =
      (faulty fault (db.witnessLog.entryAt pub sequence), db) := by
  rw [← h]
  rfl

theorem perform_lineageInsert {row : LineageRow}
    (h : fates (.lineageInsert row) = (none : Option DbError)) :
    platform.perform (.lineageInsert row) (fates _) db = (.ok (), db.insertLineage row) := by
  simp only [platform, performDb, h]

theorem perform_lineageInsert_fault {row : LineageRow} {e : DbError}
    (h : fates (.lineageInsert row) = (some e : Option DbError)) :
    platform.perform (.lineageInsert row) (fates _) db = (.error e, db) := by
  simp only [platform, performDb, h]

theorem solo_refuse {status : StatusCode} {message : String} :
    solo platform fates (refuse status message) db = (.error ⟨status, message⟩, db) := rfl

/-- The program leaves the database in this state and, if it refuses, then with this status. -/
def EndsIn (fates : Fates) (q : WitnessProg) (db db' : Db) (status : StatusCode) : Prop :=
  ∃ result, solo platform fates q db = (result, db') ∧ ∀ r, result = .error r → r.status = status

theorem endsIn_refuse {status : StatusCode} {message : String} :
    EndsIn fates (refuse status message) db db status := by
  refine ⟨_, solo_refuse, ?_⟩
  intro r hr
  cases hr
  rfl

theorem EndsIn.op {o : DbOp} {k : o.Resp → WitnessProg} {r : o.Resp} {s s' : Db}
    {status : StatusCode} (hp : platform.perform o (fates o) db = (r, s))
    (h : EndsIn fates (k r) s s' status) : EndsIn fates (.op o k) db s' status := by
  obtain ⟨result, hrun, hstatus⟩ := h
  exact ⟨result, (solo_op hp).trans hrun, hstatus⟩

theorem issueReceipt_ends :
    EndsIn fates (issueReceipt req registered observedAt prev) db db .internalServerError := by
  refine EndsIn.op rfl (EndsIn.op rfl ?_)
  split
  next => exact endsIn_refuse
  next =>
    refine ⟨_, rfl, ?_⟩
    intro r hr
    cases hr

theorem recordLineage_ends {oldPub : String} {rotationSeq : UInt64} :
    ∃ db', EndsIn fates (recordLineage req registered observedAt prev oldPub rotationSeq) db db'
        .internalServerError ∧
      (db' = db ∨ db' = db.insertLineage (lineageRow req oldPub rotationSeq observedAt)) := by
  cases hf : (fates (.lineageInsert (lineageRow req oldPub rotationSeq observedAt)) :
      Option DbError) with
  | some e => exact ⟨db, EndsIn.op (perform_lineageInsert_fault hf) endsIn_refuse, Or.inl rfl⟩
  | none => exact ⟨_, EndsIn.op (perform_lineageInsert hf) issueReceipt_ends, Or.inr rfl⟩

theorem checkLineage_refused (registered : Bool) (observedAt : String)
    (prev : Option WitnessEntry) (h : LineageRefused x fates req db) :
    ∃ r, solo platform fates (checkLineage x req registered observedAt prev) db = (.error r, db) ∧
      r.status ≠ .internalServerError := by
  obtain ⟨rec, hrec, hcase⟩ := h
  unfold checkLineage
  rw [hrec]
  dsimp only
  rcases hcase with ⟨msg, hreject⟩ | ⟨oldPub, rotationSeq, entry, hok, hpos, hread, hentry, htip⟩
  · rw [hreject]
    refine ⟨_, solo_refuse, ?_⟩
    simp
  · rw [hok]
    dsimp only
    rw [if_pos hpos, solo_op (perform_entryAt hread), hentry]
    dsimp only [faulty]
    rw [if_pos htip]
    refine ⟨_, solo_refuse, ?_⟩
    simp

theorem checkLineage_accepted (h : ¬LineageRefused x fates req db) :
    ∃ db', EndsIn fates (checkLineage x req registered observedAt prev) db db'
        .internalServerError ∧
      (db' = db ∨ ∃ rec oldPub rotationSeq, req.rotation = some rec ∧
        verifyLineageRotation x rec req.devicePub req.sequence req.tip = .ok oldPub rotationSeq ∧
        db' = db.insertLineage (lineageRow req oldPub rotationSeq observedAt)) := by
  unfold checkLineage
  split
  next => exact ⟨db, issueReceipt_ends, Or.inl rfl⟩
  next rec hrec =>
  split
  next msg hreject => exact absurd ⟨rec, hrec, Or.inl ⟨msg, hreject⟩⟩ h
  next oldPub rotationSeq hok =>
  have recorded : ∃ db', EndsIn fates
      (recordLineage req registered observedAt prev oldPub rotationSeq) db db'
        .internalServerError ∧
      (db' = db ∨ ∃ rec oldPub rotationSeq, req.rotation = some rec ∧
        verifyLineageRotation x rec req.devicePub req.sequence req.tip = .ok oldPub rotationSeq ∧
        db' = db.insertLineage (lineageRow req oldPub rotationSeq observedAt)) := by
    obtain ⟨db', hends, hdb⟩ := recordLineage_ends
    exact ⟨db', hends, hdb.imp_right (fun he => ⟨rec, oldPub, rotationSeq, hrec, hok, he⟩)⟩
  split
  next hpos =>
    cases hread : (fates (.witnessEntryAt oldPub (rotationSeq - 1)) : Option DbError) with
    | some e => exact ⟨db, EndsIn.op (perform_entryAt hread) endsIn_refuse, Or.inl rfl⟩
    | none =>
      have hp : platform.perform (.witnessEntryAt oldPub (rotationSeq - 1)) (fates _) db =
          (.ok (db.witnessLog.entryAt oldPub (rotationSeq - 1)), db) := perform_entryAt hread
      cases hentry : db.witnessLog.entryAt oldPub (rotationSeq - 1) with
      | none =>
        rw [hentry] at hp
        obtain ⟨db', hends, hdb⟩ := recorded
        exact ⟨db', EndsIn.op hp hends, hdb⟩
      | some entry =>
        rw [hentry] at hp
        have htip : entry.tip = rec.prevArchiveHash := by
          by_contra hne
          exact h ⟨rec, hrec, Or.inr ⟨oldPub, rotationSeq, entry, hok, hpos, hread, hentry, hne⟩⟩
        obtain ⟨db', hends, hdb⟩ := recorded
        refine ⟨db', EndsIn.op hp ?_, hdb⟩
        simpa [htip] using hends
  next => exact recorded

/-- A verified rotation record with nothing against it in the ledger is recorded. -/
theorem checkLineage_records {rec : RotationRecord} {oldPub : String} {rotationSeq : UInt64}
    (hrec : req.rotation = some rec)
    (hok : verifyLineageRotation x rec req.devicePub req.sequence req.tip = .ok oldPub rotationSeq)
    (hread : fates (.witnessEntryAt oldPub (rotationSeq - 1)) = (none : Option DbError))
    (hfree : db.witnessLog.entryAt oldPub (rotationSeq - 1) = none)
    (hinsert : fates (.lineageInsert (lineageRow req oldPub rotationSeq observedAt)) =
      (none : Option DbError)) :
    (solo platform fates (checkLineage x req registered observedAt prev) db).2 =
      db.insertLineage (lineageRow req oldPub rotationSeq observedAt) := by
  have hrecord : (solo platform fates
      (recordLineage req registered observedAt prev oldPub rotationSeq) db).2 =
      db.insertLineage (lineageRow req oldPub rotationSeq observedAt) := by
    have hends : EndsIn fates (recordLineage req registered observedAt prev oldPub rotationSeq) db
        (db.insertLineage (lineageRow req oldPub rotationSeq observedAt)) .internalServerError :=
      EndsIn.op (perform_lineageInsert hinsert) issueReceipt_ends
    obtain ⟨result, hrun, -⟩ := hends
    exact congrArg Prod.snd hrun
  unfold checkLineage
  rw [hrec]
  dsimp only
  rw [hok]
  dsimp only
  split
  next =>
    rw [solo_op (perform_entryAt hread), hfree]
    exact hrecord
  next => exact hrecord

/-- A request that is admitted acts on its decision with the database unchanged so far. -/
theorem serveWitness_admitted {decision : WitnessDecision} (h : Admitted x fates req db decision) :
    serveWitness x fates req db = solo platform fates
      (actOnDecision x req (db.revocationOf req.devicePub).isSome (fates .now) decision) db := by
  rw [serveWitness, witnessHandler_of_verify h.verified, loadState,
    solo_op (perform_revocation h.revocationRead)]
  dsimp only [faulty]
  rw [solo_op (perform_rotationSeq h.lineageRead)]
  dsimp only [faulty]
  rw [solo_op (perform_entries h.ledgerRead)]
  simp only [faulty, gateDecision, h.decided, h.notRevoked, h.notSuperseded, Bool.false_eq_true, ↓reduceIte]
  exact solo_op rfl

theorem serveWitness_not_admitted (h : ∀ decision, ¬Admitted x fates req db decision) :
    ∃ r, serveWitness x fates req db = (.error r, db) := by
  have refused : ∀ {status message}, ∃ r, solo platform fates (refuse status message) db =
      (.error r, db) := ⟨_, solo_refuse⟩
  unfold serveWitness witnessHandler
  cases hverify : req.verify x with
  | false => exact refused
  | true =>
  simp only [Bool.not_true, Bool.false_eq_true, ↓reduceIte, loadState]
  cases hrevocation : (fates (.getDeviceRevocationByPub req.devicePub) : Option DbError) with
  | some e =>
    rw [solo_op (perform_revocation hrevocation)]
    exact refused
  | none =>
  rw [solo_op (perform_revocation hrevocation)]
  dsimp only [faulty]
  cases hlineage : (fates (.lineageRotationSeq req.devicePub)).1 with
  | some e =>
    rw [solo_op (perform_rotationSeq hlineage)]
    exact refused
  | none =>
  rw [solo_op (perform_rotationSeq hlineage)]
  dsimp only [faulty]
  cases hledger : (fates (.witnessEntries req.devicePub) : Option DbError) with
  | some e =>
    rw [solo_op (perform_entries hledger)]
    exact refused
  | none =>
  rw [solo_op (perform_entries hledger)]
  dsimp only [faulty]
  simp only [gateDecision]
  split
  next => exact refused
  next hrevoked =>
  split
  next => exact refused
  next hsuperseded =>
    exact absurd ⟨hverify, hrevocation, hlineage, hledger, rfl, Bool.eq_false_iff.mpr hrevoked,
      Bool.eq_false_iff.mpr hsuperseded⟩ (h _)

end Stages

/-- A sequence above everything the device has leaves the primary key free. -/
theorem WitnessLog.insert_of_record {log : WitnessLog} {req : WitnessRequest} {registered : Bool}
    {observedNow : String} {prev : Option WitnessEntry}
    (h : decideWitness (log.entriesOf req.devicePub) req.sequence req.tip = .record prev) :
    ∃ log', log.insert (witnessRow req registered observedNow) = some log' := by
  have habove := (decideWitness_record h).2
  unfold WitnessLog.insert
  split
  next htaken =>
    obtain ⟨row, hrow, hkey⟩ := List.mem_map.mp htaken
    obtain ⟨hdev, hseq⟩ := Prod.mk.inj hkey
    have hlt := habove row.entry (WitnessLog.mem_entriesOf.mpr ⟨row, hrow, hdev, rfl⟩)
    have heq : row.entry.sequence = req.sequence := congrArg Int64.toUInt64 hseq
    rw [heq] at hlt
    exact absurd hlt (UInt64.lt_irrefl _)
  next => exact ⟨_, rfl⟩

theorem WitnessLog.entryAt_insert {log log' : WitnessLog} {row : WitnessRow} {devicePub : String}
    {sequence : UInt64} (hins : log.insert row = some log')
    (hseq : row.sequence ≠ Int64.ofUInt64 sequence) :
    log'.entryAt devicePub sequence = log.entryAt devicePub sequence := by
  unfold WitnessLog.entryAt
  rw [WitnessLog.insert_eq_some hins, List.find?_append]
  have hnew : [row].find? (fun r => r.devicePub == devicePub &&
      r.sequence == Int64.ofUInt64 sequence) = none := by
    simp [hseq]
  rw [hnew, Option.or_none]

end Sealedge
