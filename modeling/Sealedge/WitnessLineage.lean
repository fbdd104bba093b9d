import Sealedge.WitnessRefusal

namespace Sealedge

open AtomicProgram

/-- A call that the platform serves: a witness request, or one that changes the registry. -/
inductive Call
  | witness (fates : Fates) (req : WitnessRequest)
  | registry (devices : List DeviceRow)

def serveCall (x : Crates) : Call → Db → Db
  | .witness fates req, db => (serveWitness x fates req db).2
  | .registry devices, db => { db with devices := devices }

/-- A verified rotation that the call attaches starts from a key with no successor yet, or is one
whose new key the lineage already knows. -/
def ExtendsOpenKey (x : Crates) (db : Db) : Call → Prop
  | .witness _ req => ∀ rec oldPub rotationSeq, req.verify x = true → req.rotation = some rec →
      verifyLineageRotation x rec req.devicePub req.sequence req.tip = .ok oldPub rotationSeq →
      (∃ row ∈ db.deviceLineage.rows, row.newPub = req.devicePub) ∨
        ∀ row ∈ db.deviceLineage.rows, row.oldPub ≠ oldPub
  | .registry _ => True

/-- Calls served one at a time. -/
def ServedRun (x : Crates) : Db → Db → Prop :=
  Relation.ReflTransGen (fun s t => ∃ call, t = serveCall x call s)

/-- Calls served one at a time, each of them extending an open key only. -/
def GuardedRun (x : Crates) : Db → Db → Prop :=
  Relation.ReflTransGen (fun s t => ∃ call, ExtendsOpenKey x s call ∧ t = serveCall x call s)

/-- No key has two successors. -/
def OneSuccessor (db : Db) : Prop :=
  ∀ a ∈ db.deviceLineage.rows, ∀ b ∈ db.deviceLineage.rows, a.oldPub = b.oldPub → a = b

theorem DeviceLineage.insert_cases (lineage : DeviceLineage) (row : LineageRow) :
    ((∃ r ∈ lineage.rows, r.newPub = row.newPub) ∧ lineage.insert row = lineage) ∨
    ((∀ r ∈ lineage.rows, r.newPub ≠ row.newPub) ∧
      (lineage.insert row).rows = lineage.rows ++ [row]) := by
  unfold DeviceLineage.insert
  split
  next htaken =>
    obtain ⟨r, hr, hnew⟩ := List.mem_map.mp htaken
    exact Or.inl ⟨⟨r, hr, hnew⟩, rfl⟩
  next hfree =>
    refine Or.inr ⟨?_, rfl⟩
    intro r hr hnew
    exact hfree (List.mem_map.mpr ⟨r, hr, hnew⟩)

/-- The lineage changes only by the row of a signed request's verified rotation record. -/
theorem serveWitness_lineage (x : Crates) (fates : Fates) (req : WitnessRequest) (db : Db) :
    (serveWitness x fates req db).2.deviceLineage = db.deviceLineage ∨
    ∃ rec oldPub rotationSeq observedAt, req.verify x = true ∧ req.rotation = some rec ∧
      verifyLineageRotation x rec req.devicePub req.sequence req.tip = .ok oldPub rotationSeq ∧
      (serveWitness x fates req db).2.deviceLineage =
        db.deviceLineage.insert (lineageRow req oldPub rotationSeq observedAt) := by
  have stage : ∀ {registered observedAt prev db'}, req.verify x = true →
      serveWitness x fates req db =
        solo platform fates (checkLineage x req registered observedAt prev) db' →
      db'.deviceLineage = db.deviceLineage →
      (serveWitness x fates req db).2.deviceLineage = db.deviceLineage ∨
      ∃ rec oldPub rotationSeq observedAt, req.verify x = true ∧ req.rotation = some rec ∧
        verifyLineageRotation x rec req.devicePub req.sequence req.tip = .ok oldPub rotationSeq ∧
        (serveWitness x fates req db).2.deviceLineage =
          db.deviceLineage.insert (lineageRow req oldPub rotationSeq observedAt) := by
    intro registered observedAt prev db' hverify hrun hsame
    by_cases hrefused : LineageRefused x fates req db'
    · obtain ⟨r, hout, -⟩ := checkLineage_refused registered observedAt prev hrefused
      rw [hrun, hout]
      exact Or.inl hsame
    · obtain ⟨db'', ⟨result, hout, -⟩, hdb⟩ := checkLineage_accepted hrefused
      rw [hrun, hout]
      rcases hdb with rfl | ⟨rec, oldPub, rotationSeq, hrec, hok, rfl⟩
      · exact Or.inl hsame
      · refine Or.inr ⟨rec, oldPub, rotationSeq, observedAt, hverify, hrec, hok, ?_⟩
        show db'.deviceLineage.insert _ = _
        rw [hsame]
  rcases serveWitness_cases x fates req db with ⟨r, hout⟩ | ⟨e, prev, hadmitted, hrun⟩ |
    ⟨prev, log, hadmitted, -, -, hrun⟩
  · rw [hout]
    exact Or.inl rfl
  · exact stage hadmitted.verified hrun rfl
  · exact stage hadmitted.verified hrun rfl

theorem serveWitness_log (x : Crates) (fates : Fates) (req : WitnessRequest) (db : Db) :
    (serveWitness x fates req db).2.witnessLog = db.witnessLog ∨
    ∃ prev, Admitted x fates req db (.record prev) ∧
      db.witnessLog.insert (recordedRow fates req db) =
        some (serveWitness x fates req db).2.witnessLog := by
  have hlineage : ∀ registered observedAt prev db',
      (solo platform fates (checkLineage x req registered observedAt prev) db').2.witnessLog =
        db'.witnessLog := by
    intro registered observedAt prev db'
    by_cases hrefused : LineageRefused x fates req db'
    · obtain ⟨r, hout, -⟩ := checkLineage_refused registered observedAt prev hrefused
      rw [hout]
    · obtain ⟨db'', ⟨result, hout, -⟩, hdb⟩ := 
        @checkLineage_accepted x fates req db' registered observedAt prev hrefused
      rw [hout]
      rcases hdb with rfl | ⟨rec, oldPub, rotationSeq, -, -, rfl⟩
      · rfl
      · rfl
  rcases serveWitness_cases x fates req db with ⟨r, hout⟩ | ⟨e, prev, -, hrun⟩ |
    ⟨prev, log, hadmitted, -, hins, hrun⟩
  · rw [hout]
    exact Or.inl rfl
  · rw [hrun, hlineage]
    exact Or.inl rfl
  · refine Or.inr ⟨prev, hadmitted, ?_⟩
    rw [hrun, hins]
    exact congrArg some (hlineage (db.revocationOf req.devicePub).isSome (fates .now) prev
      { db with witnessLog := log }).symm

theorem serveCall_lineage_subset (x : Crates) (call : Call) (db : Db) :
    ∀ row ∈ db.deviceLineage.rows, row ∈ (serveCall x call db).deviceLineage.rows := by
  intro row hrow
  cases call with
  | registry devices => exact hrow
  | witness fates req =>
    rcases serveWitness_lineage x fates req db with hsame | ⟨_, _, _, observedAt, -, -, -, hins⟩
    · show row ∈ (serveWitness x fates req db).2.deviceLineage.rows
      rw [hsame]
      exact hrow
    · show row ∈ (serveWitness x fates req db).2.deviceLineage.rows
      rw [hins]
      rcases db.deviceLineage.insert_cases (lineageRow req _ _ observedAt) with
        ⟨-, hsame⟩ | ⟨-, hrows⟩
      · rw [hsame]
        exact hrow
      · rw [hrows]
        exact List.mem_append_left _ hrow

/-- One call that extends an open key keeps successors unique. -/
theorem oneSuccessor_step {x : Crates} {call : Call} {db : Db} (h : OneSuccessor db)
    (hopen : ExtendsOpenKey x db call) : OneSuccessor (serveCall x call db) := by
  cases call with
  | registry devices => exact h
  | witness fates req =>
    show OneSuccessor (serveWitness x fates req db).2
    unfold OneSuccessor
    rcases serveWitness_lineage x fates req db with hsame |
      ⟨rec, oldPub, rotationSeq, observedAt, hverify, hrec, hok, hins⟩
    · rw [hsame]
      exact h
    · rw [hins]
      rcases db.deviceLineage.insert_cases (lineageRow req oldPub rotationSeq observedAt) with
        ⟨-, hsame⟩ | ⟨hfresh, hrows⟩
      · rw [hsame]
        exact h
      · have hclosed : ∀ row ∈ db.deviceLineage.rows, row.oldPub ≠ oldPub := by
          rcases hopen rec oldPub rotationSeq hverify hrec hok with ⟨row, hrow, hnew⟩ | hnone
          · exact absurd hnew (hfresh row hrow)
          · exact hnone
        rw [hrows]
        intro a ha b hb hab
        rcases List.mem_append.mp ha with ha | ha
        · rcases List.mem_append.mp hb with hb | hb
          · exact h a ha b hb hab
          · cases List.mem_singleton.mp hb
            exact absurd hab (hclosed a ha)
        · cases List.mem_singleton.mp ha
          rcases List.mem_append.mp hb with hb | hb
          · exact absurd hab.symm (hclosed b hb)
          · exact (List.mem_singleton.mp hb).symm

theorem servedRun_lineage_subset {x : Crates} {db db' : Db} (h : ServedRun x db db') :
    ∀ row ∈ db.deviceLineage.rows, row ∈ db'.deviceLineage.rows := by
  induction h with
  | refl => exact fun _ hrow => hrow
  | @tail s t _ hstep ih =>
    obtain ⟨call, rfl⟩ := hstep
    intro row hrow
    exact serveCall_lineage_subset x call s row (ih row hrow)

theorem GuardedRun.served {x : Crates} {db db' : Db} (h : GuardedRun x db db') :
    ServedRun x db db' := by
  refine Relation.ReflTransGen.mono ?_ _ _ h
  rintro s t ⟨call, -, hcall⟩
  exact ⟨call, hcall⟩

theorem guardedRun_oneSuccessor {x : Crates} {db db' : Db} (h : GuardedRun x db db')
    (hdb : OneSuccessor db) : OneSuccessor db' := by
  induction h with
  | refl => exact hdb
  | tail _ hstep ih =>
    obtain ⟨call, hopen, rfl⟩ := hstep
    exact oneSuccessor_step ih hopen

/-- In every run from empty tables whose calls extend open keys only, a key that has got a
successor never gets another one. -/
theorem successor_unique_of_open_keys {x : Crates} {devices : List DeviceRow} {db db' : Db}
    (h : GuardedRun x ⟨devices, .empty, .empty⟩ db) (h' : GuardedRun x db db') :
    ∀ a ∈ db.deviceLineage.rows, ∀ b ∈ db'.deviceLineage.rows, a.oldPub = b.oldPub → a = b := by
  have hstart : OneSuccessor ⟨devices, .empty, .empty⟩ := by
    intro a ha
    cases ha
  have hlater := guardedRun_oneSuccessor h' (guardedRun_oneSuccessor h hstart)
  intro a ha b hb hab
  exact hlater a (servedRun_lineage_subset h'.served a ha) b hb hab

section RotationRuns

variable {x : Crates} (hx : x.SignsLawfully) (old new other : DeviceKeypair)

/-- A rotation that continues a key at its first entry. -/
def rotationTo (x : Crates) (old new : DeviceKeypair) : RotationRecord :=
  .createSigned x old 0 new "x25519:next" 1 "b3:00" "2026-01-01T00:00:00Z"

def rotationRequest (x : Crates) (old new : DeviceKeypair) : WitnessRequest :=
  { WitnessRequest.createSigned x new 1
      (formatArchiveId ((rotationTo x old new).archiveDigest x)) "2026-01-01T00:00:00Z" with
    rotation := some (rotationTo x old new) }

def noonFates : Fates := calmFates "2026-01-01T12:00:00Z"

def rotationRow (x : Crates) (old new : DeviceKeypair) : LineageRow :=
  lineageRow (rotationRequest x old new) (old.public x) 1 "2026-01-01T12:00:00Z"

theorem rotationRow_oldPub : (rotationRow x old new).oldPub = old.public x := rfl

theorem rotationRow_newPub : (rotationRow x old new).newPub = new.public x := rfl

include hx

theorem verifyLineageRotation_rotationRequest :
    verifyLineageRotation x (rotationTo x old new) (rotationRequest x old new).devicePub
      (rotationRequest x old new).sequence (rotationRequest x old new).tip =
      .ok (old.public x) 1 := by
  have hverify : (rotationTo x old new).verify x = true :=
    RotationRecord.verify_iff.mpr (RotationRecord.createSigned_cosigned hx (by decide) _ _ _ _)
  have hnew : (rotationTo x old new).new.publicKey = (rotationRequest x old new).devicePub := rfl
  have hseq : (rotationTo x old new).sequence = (rotationRequest x old new).sequence := rfl
  have htip : formatArchiveId ((rotationTo x old new).archiveDigest x) =
      (rotationRequest x old new).tip := rfl
  unfold verifyLineageRotation
  rw [hverify, if_neg (by simp), if_neg (by simp [hnew]), if_neg (by simp [hseq]),
    if_neg (by simp [htip])]
  rfl

theorem serveWitness_rotation {db : Db} (hunregistered : db.revocationOf (new.public x) = none)
    (hledger : db.witnessLog.entriesOf (new.public x) = [])
    (hlineage : db.deviceLineage.rotationSeqOf (new.public x) 0 = none)
    (hpredecessor : db.witnessLog.entryAt (old.public x) 0 = none) :
    ∃ log, db.witnessLog.insert
        (witnessRow (rotationRequest x old new) false "2026-01-01T12:00:00Z") = some log ∧
      (serveWitness x noonFates (rotationRequest x old new) db).2 =
        Db.insertLineage { db with witnessLog := log } (rotationRow x old new) := by
  have hrevocation : db.revocationOf (rotationRequest x old new).devicePub = none := hunregistered
  have hdecided : decideWitness (db.witnessLog.entriesOf (rotationRequest x old new).devicePub)
      (rotationRequest x old new).sequence (rotationRequest x old new).tip = .record none := by
    show decideWitness (db.witnessLog.entriesOf (new.public x)) _ _ = _
    rw [hledger]
    rfl
  have hadmitted : Admitted x noonFates (rotationRequest x old new) db (.record none) := by
    refine ⟨WitnessRequest.verify_createSigned hx _ _ _ _, rfl, rfl, rfl, hdecided, ?_, ?_⟩
    · rw [hrevocation]
      rfl
    · show refuseSuperseded (db.deviceLineage.rotationSeqOf (new.public x) 0) _ _ = _
      rw [hlineage]
      rfl
  have hrow : recordedRow noonFates (rotationRequest x old new) db =
      witnessRow (rotationRequest x old new) false "2026-01-01T12:00:00Z" := by
    rw [recordedRow, hrevocation]
    rfl
  obtain ⟨log, hins, hrun⟩ := serveWitness_record hadmitted rfl
  refine ⟨log, by rw [← hrow, hins], ?_⟩
  rw [hrun]
  refine checkLineage_records rfl (verifyLineageRotation_rotationRequest hx old new) rfl ?_ rfl
  show log.entryAt _ 0 = none
  have hseq : (witnessRow (rotationRequest x old new) false "2026-01-01T12:00:00Z").sequence ≠
      Int64.ofUInt64 0 := by
    show Int64.ofUInt64 1 ≠ Int64.ofUInt64 0
    decide
  rw [WitnessLog.entryAt_insert hins (by rw [hrow]; exact hseq), hpredecessor]

theorem serveWitness_rotationRequest {db : Db} (hdevices : db.devices = [])
    (hledger : db.witnessLog.entriesOf (new.public x) = [])
    (hlineage : db.deviceLineage.rotationSeqOf (new.public x) 0 = none)
    (hpredecessor : db.witnessLog.entryAt (old.public x) 0 = none) :
    ∃ log, db.witnessLog.insert
        (witnessRow (rotationRequest x old new) false "2026-01-01T12:00:00Z") = some log ∧
      (serveWitness x noonFates (rotationRequest x old new) db).2 =
        Db.insertLineage { db with witnessLog := log } (rotationRow x old new) := by
  have hunregistered : db.revocationOf (new.public x) = none := by
    simp [Db.revocationOf, hdevices]
  exact serveWitness_rotation hx old new hunregistered hledger hlineage hpredecessor

/-- The database after one rotation was witnessed. -/
def rotatedDb (x : Crates) (old new : DeviceKeypair) : Db :=
  serveCall x (.witness noonFates (rotationRequest x old new)) emptyDb

theorem rotatedDb_eq :
    (rotatedDb x old new).devices = [] ∧
    (rotatedDb x old new).witnessLog.rows =
      [witnessRow (rotationRequest x old new) false "2026-01-01T12:00:00Z"] ∧
    (rotatedDb x old new).deviceLineage.rows = [rotationRow x old new] := by
  have hledger : emptyDb.witnessLog.entriesOf (new.public x) = [] := rfl
  obtain ⟨log, hins, hrun⟩ := serveWitness_rotationRequest hx old new rfl hledger rfl rfl
  rw [rotatedDb, serveCall, hrun]
  exact ⟨rfl, WitnessLog.insert_eq_some hins, rfl⟩

theorem rotatedDb_entriesOf {pub : String} (hne : new.public x ≠ pub) :
    (rotatedDb x old new).witnessLog.entriesOf pub = [] := by
  have hdevice : (rotationRequest x old new).devicePub = new.public x := rfl
  simp [WitnessLog.entriesOf, (rotatedDb_eq hx old new).2.1, witnessRow, hdevice, hne]

/-- Witnessing one rotation, and then the same again, extends open keys only. -/
theorem guardedRun_replay :
    GuardedRun x emptyDb (rotatedDb x old new) ∧
    GuardedRun x (rotatedDb x old new)
      (serveCall x (.witness noonFates (rotationRequest x old new)) (rotatedDb x old new)) := by
  constructor
  · refine Relation.ReflTransGen.single ⟨.witness noonFates (rotationRequest x old new), ?_, rfl⟩
    intro rec oldPub rotationSeq _ _ _
    exact Or.inr (fun row hrow => by cases hrow)
  · refine Relation.ReflTransGen.single ⟨.witness noonFates (rotationRequest x old new), ?_, rfl⟩
    intro rec oldPub rotationSeq _ _ _
    refine Or.inl ⟨rotationRow x old new, ?_, rfl⟩
    rw [(rotatedDb_eq hx old new).2.2]
    exact List.mem_singleton_self _

/-- Nothing stops the key that has rotated away from rotating to another key. -/
theorem rotatedDb_second (hnew : new.public x ≠ other.public x)
    (hold : old.public x ≠ other.public x) (hfirst : new.public x ≠ old.public x) :
    (serveCall x (.witness noonFates (rotationRequest x old other))
      (rotatedDb x old new)).deviceLineage.rows =
      [rotationRow x old new, rotationRow x old other] := by
  obtain ⟨hdevices, hrows, hlineages⟩ := rotatedDb_eq hx old new
  have hdevice : (rotationRequest x old new).devicePub = new.public x := rfl
  have hledger := rotatedDb_entriesOf hx old new hnew
  have hlineage :
      (rotatedDb x old new).deviceLineage.rotationSeqOf (other.public x) 0 = none := by
    simp [DeviceLineage.rotationSeqOf, hlineages, rotationRow_oldPub, hold]
  have hpredecessor : (rotatedDb x old new).witnessLog.entryAt (old.public x) 0 = none := by
    simp [WitnessLog.entryAt, hrows, witnessRow, hdevice, hfirst]
  obtain ⟨log, -, hrun⟩ :=
    serveWitness_rotationRequest hx old other hdevices hledger hlineage hpredecessor
  rw [serveCall, hrun, Db.insertLineage]
  rcases (rotatedDb x old new).deviceLineage.insert_cases (rotationRow x old other) with
    ⟨⟨r, hr, htaken⟩, -⟩ | ⟨-, hins⟩
  · rw [hlineages] at hr
    cases List.mem_singleton.mp hr
    exact absurd htaken hnew
  · rw [hins, hlineages]
    rfl

end RotationRuns

theorem successor_unique_of_replay :
    rotationRow sampleCrates (sampleKey 1) (sampleKey 2) ∈
      (rotatedDb sampleCrates (sampleKey 1) (sampleKey 2)).deviceLineage.rows ∧
    ∀ b ∈ (serveCall sampleCrates
        (.witness noonFates (rotationRequest sampleCrates (sampleKey 1) (sampleKey 2)))
        (rotatedDb sampleCrates (sampleKey 1) (sampleKey 2))).deviceLineage.rows,
      (rotationRow sampleCrates (sampleKey 1) (sampleKey 2)).oldPub = b.oldPub →
        rotationRow sampleCrates (sampleKey 1) (sampleKey 2) = b := by
  obtain ⟨hfirst, hsecond⟩ := guardedRun_replay sampleCrates_signsLawfully
    (sampleKey 1) (sampleKey 2)
  have hmem : rotationRow sampleCrates (sampleKey 1) (sampleKey 2) ∈
      (rotatedDb sampleCrates (sampleKey 1) (sampleKey 2)).deviceLineage.rows := by
    rw [(rotatedDb_eq sampleCrates_signsLawfully _ _).2.2]
    exact List.mem_singleton_self _
  exact ⟨hmem, successor_unique_of_open_keys hfirst hsecond _ hmem⟩

theorem second_successor_recorded :
    ∃ a ∈ (serveCall sampleCrates
        (.witness noonFates (rotationRequest sampleCrates (sampleKey 1) (sampleKey 3)))
        (serveCall sampleCrates
          (.witness noonFates (rotationRequest sampleCrates (sampleKey 1) (sampleKey 2)))
          emptyDb)).deviceLineage.rows,
    ∃ b ∈ (serveCall sampleCrates
        (.witness noonFates (rotationRequest sampleCrates (sampleKey 1) (sampleKey 3)))
        (serveCall sampleCrates
          (.witness noonFates (rotationRequest sampleCrates (sampleKey 1) (sampleKey 2)))
          emptyDb)).deviceLineage.rows,
      a.oldPub = b.oldPub ∧ a.newPub ≠ b.newPub := by
  have hnew : (sampleKey 2).public sampleCrates ≠ (sampleKey 3).public sampleCrates := by
    decide +kernel
  have hold : (sampleKey 1).public sampleCrates ≠ (sampleKey 3).public sampleCrates := by
    decide +kernel
  have hfirst : (sampleKey 2).public sampleCrates ≠ (sampleKey 1).public sampleCrates := by
    decide +kernel
  have hrows := rotatedDb_second sampleCrates_signsLawfully _ _ _ hnew hold hfirst
  rw [rotatedDb] at hrows
  rw [hrows]
  refine ⟨_, List.mem_cons_self, _, List.mem_cons_of_mem _ (List.mem_singleton_self _), ?_, ?_⟩
  · rw [rotationRow_oldPub, rotationRow_oldPub]
  · rw [rotationRow_newPub, rotationRow_newPub]
    exact hnew

end Sealedge
