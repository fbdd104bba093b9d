import Sealedge.WitnessLedger

namespace Sealedge

open AtomicProgram

/-- From one state to the next the ledger of every device only gains rows above all that it has. -/
def AppendsAbove (s t : Db) : Prop :=
  LedgerGrows s t ∧ ∀ row ∈ t.witnessLog.rows, row ∉ s.witnessLog.rows →
    ∀ r ∈ s.witnessLog.rows, r.devicePub = row.devicePub → r.entry.sequence < row.entry.sequence

/-- If the exchange is a load of the device's ledger, it is the ledger of this state. -/
def LoadIsCurrent (db : Db) (devicePub : String) : WitnessExchange → Prop
  | ⟨.witnessEntries pub, resp⟩ =>
    pub = devicePub → ∀ existing, (resp : Except DbError (List WitnessEntry)) = .ok existing →
      existing = db.witnessLog.entriesOf devicePub
  | _ => True

/-- A request inserts its row only while the device's ledger is still the one it has loaded. -/
def SnapshotCurrent (db : Db) (log : List WitnessExchange) : DbOp → Prop
  | .witnessInsert row => ∀ e ∈ log, LoadIsCurrent db row.devicePub e
  | _ => True

instance LoadIsCurrent.decidable (db : Db) (devicePub : String) :
    (e : WitnessExchange) → Decidable (LoadIsCurrent db devicePub e)
  | ⟨.witnessEntries pub, .ok existing⟩ =>
    decidable_of_iff (pub = devicePub → existing = db.witnessLog.entriesOf devicePub)
      ⟨fun h hpub _ he => Except.ok.inj he ▸ h hpub, fun h hpub => h hpub existing rfl⟩
  | ⟨.witnessEntries _, .error _⟩ => isTrue (fun _ _ he => by cases he)
  | ⟨.getDeviceRevocationByPub _, _⟩ => isTrue trivial
  | ⟨.lineageRotationSeq _, _⟩ => isTrue trivial
  | ⟨.now, _⟩ => isTrue trivial
  | ⟨.witnessInsert _, _⟩ => isTrue trivial
  | ⟨.witnessEntryAt _ _, _⟩ => isTrue trivial
  | ⟨.lineageInsert _, _⟩ => isTrue trivial
  | ⟨.newUuid, _⟩ => isTrue trivial
  | ⟨.signWitnessJws _, _⟩ => isTrue trivial

instance SnapshotCurrent.decidable (db : Db) (log : List WitnessExchange) :
    (o : DbOp) → Decidable (SnapshotCurrent db log o)
  | .witnessInsert row => inferInstanceAs (Decidable (∀ e ∈ log, LoadIsCurrent db row.devicePub e))
  | .getDeviceRevocationByPub _ => isTrue trivial
  | .lineageRotationSeq _ => isTrue trivial
  | .witnessEntries _ => isTrue trivial
  | .now => isTrue trivial
  | .witnessEntryAt _ _ => isTrue trivial
  | .lineageInsert _ => isTrue trivial
  | .newUuid => isTrue trivial
  | .signWitnessJws _ => isTrue trivial

theorem AppendsAbove.refl (s : Db) : AppendsAbove s s :=
  ⟨fun _ hrow => hrow, fun _ hrow hnew => absurd hrow hnew⟩

theorem AppendsAbove.trans {s t u : Db} (hst : AppendsAbove s t) (htu : AppendsAbove t u) :
    AppendsAbove s u := by
  refine ⟨fun row hrow => htu.1 row (hst.1 row hrow), ?_⟩
  intro row hrow hnew r hr hdev
  by_cases hmid : row ∈ t.witnessLog.rows
  · exact hst.2 row hmid hnew r hr hdev
  · exact htu.2 row hrow hmid r (hst.1 r hr) hdev

theorem appendsAbove_of_ledger_eq {s t : Db} (h : t.witnessLog = s.witnessLog) :
    AppendsAbove s t := by
  refine ⟨?_, ?_⟩
  · intro row hrow
    rwa [h]
  · intro row hrow hnew
    rw [h] at hrow
    exact absurd hrow hnew

theorem appendsAbove_insert {s t : Db} {row : WitnessRow}
    (hins : s.witnessLog.insert row = some t.witnessLog)
    (habove : ∀ e ∈ s.witnessLog.entriesOf row.devicePub, e.sequence < row.entry.sequence) :
    AppendsAbove s t := by
  have hrows := WitnessLog.insert_eq_some hins
  refine ⟨?_, ?_⟩
  · intro r hr
    rw [hrows]
    exact List.mem_append_left _ hr
  · intro new hnew hfresh r hr hdev
    rw [hrows] at hnew
    rcases List.mem_append.mp hnew with hold | hlast
    · exact absurd hold hfresh
    · cases List.mem_singleton.mp hlast
      exact habove r.entry (WitnessLog.mem_entriesOf.mpr ⟨r, hr, hdev, rfl⟩)

theorem respects_appendsAbove (x : Crates) (reqs : List WitnessRequest) :
    Respects platform (reqs.map (witnessHandler x)) SnapshotCurrent AppendsAbove where
  refl := AppendsAbove.refl
  trans := AppendsAbove.trans
  other _ _ := appendsAbove_of_ledger_eq rfl
  own := by
    intro p hp log o k hf s fate hal
    obtain ⟨req, -, rfl⟩ := List.mem_map.mp hp
    rcases performDb_ledger o fate s with hsame | ⟨row, rfl, hins⟩
    · exact appendsAbove_of_ledger_eq hsame
    · obtain ⟨registered, observedNow, existing, prev, hloaded, hd, hrow⟩ :=
        witnessHandler_insert hf
      have hdev : row.devicePub = req.devicePub := by rw [hrow]; rfl
      rw [← hdev] at hloaded
      have hcurrent := hal _ hloaded rfl existing rfl
      refine appendsAbove_insert hins ?_
      intro e he
      rw [← hcurrent] at he
      have hlt := (decideWitness_record hd).2 e he
      rw [hrow]
      exact hlt

theorem precedes_of_above {s t : Db} {devicePub : String} {sequence : UInt64}
    {prev : Option WitnessEntry} (hgrows : LedgerGrows s t)
    (habove : ∀ row ∈ t.witnessLog.rows, row ∉ s.witnessLog.rows → row.devicePub = devicePub →
      ¬row.entry.sequence < sequence)
    (h : ImmediatelyPrecedes (s.witnessLog.entriesOf devicePub) sequence prev) :
    ImmediatelyPrecedes (t.witnessLog.entriesOf devicePub) sequence prev := by
  have older : ∀ e ∈ t.witnessLog.entriesOf devicePub, e.sequence < sequence →
      e ∈ s.witnessLog.entriesOf devicePub := by
    intro e he hlt
    obtain ⟨row, hrow, hdev, rfl⟩ := WitnessLog.mem_entriesOf.mp he
    by_cases hold : row ∈ s.witnessLog.rows
    · exact WitnessLog.mem_entriesOf.mpr ⟨row, hold, hdev, rfl⟩
    · exact absurd hlt (habove row hrow hold hdev)
  cases prev with
  | none =>
    intro e he hlt
    exact h e (older e he hlt) hlt
  | some p =>
    obtain ⟨hmem, hlt, hmax⟩ := h
    obtain ⟨row, hrow, hdev, hentry⟩ := WitnessLog.mem_entriesOf.mp hmem
    refine ⟨WitnessLog.mem_entriesOf.mpr ⟨row, hgrows row hrow, hdev, hentry⟩, hlt, ?_⟩
    intro e he hlt
    exact hmax e (older e he hlt) hlt

/-- Once a row stands at a sequence, what precedes it does not change any more. -/
theorem precedes_of_appendsAbove {s t : Db} {devicePub : String} {sequence : UInt64}
    {prev : Option WitnessEntry} (h : AppendsAbove s t) {standing : WitnessRow}
    (hrow : standing ∈ s.witnessLog.rows) (hdev : standing.devicePub = devicePub)
    (hseq : standing.entry.sequence = sequence)
    (hp : ImmediatelyPrecedes (s.witnessLog.entriesOf devicePub) sequence prev) :
    ImmediatelyPrecedes (t.witnessLog.entriesOf devicePub) sequence prev := by
  refine precedes_of_above h.1 ?_ hp
  intro row hmem hnew hd hlt
  have habove := h.2 row hmem hnew standing hrow (hdev.trans hd.symm)
  rw [hseq] at habove
  exact UInt64.lt_asymm habove hlt

theorem issued_prev {x : Crates} {reqs : List WitnessRequest} {db : Db}
    {pool : Pool Db DbOp DbOp.Resp (Except Refusal IssuedReceipt)}
    (ht : Tracked platform (reqs.map (witnessHandler x)) SnapshotCurrent AppendsAbove db pool)
    {i : Nat} {issued : IssuedReceipt} (hi : pool.result i = some (.ok issued)) :
    ∃ prev, ImmediatelyPrecedes (pool.store.witnessLog.entriesOf issued.receipt.devicePub)
        issued.receipt.sequence prev ∧
      issued.receipt.prevSequence = prev.map WitnessEntry.sequence ∧
      issued.receipt.prevTip = prev.map WitnessEntry.tip ∧
      issued.receipt.prevObservedAt = prev.map WitnessEntry.observedAt := by
  obtain ⟨req, log, hthread, hf⟩ := issued_follows ht hi
  obtain ⟨registered, observedAt, existing, prev, jti, hreceipt, hcase⟩ := witnessHandler_issued hf
  rw [hreceipt]
  refine ⟨prev, ?_, rfl, rfl, rfl⟩
  show ImmediatelyPrecedes (pool.store.witnessLog.entriesOf req.devicePub) req.sequence prev
  rcases hcase with ⟨e, before, after, hd, -, hlog⟩ | ⟨hd, before, after, hloaded, hlog⟩
  · obtain ⟨s, fate, -, -, hresp, hmoved⟩ := ht.observed i _ hthread _ _ _ _ hlog
    have hexisting := performDb_entries_ok hresp
    obtain ⟨hprev, hmem, hseq, -⟩ := decideWitness_replay hd
    rw [hexisting] at hmem hprev
    obtain ⟨row, hrow, hdev, hentry⟩ := WitnessLog.mem_entriesOf.mp hmem
    rw [hprev]
    exact precedes_of_appendsAbove hmoved hrow hdev (by rw [hentry, hseq])
      (prevEntry_precedes _ _)
  · -- The row goes in while the loaded ledger is current, so its predecessor is the one loaded.
    obtain ⟨s, fate, -, hcurrent, hresp, hmoved⟩ := ht.observed i _ hthread _ _ _ _ hlog
    have hins := performDb_insert_ok hresp
    have hrows := WitnessLog.insert_eq_some hins
    have hexisting := hcurrent _ hloaded rfl existing rfl
    obtain ⟨hprev, -⟩ := decideWitness_record hd
    have hlast : witnessRow req registered observedAt ∈
        (performDb (.witnessInsert (witnessRow req registered observedAt)) fate s).2.witnessLog.rows := by
      rw [hrows]
      exact List.mem_append_right _ (List.mem_singleton.mpr rfl)
    refine precedes_of_appendsAbove hmoved hlast rfl rfl
      (precedes_of_above (performDb_ledgerGrows _ fate s) ?_ ?_)
    · intro row hrow hnew _
      change row ∈ (performDb _ fate s).2.witnessLog.rows at hrow
      rw [hrows] at hrow
      rcases List.mem_append.mp hrow with hold | hnewest
      · exact absurd hold hnew
      · cases List.mem_singleton.mp hnewest
        exact UInt64.lt_irrefl _
    · rw [hprev, hexisting]
      exact prevEntry_precedes _ _

/-- In every interleaving where requests insert while the ledger they loaded is current, each
step appends above the maximum and every receipt names its predecessor in the final ledger. -/
theorem ledger_appends_above_current_snapshot (x : Crates) (reqs : List WitnessRequest) (db : Db)
    (events : List (Event DbOp DbOp.Fate (List DeviceRow)))
    (h : AllowedRun platform SnapshotCurrent (launch db (reqs.map (witnessHandler x))) events) :
    (∀ before e after, events = before ++ e :: after →
      AppendsAbove (run platform (launch db (reqs.map (witnessHandler x))) before).store
        (run platform (launch db (reqs.map (witnessHandler x))) (before ++ [e])).store) ∧
    ∀ i issued,
      (run platform (launch db (reqs.map (witnessHandler x))) events).result i = some (.ok issued) →
      ∃ prev, ImmediatelyPrecedes
          ((run platform (launch db (reqs.map (witnessHandler x))) events).store.witnessLog.entriesOf
            issued.receipt.devicePub) issued.receipt.sequence prev ∧
        issued.receipt.prevSequence = prev.map WitnessEntry.sequence ∧
        issued.receipt.prevTip = prev.map WitnessEntry.tip ∧
        issued.receipt.prevObservedAt = prev.map WitnessEntry.observedAt := by
  have hr := respects_appendsAbove x reqs
  have hstart : Tracked platform _ _ _ db (launch db (reqs.map (witnessHandler x))) :=
    tracked_launch hr
  refine ⟨?_, ?_⟩
  · intro before e after hevents
    rw [hevents] at h
    obtain ⟨hbefore, hstep, -⟩ := allowedRun_append h
    rw [run_append]
    exact step_rel hr (tracked_run hr before hstart hbefore) e hstep
  · intro i issued hi
    exact issued_prev (tracked_run hr events hstart h) hi

def orderedRequests : List WitnessRequest :=
  [tipRequest 3 "b3:aa", tipRequest 5 "b3:bb"]

/-- The second request loads the ledger after the first one has inserted its row. -/
def orderedTurns : List Nat := [0, 0, 1, 0, 0, 1, 0, 1, 0, 1, 1, 0, 1, 1]

def higherTipReceipt : IssuedReceipt where
  receipt := WitnessReceipt.build (DeviceKeypair.public sampleCrates (sampleKey 1)) false 5 "b3:bb"
    "2026-01-01T00:00:01Z" (some ⟨3, "b3:aa", "2026-01-01T00:00:00Z"⟩) "2026-01-01T00:00:01Z"
  jws := "jws"

theorem ledger_appends_above_ordered :
    AllowedRun platform SnapshotCurrent
      (launch emptyDb (orderedRequests.map (witnessHandler sampleCrates))) (schedule orderedTurns) ∧
    (run platform (launch emptyDb (orderedRequests.map (witnessHandler sampleCrates)))
      (schedule orderedTurns)).result 1 = some (.ok higherTipReceipt) ∧
    ∃ prev, ImmediatelyPrecedes ((run platform
        (launch emptyDb (orderedRequests.map (witnessHandler sampleCrates)))
        (schedule orderedTurns)).store.witnessLog.entriesOf higherTipReceipt.receipt.devicePub) 5 prev ∧
      some 3 = prev.map WitnessEntry.sequence := by
  have programs : orderedRequests.map (witnessHandler sampleCrates) =
      orderedRequests.map (loadState sampleCrates) := by
    simp only [orderedRequests, List.map_cons, List.map_nil,
      witnessHandler_of_verify (tipRequest_verify _ _)]
  have hrun : AllowedRun platform SnapshotCurrent
      (launch emptyDb (orderedRequests.map (witnessHandler sampleCrates)))
      (schedule orderedTurns) := by
    rw [programs]
    decide +kernel
  have hissued : (run platform (launch emptyDb (orderedRequests.map (witnessHandler sampleCrates)))
      (schedule orderedTurns)).result 1 = some (.ok higherTipReceipt) := by
    rw [programs]
    decide +kernel
  obtain ⟨-, hprev⟩ := ledger_appends_above_current_snapshot sampleCrates orderedRequests emptyDb
    (schedule orderedTurns) hrun
  obtain ⟨prev, hprecedes, hseq, -, -⟩ := hprev 1 higherTipReceipt hissued
  exact ⟨hrun, hissued, prev, hprecedes, hseq⟩

def backfillRequests : List WitnessRequest :=
  [tipRequest 5 "b3:aa", tipRequest 3 "b3:bb"]

/-- Both requests load the empty ledger before either inserts its row. -/
def backfillTurns : List Nat := [0, 0, 0, 1, 1, 1, 0, 1, 0, 1, 0, 0, 1, 1]

def backfillRun (steps : Nat) : Pool Db DbOp DbOp.Resp (Except Refusal IssuedReceipt) :=
  run platform (launch emptyDb (backfillRequests.map (witnessHandler sampleCrates)))
    (schedule (backfillTurns.take steps))

theorem stale_snapshot_backfills_ledger :
    ¬AppendsAbove (backfillRun 9).store (backfillRun 10).store ∧
    ∃ issued, (backfillRun 14).result 0 = some (.ok issued) ∧ issued.receipt.sequence = 5 ∧
      issued.receipt.prevSequence = none ∧
      ¬ImmediatelyPrecedes ((backfillRun 14).store.witnessLog.entriesOf issued.receipt.devicePub)
        5 none := by
  have programs : backfillRequests.map (witnessHandler sampleCrates) =
      backfillRequests.map (loadState sampleCrates) := by
    simp only [backfillRequests, List.map_cons, List.map_nil,
      witnessHandler_of_verify (tipRequest_verify _ _)]
  refine ⟨?_, ?_⟩
  · intro h
    have hlt := h.2 (witnessRow (tipRequest 3 "b3:bb") false "2026-01-01T00:00:01Z")
      (by rw [backfillRun, programs]; decide +kernel) (by rw [backfillRun, programs]; decide +kernel)
      (witnessRow (tipRequest 5 "b3:aa") false "2026-01-01T00:00:00Z")
      (by rw [backfillRun, programs]; decide +kernel) rfl
    exact absurd hlt (by decide)
  · refine ⟨⟨WitnessReceipt.build (DeviceKeypair.public sampleCrates (sampleKey 1)) false 5 "b3:aa"
      "2026-01-01T00:00:00Z" none "2026-01-01T00:00:00Z", "jws"⟩, ?_, rfl, rfl, ?_⟩
    · rw [backfillRun, programs]
      decide +kernel
    · intro h
      have hnot := h ⟨3, "b3:bb", "2026-01-01T00:00:01Z"⟩
        (by rw [backfillRun, programs]; decide +kernel)
      exact absurd hnot (by decide)

end Sealedge
