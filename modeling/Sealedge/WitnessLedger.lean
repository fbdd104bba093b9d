import Sealedge.SampleCrates
import Sealedge.WitnessHandler

namespace Sealedge

open AtomicProgram

namespace WitnessLog

theorem insert_eq_some {log log' : WitnessLog} {row : WitnessRow}
    (h : log.insert row = some log') :
    log'.rows = log.rows ++ [row] := by
  unfold insert at h
  split at h
  next => cases h
  next =>
    cases Option.some.inj h
    rfl

theorem mem_entriesOf {log : WitnessLog} {devicePub : String} {e : WitnessEntry} :
    e ∈ log.entriesOf devicePub ↔ ∃ row ∈ log.rows, row.devicePub = devicePub ∧ row.entry = e := by
  unfold entriesOf
  simp only [List.mem_map, List.mem_insertionSort, List.mem_filter, beq_iff_eq, and_assoc]

/-- The primary key: a row is determined by its device and sequence. -/
theorem eq_of_key_eq {log : WitnessLog} {a b : WitnessRow} (ha : a ∈ log.rows)
    (hb : b ∈ log.rows) (h : a.key = b.key) : a = b :=
  List.inj_on_of_nodup_map log.primaryKey ha hb h

end WitnessLog

theorem WitnessRow.key_eq_of_entry {a b : WitnessRow} (hd : a.devicePub = b.devicePub)
    (hs : a.entry.sequence = b.entry.sequence) : a.key = b.key := by
  obtain ⟨_, ⟨_⟩, _, _, _, _⟩ := a
  obtain ⟨_, ⟨_⟩, _, _, _, _⟩ := b
  simp_all [WitnessRow.key, WitnessRow.entry]

/-- The only operation that changes the ledger is the insert of a row whose key is free. -/
theorem performDb_ledger (o : DbOp) (fate : o.Fate) (db : Db) :
    (performDb o fate db).2.witnessLog = db.witnessLog ∨
    ∃ row, o = .witnessInsert row ∧
      db.witnessLog.insert row = some (performDb o fate db).2.witnessLog := by
  cases o with
  | witnessInsert row =>
    rcases fate with _ | e
    · cases hi : db.witnessLog.insert row with
      | none => exact Or.inl (by simp [performDb, Db.insertWitness, hi])
      | some log => exact Or.inr ⟨row, rfl, by simp [performDb, Db.insertWitness, hi]⟩
    · exact Or.inl rfl
  | lineageInsert row =>
    rcases fate with _ | e
    · exact Or.inl rfl
    · exact Or.inl rfl
  | _ => exact Or.inl rfl

theorem performDb_insert_ok {row : WitnessRow} {fate : (DbOp.witnessInsert row).Fate} {db : Db}
    (h : (.ok () : Except DbError Unit) = (performDb (.witnessInsert row) fate db).1) :
    db.witnessLog.insert row = some (performDb (.witnessInsert row) fate db).2.witnessLog := by
  rcases fate with _ | e
  · cases hi : db.witnessLog.insert row with
    | none =>
      simp only [performDb, Db.insertWitness, hi] at h
      cases h
    | some log => simp [performDb, Db.insertWitness, hi]
  · cases h

theorem performDb_entries_ok {devicePub : String} {existing : List WitnessEntry}
    {fate : (DbOp.witnessEntries devicePub).Fate} {db : Db}
    (h : (.ok existing : Except DbError (List WitnessEntry)) =
      (performDb (.witnessEntries devicePub) fate db).1) :
    existing = db.witnessLog.entriesOf devicePub := by
  rcases fate with _ | e
  · exact Except.ok.inj h
  · cases h

/-- Rows of the ledger are never lost. -/
def LedgerGrows (s t : Db) : Prop :=
  ∀ row ∈ s.witnessLog.rows, row ∈ t.witnessLog.rows

theorem performDb_ledgerGrows (o : DbOp) (fate : o.Fate) (db : Db) :
    LedgerGrows db (performDb o fate db).2 := by
  intro row hrow
  rcases performDb_ledger o fate db with hsame | ⟨new, -, hins⟩
  · rw [hsame]
    exact hrow
  · rw [WitnessLog.insert_eq_some hins]
    exact List.mem_append_left _ hrow

section Receipts

variable {x : Crates} {reqs : List WitnessRequest} {db : Db}
  {pool : Pool Db DbOp DbOp.Resp (Except Refusal IssuedReceipt)}
  {allowed : Db → List WitnessExchange → DbOp → Prop} {rel : Db → Db → Prop}

theorem issued_follows
    (ht : Tracked platform (reqs.map (witnessHandler x)) allowed rel db pool) {i : Nat}
    {issued : IssuedReceipt} (hi : pool.result i = some (.ok issued)) :
    ∃ req log, pool.threads[i]? = some ⟨.ret (.ok issued), log⟩ ∧
      Follows (witnessHandler x req) log (.ret (.ok issued)) := by
  obtain ⟨log, hthread⟩ := result_eq_some hi
  obtain ⟨prog, hprog, hf⟩ := ht.follows i _ hthread
  simp only [List.getElem?_map, Option.map_eq_some_iff] at hprog
  obtain ⟨req, -, rfl⟩ := hprog
  exact ⟨req, log, hthread, hf⟩

theorem issued_row (ht : Tracked platform (reqs.map (witnessHandler x)) allowed rel db pool)
    (hrel : ∀ s t, rel s t → LedgerGrows s t) {i : Nat} {issued : IssuedReceipt}
    (hi : pool.result i = some (.ok issued)) :
    ∃ row ∈ pool.store.witnessLog.rows, row.devicePub = issued.receipt.devicePub ∧
      row.entry = ⟨issued.receipt.sequence, issued.receipt.tip, issued.receipt.observedAt⟩ := by
  obtain ⟨req, log, hthread, hf⟩ := issued_follows ht hi
  obtain ⟨registered, observedAt, existing, prev, jti, hreceipt, hcase⟩ := witnessHandler_issued hf
  rw [hreceipt]
  rcases hcase with ⟨e, before, after, hd, hobs, hlog⟩ | ⟨-, before, after, -, hlog⟩
  · -- A replay repeats an entry that the handler saw in the ledger.
    obtain ⟨s, fate, -, -, hresp, hmoved⟩ := ht.observed i _ hthread _ _ _ _ hlog
    have hexisting := performDb_entries_ok hresp
    obtain ⟨-, hmem, hseq, htip⟩ := decideWitness_replay hd
    rw [hexisting] at hmem
    obtain ⟨row, hrow, hdev, hentry⟩ := WitnessLog.mem_entriesOf.mp hmem
    refine ⟨row, hrel _ _ hmoved row (performDb_ledgerGrows _ _ _ row hrow), hdev, ?_⟩
    rw [hentry]
    show e = ⟨req.sequence, req.tip, observedAt⟩
    rw [hobs, ← hseq, ← htip]
  · obtain ⟨s, fate, -, -, hresp, hmoved⟩ := ht.observed i _ hthread _ _ _ _ hlog
    have hins := WitnessLog.insert_eq_some (performDb_insert_ok hresp)
    refine ⟨witnessRow req registered observedAt, hrel _ _ hmoved _ ?_, rfl, rfl⟩
    show _ ∈ (performDb _ fate s).2.witnessLog.rows
    rw [hins]
    exact List.mem_append_right _ (List.mem_singleton.mpr rfl)

end Receipts

theorem respects_ledgerGrows (progs : List WitnessProg) :
    Respects platform progs (fun _ _ _ => True) LedgerGrows where
  refl _ _ hrow := hrow
  trans hst htu row hrow := htu row (hst row hrow)
  other _ _ _ hrow := hrow
  own _ _ _ o _ _ s fate _ := performDb_ledgerGrows o fate s

/-- In every interleaving, two receipts for one device and sequence carry the same tip and the
same timestamp, and these stand in the ledger. -/
theorem witness_receipts_agree (x : Crates) (reqs : List WitnessRequest) (db : Db)
    (events : List (Event DbOp DbOp.Fate (List DeviceRow))) {i j : Nat} {a b : IssuedReceipt}
    (ha : (run platform (launch db (reqs.map (witnessHandler x))) events).result i = some (.ok a))
    (hb : (run platform (launch db (reqs.map (witnessHandler x))) events).result j = some (.ok b))
    (hdev : a.receipt.devicePub = b.receipt.devicePub)
    (hseq : a.receipt.sequence = b.receipt.sequence) :
    a.receipt.tip = b.receipt.tip ∧ a.receipt.observedAt = b.receipt.observedAt ∧
      ∃ row ∈ (run platform (launch db (reqs.map (witnessHandler x))) events).store.witnessLog.rows,
        row.devicePub = a.receipt.devicePub ∧
        row.entry = ⟨a.receipt.sequence, a.receipt.tip, a.receipt.observedAt⟩ := by
  have hr := respects_ledgerGrows (reqs.map (witnessHandler x))
  have hstart : Tracked platform _ _ _ db (launch db (reqs.map (witnessHandler x))) :=
    tracked_launch hr
  have ht := tracked_run hr events hstart (allowedRun_of_always (fun _ _ _ => trivial) _ events)
  obtain ⟨ra, hra, hda, hea⟩ := issued_row ht (fun _ _ h => h) ha
  obtain ⟨rb, hrb, hdb, heb⟩ := issued_row ht (fun _ _ h => h) hb
  have hkey : ra.key = rb.key := by
    apply WitnessRow.key_eq_of_entry
    · rw [hda, hdb, hdev]
    · rw [hea, heb, hseq]
  have hrow := WitnessLog.eq_of_key_eq hra hrb hkey
  rw [hrow, heb] at hea
  obtain ⟨-, htip, hobs⟩ := WitnessEntry.mk.inj hea
  exact ⟨htip.symm, hobs.symm, ra, hra, hda, by rw [hrow, heb, htip, hobs, hseq]⟩

/-- No statement fails, and the clock shows the given reading. -/
def calmFates (reading : String) : (o : DbOp) → o.Fate
  | .getDeviceRevocationByPub _ => none
  | .lineageRotationSeq _ => (none, 0)
  | .witnessEntries _ => none
  | .now => reading
  | .witnessInsert _ => none
  | .witnessEntryAt _ _ => none
  | .lineageInsert _ => none
  | .newUuid => reading
  | .signWitnessJws _ => .ok "jws"

def emptyDb : Db := ⟨[], .empty, .empty⟩

def tipRequest (sequence : UInt64) (tip : String) : WitnessRequest :=
  .createSigned sampleCrates (sampleKey 1) sequence tip "2026-01-01T00:00:00Z"

theorem tipRequest_verify (sequence : UInt64) (tip : String) :
    (tipRequest sequence tip).verify sampleCrates = true :=
  WitnessRequest.verify_createSigned sampleCrates_signsLawfully _ _ _ _

/-- The threads that act one after the other, each with its own clock reading. -/
def schedule (turns : List Nat) : List (Event DbOp DbOp.Fate (List DeviceRow)) :=
  turns.map (fun i => .thread i (calmFates ("2026-01-01T00:00:0" ++ i.repr ++ "Z")))

def sharedTipRequests : List WitnessRequest :=
  [tipRequest 5 "b3:aa", tipRequest 5 "b3:aa"]

/-- The second request loads the ledger after the first one has inserted its row. -/
def sharedTipTurns : List Nat := [0, 1, 0, 1, 0, 0, 0, 1, 1, 1, 1, 0, 0]

def sharedTipRun : Pool Db DbOp DbOp.Resp (Except Refusal IssuedReceipt) :=
  run platform (launch emptyDb (sharedTipRequests.map (witnessHandler sampleCrates)))
    (schedule sharedTipTurns)

def sharedTipReceipt (jti : String) : IssuedReceipt where
  receipt := WitnessReceipt.build (DeviceKeypair.public sampleCrates (sampleKey 1)) false 5 "b3:aa"
    "2026-01-01T00:00:00Z" none jti
  jws := "jws"

theorem witness_receipts_agree_sharedTip :
    sharedTipRun.result 0 = some (.ok (sharedTipReceipt "2026-01-01T00:00:00Z")) ∧
    sharedTipRun.result 1 = some (.ok (sharedTipReceipt "2026-01-01T00:00:01Z")) ∧
    ∃ row ∈ sharedTipRun.store.witnessLog.rows,
      row.entry = ⟨5, "b3:aa", "2026-01-01T00:00:00Z"⟩ := by
  have programs : sharedTipRequests.map (witnessHandler sampleCrates) =
      sharedTipRequests.map (loadState sampleCrates) := by
    simp only [sharedTipRequests, List.map_cons, List.map_nil, witnessHandler_of_verify (tipRequest_verify _ _)]
  have first : sharedTipRun.result 0 =
      some (.ok (sharedTipReceipt "2026-01-01T00:00:00Z")) := by
    rw [sharedTipRun, programs]
    decide +kernel
  have second : sharedTipRun.result 1 =
      some (.ok (sharedTipReceipt "2026-01-01T00:00:01Z")) := by
    rw [sharedTipRun, programs]
    decide +kernel
  obtain ⟨-, -, row, hrow, -, hentry⟩ := witness_receipts_agree sampleCrates sharedTipRequests
    emptyDb (schedule sharedTipTurns) first second rfl rfl
  refine ⟨first, second, row, ?_, hentry⟩
  rw [sharedTipRun]
  exact hrow

end Sealedge
