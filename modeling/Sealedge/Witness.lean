import Sealedge.Rotation

namespace Sealedge

/-- One previously witnessed ledger entry of a device. -/
structure WitnessEntry where
  sequence : UInt64
  tip : String
  observedAt : String
  deriving DecidableEq

inductive WitnessDecision
  | record (prev : Option WitnessEntry)
  | replay (existing : WitnessEntry) (prev : Option WitnessEntry)
  | fork (existingTip : String)
  | rollback (maxSequence : UInt64)
  deriving DecidableEq

/-- `Iterator::max_by_key`: the last of the items with the largest key. -/
def maxByKey {α : Type} (key : α → UInt64) : List α → Option α
  | [] => none
  | a :: rest =>
    match maxByKey key rest with
    | none => some a
    | some b => if key a ≤ key b then some b else some a

/-- The highest entry strictly below a sequence. -/
def prevEntry (existing : List WitnessEntry) (sequence : UInt64) : Option WitnessEntry :=
  maxByKey WitnessEntry.sequence (existing.filter (fun e => decide (e.sequence < sequence)))

/-- `witness::decide`: how a tip is witnessed against the entries of its device. -/
def decideWitness (existing : List WitnessEntry) (sequence : UInt64) (tip : String) :
    WitnessDecision :=
  match existing.find? (fun e => e.sequence == sequence) with
  | some same =>
    if same.tip = tip then .replay same (prevEntry existing sequence) else .fork same.tip
  | none =>
    match maxByKey id (existing.map WitnessEntry.sequence) with
    | some max =>
      if sequence ≤ max then .rollback max else .record (prevEntry existing sequence)
    | none => .record (prevEntry existing sequence)

structure WitnessReceipt where
  devicePub : String
  deviceRegistered : Bool
  sequence : UInt64
  tip : String
  observedAt : String
  prevSequence : Option UInt64
  prevTip : Option String
  prevObservedAt : Option String
  jti : String
  deriving DecidableEq

def WitnessReceipt.build (devicePub : String) (deviceRegistered : Bool) (sequence : UInt64)
    (tip observedAt : String) (prev : Option WitnessEntry) (jti : String) : WitnessReceipt where
  devicePub := devicePub
  deviceRegistered := deviceRegistered
  sequence := sequence
  tip := tip
  observedAt := observedAt
  prevSequence := prev.map WitnessEntry.sequence
  prevTip := prev.map WitnessEntry.tip
  prevObservedAt := prev.map WitnessEntry.observedAt
  jti := jti

/-- The entry that comes directly before a sequence in a ledger, if there is one. -/
def ImmediatelyPrecedes (entries : List WitnessEntry) (sequence : UInt64) :
    Option WitnessEntry → Prop
  | none => ∀ e ∈ entries, ¬e.sequence < sequence
  | some p => p ∈ entries ∧ p.sequence < sequence ∧
      ∀ e ∈ entries, e.sequence < sequence → e.sequence ≤ p.sequence

theorem maxByKey_spec {α : Type} (key : α → UInt64) (xs : List α) :
    (maxByKey key xs = none ↔ xs = []) ∧
    ∀ b, maxByKey key xs = some b → b ∈ xs ∧ ∀ a ∈ xs, key a ≤ key b := by
  induction xs with
  | nil => simp [maxByKey]
  | cons a rest ih =>
    obtain ⟨hnone, hsome⟩ := ih
    unfold maxByKey
    cases hm : maxByKey key rest with
    | none =>
      have hrest := hnone.mp hm
      subst hrest
      refine ⟨by simp, ?_⟩
      intro b hb
      cases Option.some.inj hb
      simp
    | some c =>
      obtain ⟨hc, hmax⟩ := hsome c hm
      by_cases hle : key a ≤ key c
      · refine ⟨by simp [hle], ?_⟩
        intro b hb
        simp only [hle, ↓reduceIte, Option.some.injEq] at hb
        subst hb
        refine ⟨List.mem_cons_of_mem a hc, ?_⟩
        intro d hd
        rcases List.mem_cons.mp hd with rfl | hd
        · exact hle
        · exact hmax d hd
      · refine ⟨by simp [hle], ?_⟩
        intro b hb
        simp only [hle, ↓reduceIte, Option.some.injEq] at hb
        subst hb
        refine ⟨List.mem_cons_self, ?_⟩
        intro d hd
        rcases List.mem_cons.mp hd with rfl | hd
        · exact UInt64.le_refl _
        · exact UInt64.le_trans (hmax d hd) (UInt64.le_of_lt (UInt64.not_le.mp hle))

theorem prevEntry_precedes (existing : List WitnessEntry) (sequence : UInt64) :
    ImmediatelyPrecedes existing sequence (prevEntry existing sequence) := by
  obtain ⟨hnone, hsome⟩ := maxByKey_spec WitnessEntry.sequence
    (existing.filter (fun e => decide (e.sequence < sequence)))
  unfold prevEntry
  cases hm : maxByKey WitnessEntry.sequence
      (existing.filter (fun e => decide (e.sequence < sequence))) with
  | none =>
    intro e he hlt
    have hnil := hnone.mp hm
    have hmem : e ∈ existing.filter (fun e => decide (e.sequence < sequence)) := by
      simp [he, hlt]
    rw [hnil] at hmem
    cases hmem
  | some p =>
    obtain ⟨hp, hmax⟩ := hsome p hm
    obtain ⟨hmem, hlt⟩ := List.mem_filter.mp hp
    refine ⟨hmem, by simpa using hlt, ?_⟩
    intro e he hlt
    exact hmax e (by simp [he, hlt])

theorem decideWitness_record {existing : List WitnessEntry} {sequence : UInt64} {tip : String}
    {prev : Option WitnessEntry} (h : decideWitness existing sequence tip = .record prev) :
    prev = prevEntry existing sequence ∧ ∀ e ∈ existing, e.sequence < sequence := by
  unfold decideWitness at h
  split at h
  next same hfind =>
    split at h
    next => cases h
    next => cases h
  next hfind =>
    obtain ⟨hnone, hsome⟩ := maxByKey_spec id (existing.map WitnessEntry.sequence)
    split at h
    next max hmax =>
      split at h
      next => cases h
      next hle =>
        refine ⟨(WitnessDecision.record.inj h).symm, ?_⟩
        intro e he
        have hbound := (hsome max hmax).2 e.sequence (List.mem_map_of_mem he)
        have hlt := UInt64.not_le.mp hle
        exact UInt64.lt_of_le_of_lt hbound hlt
    next hmax =>
      refine ⟨(WitnessDecision.record.inj h).symm, ?_⟩
      intro e he
      have hnil := List.map_eq_nil_iff.mp (hnone.mp hmax)
      rw [hnil] at he
      cases he

theorem decideWitness_replay {existing : List WitnessEntry} {sequence : UInt64} {tip : String}
    {e : WitnessEntry} {prev : Option WitnessEntry}
    (h : decideWitness existing sequence tip = .replay e prev) :
    prev = prevEntry existing sequence ∧ e ∈ existing ∧ e.sequence = sequence ∧ e.tip = tip := by
  unfold decideWitness at h
  split at h
  next same hfind =>
    split at h
    next htip =>
      obtain ⟨rfl, rfl⟩ := WitnessDecision.replay.inj h
      have hseq := List.find?_some hfind
      exact ⟨rfl, List.mem_of_find?_eq_some hfind, by simpa using hseq, htip⟩
    next => cases h
  next =>
    split at h
    next =>
      split at h
      next => cases h
      next => cases h
    next => cases h

end Sealedge
