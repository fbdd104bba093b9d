import Mathlib.Data.List.Basic
import Mathlib.Logic.Relation

namespace AtomicProgram

/-- A program whose effects are atomic operations on a store that it shares with others. -/
inductive Prog (Op : Type) (Resp : Op → Type) (α : Type) where
  | ret (a : α)
  | op (o : Op) (k : Resp o → Prog Op Resp α)

/-- A store with its operations. What an operation does may depend on something outside, its
fate; other parties may also change the store on their own. -/
structure Machine (σ Op : Type) (Resp Fate : Op → Type) (Other : Type) where
  perform : (o : Op) → Fate o → σ → Resp o × σ
  disturb : Other → σ → σ

variable {σ Op Other α : Type} {Resp Fate : Op → Type}

/-- The program alone on the store, for one choice of fates. -/
def solo (m : Machine σ Op Resp Fate Other) (fates : (o : Op) → Fate o) :
    Prog Op Resp α → σ → α × σ
  | .ret a, s => (a, s)
  | .op o k, s => solo m fates (k (m.perform o (fates o) s).1) (m.perform o (fates o) s).2

/-- An operation with the response it got. -/
abbrev Exchange (Op : Type) (Resp : Op → Type) := (o : Op) × Resp o

/-- The program goes through these exchanges and is then at `q`. -/
def Follows : Prog Op Resp α → List (Exchange Op Resp) → Prog Op Resp α → Prop
  | p, [], q => p = q
  | .ret _, _ :: _, _ => False
  | .op o k, e :: log, q => ∃ r, e = ⟨o, r⟩ ∧ Follows (k r) log q

/-- A running program and the exchanges it has had. -/
structure Thread (Op : Type) (Resp : Op → Type) (α : Type) where
  prog : Prog Op Resp α
  log : List (Exchange Op Resp)

structure Pool (σ Op : Type) (Resp : Op → Type) (α : Type) where
  store : σ
  threads : List (Thread Op Resp α)

/-- One step of an interleaving: a thread performs its next operation, or another party acts. -/
inductive Event (Op : Type) (Fate : Op → Type) (Other : Type)
  | thread (i : Nat) (fates : (o : Op) → Fate o)
  | other (e : Other)

/-- All programs at their start. -/
def launch (s : σ) (progs : List (Prog Op Resp α)) : Pool σ Op Resp α :=
  ⟨s, progs.map (fun p => ⟨p, []⟩)⟩

/-- What the thread has returned, once it has. -/
def Pool.result (p : Pool σ Op Resp α) (i : Nat) : Option α :=
  match p.threads[i]? with
  | some ⟨.ret a, _⟩ => some a
  | _ => none

section Runs

variable (m : Machine σ Op Resp Fate Other)

def step (p : Pool σ Op Resp α) : Event Op Fate Other → Pool σ Op Resp α
  | .thread i fates =>
    match p.threads[i]? with
    | some ⟨.op o k, log⟩ =>
      let reply := m.perform o (fates o) p.store
      ⟨reply.2, p.threads.set i ⟨k reply.1, log ++ [⟨o, reply.1⟩]⟩⟩
    | _ => p
  | .other e => ⟨m.disturb e p.store, p.threads⟩

def run (p : Pool σ Op Resp α) (events : List (Event Op Fate Other)) : Pool σ Op Resp α :=
  events.foldl (step m) p

/-- The operation that the event performs, if any, is allowed by the store and by what its thread
has seen before. -/
def StepAllowed (allowed : σ → List (Exchange Op Resp) → Op → Prop) (p : Pool σ Op Resp α) :
    Event Op Fate Other → Prop
  | .thread i _ =>
    match p.threads[i]? with
    | some ⟨.op o _, log⟩ => allowed p.store log o
    | _ => True
  | .other _ => True

def AllowedRun (allowed : σ → List (Exchange Op Resp) → Op → Prop) :
    Pool σ Op Resp α → List (Event Op Fate Other) → Prop
  | _, [] => True
  | p, e :: events => StepAllowed allowed p e ∧ AllowedRun allowed (step m p e) events

/-- A relation between the store before and after that every step of these programs respects. -/
structure Respects (progs : List (Prog Op Resp α))
    (allowed : σ → List (Exchange Op Resp) → Op → Prop) (rel : σ → σ → Prop) : Prop where
  refl : ∀ s, rel s s
  trans : ∀ {s t u}, rel s t → rel t u → rel s u
  other : ∀ e s, rel s (m.disturb e s)
  own : ∀ p ∈ progs, ∀ log o k, Follows p log (.op o k) → ∀ s fate, allowed s log o →
    rel s (m.perform o fate s).2

/-- What holds of a pool after any allowed run: the store has moved along the relation, every
thread has followed its program, and each of its exchanges took place at an allowed moment. -/
structure Tracked (progs : List (Prog Op Resp α))
    (allowed : σ → List (Exchange Op Resp) → Op → Prop) (rel : σ → σ → Prop) (start : σ)
    (p : Pool σ Op Resp α) : Prop where
  moved : rel start p.store
  follows : ∀ (i : Nat) (t : Thread Op Resp α), p.threads[i]? = some t →
    ∃ prog, progs[i]? = some prog ∧ Follows prog t.log t.prog
  observed : ∀ (i : Nat) (t : Thread Op Resp α), p.threads[i]? = some t →
    ∀ before o r after, t.log = before ++ ⟨o, r⟩ :: after →
      ∃ s fate, rel start s ∧ allowed s before o ∧ r = (m.perform o fate s).1 ∧
        rel (m.perform o fate s).2 p.store

end Runs

theorem solo_op {m : Machine σ Op Resp Fate Other} {fates : (o : Op) → Fate o} {o : Op}
    {k : Resp o → Prog Op Resp α} {s s' : σ} {r : Resp o} (h : m.perform o (fates o) s = (r, s')) :
    solo m fates (.op o k) s = solo m fates (k r) s' := by
  rw [solo, h]

theorem solo_preserves {m : Machine σ Op Resp Fate Other} {P : σ → Prop}
    (h : ∀ o fate s, P s → P (m.perform o fate s).2) (fates : (o : Op) → Fate o)
    (p : Prog Op Resp α) {s : σ} (hs : P s) : P (solo m fates p s).2 := by
  induction p generalizing s with
  | ret a => exact hs
  | op o k ih => exact ih _ (h o (fates o) s hs)

@[simp] theorem follows_nil {p q : Prog Op Resp α} : Follows p [] q ↔ p = q := by
  cases p <;> rfl

@[simp] theorem follows_ret_cons {a : α} {e : Exchange Op Resp} {log : List (Exchange Op Resp)}
    {q : Prog Op Resp α} : ¬Follows (.ret a) (e :: log) q :=
  fun h => h

theorem follows_op_cons {o : Op} {k : Resp o → Prog Op Resp α} {e : Exchange Op Resp}
    {log : List (Exchange Op Resp)} {q : Prog Op Resp α} :
    Follows (.op o k) (e :: log) q ↔ ∃ r, e = ⟨o, r⟩ ∧ Follows (k r) log q :=
  Iff.rfl

theorem not_follows_ret_op {a : α} {log : List (Exchange Op Resp)} {o : Op}
    {k : Resp o → Prog Op Resp α} : ¬Follows (.ret a) log (.op o k) := by
  intro h
  cases log with
  | nil => cases follows_nil.mp h
  | cons e log => exact follows_ret_cons h

theorem Follows.snoc {p : Prog Op Resp α} {log : List (Exchange Op Resp)} {o : Op}
    {k : Resp o → Prog Op Resp α} (h : Follows p log (.op o k)) (r : Resp o) :
    Follows p (log ++ [⟨o, r⟩]) (k r) := by
  induction log generalizing p with
  | nil =>
    cases p with
    | ret a => exact absurd h (by simp)
    | op o' k' =>
      cases follows_nil.mp h
      exact ⟨r, rfl, by simp⟩
  | cons e log ih =>
    cases p with
    | ret a => exact absurd h follows_ret_cons
    | op o' k' =>
      obtain ⟨r', he, hrest⟩ := h
      exact ⟨r', he, ih hrest⟩

theorem step_thread_eq {m : Machine σ Op Resp Fate Other} {p : Pool σ Op Resp α} {i : Nat}
    {fates : (o : Op) → Fate o} {o : Op} {k : Resp o → Prog Op Resp α}
    {log : List (Exchange Op Resp)} (h : p.threads[i]? = some ⟨.op o k, log⟩) :
    step m p (.thread i fates) = ⟨(m.perform o (fates o) p.store).2,
      p.threads.set i ⟨k (m.perform o (fates o) p.store).1,
        log ++ [⟨o, (m.perform o (fates o) p.store).1⟩]⟩⟩ := by
  simp [step, h]

/-- A step performs the next operation of a thread, is a step of another party, or does nothing. -/
theorem step_cases (m : Machine σ Op Resp Fate Other) (p : Pool σ Op Resp α)
    (e : Event Op Fate Other) :
    (∃ i fates o k log, e = .thread i fates ∧ p.threads[i]? = some ⟨.op o k, log⟩ ∧
      step m p e = ⟨(m.perform o (fates o) p.store).2,
        p.threads.set i ⟨k (m.perform o (fates o) p.store).1,
          log ++ [⟨o, (m.perform o (fates o) p.store).1⟩]⟩⟩) ∨
    (∃ a, e = .other a ∧ step m p e = ⟨m.disturb a p.store, p.threads⟩) ∨
    step m p e = p := by
  cases e with
  | other a => exact Or.inr (Or.inl ⟨a, rfl, rfl⟩)
  | thread i fates =>
    cases ht : p.threads[i]? with
    | none => exact Or.inr (Or.inr (by simp [step, ht]))
    | some t =>
      obtain ⟨prog, log⟩ := t
      cases prog with
      | ret a => exact Or.inr (Or.inr (by simp [step, ht]))
      | op o k => exact Or.inl ⟨i, fates, o, k, log, rfl, ht, step_thread_eq ht⟩

instance StepAllowed.decidable (allowed : σ → List (Exchange Op Resp) → Op → Prop)
    [∀ s log o, Decidable (allowed s log o)] (p : Pool σ Op Resp α) :
    (e : Event Op Fate Other) → Decidable (StepAllowed allowed p e)
  | .other _ => isTrue trivial
  | .thread i fates =>
    match h : p.threads[i]? with
    | some ⟨.op o k, log⟩ => decidable_of_iff (allowed p.store log o) (by simp [StepAllowed, h])
    | some ⟨.ret a, log⟩ => isTrue (by simp [StepAllowed, h])
    | none => isTrue (by simp [StepAllowed, h])

instance AllowedRun.decidable (m : Machine σ Op Resp Fate Other)
    (allowed : σ → List (Exchange Op Resp) → Op → Prop) [∀ s log o, Decidable (allowed s log o)] :
    (p : Pool σ Op Resp α) → (events : List (Event Op Fate Other)) →
      Decidable (AllowedRun m allowed p events)
  | _, [] => isTrue trivial
  | p, e :: events =>
    have := AllowedRun.decidable m allowed (step m p e) events
    inferInstanceAs (Decidable (_ ∧ _))

theorem StepAllowed.thread {allowed : σ → List (Exchange Op Resp) → Op → Prop}
    {p : Pool σ Op Resp α} {i : Nat} {fates : (o : Op) → Fate o} {o : Op}
    {k : Resp o → Prog Op Resp α} {log : List (Exchange Op Resp)}
    (h : StepAllowed allowed p (Event.thread i fates : Event Op Fate Other))
    (ht : p.threads[i]? = some ⟨.op o k, log⟩) : allowed p.store log o := by
  simpa [StepAllowed, ht] using h

theorem result_eq_some {p : Pool σ Op Resp α} {i : Nat} {a : α} (h : p.result i = some a) :
    ∃ log, p.threads[i]? = some ⟨.ret a, log⟩ := by
  unfold Pool.result at h
  split at h
  next b log ht =>
    cases Option.some.inj h
    exact ⟨log, ht⟩
  next => cases h

section Invariant

variable {m : Machine σ Op Resp Fate Other} {progs : List (Prog Op Resp α)}
  {allowed : σ → List (Exchange Op Resp) → Op → Prop} {rel : σ → σ → Prop} {start : σ}

theorem tracked_launch (hr : Respects m progs allowed rel) :
    Tracked m progs allowed rel start (launch start progs) := by
  have fresh : ∀ (i : Nat) (t : Thread Op Resp α), (launch start progs).threads[i]? = some t →
      ∃ prog, progs[i]? = some prog ∧ t = ⟨prog, []⟩ := by
    intro i t ht
    simp only [launch, List.getElem?_map, Option.map_eq_some_iff] at ht
    obtain ⟨prog, hp, rfl⟩ := ht
    exact ⟨prog, hp, rfl⟩
  refine ⟨hr.refl start, ?_, ?_⟩
  · intro i t ht
    obtain ⟨prog, hp, rfl⟩ := fresh i t ht
    exact ⟨prog, hp, by simp⟩
  · intro i t ht before o r after hlog
    obtain ⟨prog, -, rfl⟩ := fresh i t ht
    simp at hlog

theorem Tracked.move (hr : Respects m progs allowed rel) {p : Pool σ Op Resp α} {s : σ}
    (h : Tracked m progs allowed rel start p) (hs : rel p.store s) :
    Tracked m progs allowed rel start ⟨s, p.threads⟩ := by
  refine ⟨hr.trans h.moved hs, h.follows, ?_⟩
  intro i t ht before o r after hlog
  obtain ⟨s₀, fate, hstart, hal, hresp, hrel⟩ := h.observed i t ht before o r after hlog
  exact ⟨s₀, fate, hstart, hal, hresp, hr.trans hrel hs⟩

theorem step_rel (hr : Respects m progs allowed rel) {p : Pool σ Op Resp α}
    (h : Tracked m progs allowed rel start p) (e : Event Op Fate Other)
    (hal : StepAllowed allowed p e) : rel p.store (step m p e).store := by
  rcases step_cases m p e with ⟨i, fates, o, k, log, rfl, ht, hstep⟩ | ⟨a, -, hstep⟩ | hstep
  · obtain ⟨prog, hp, hf⟩ := h.follows i _ ht
    rw [hstep]
    exact hr.own prog (List.mem_of_getElem? hp) log o k hf p.store (fates o) (hal.thread ht)
  · rw [hstep]
    exact hr.other a p.store
  · rw [hstep]
    exact hr.refl p.store

theorem tracked_step (hr : Respects m progs allowed rel) {p : Pool σ Op Resp α}
    (h : Tracked m progs allowed rel start p) (e : Event Op Fate Other)
    (hal : StepAllowed allowed p e) :
    Tracked m progs allowed rel start (step m p e) := by
  rcases step_cases m p e with ⟨i, fates, o, k, log, rfl, ht, hstep⟩ | ⟨a, -, hstep⟩ | hstep
  · have hrel := step_rel hr h _ hal
    rw [hstep] at hrel ⊢
    have allow := hal.thread ht
    obtain ⟨prog, hp, hf⟩ := h.follows i _ ht
    have moved := h.move hr hrel
    -- The thread that stepped is the only one whose program and log change.
    have split : ∀ (j : Nat) (t : Thread Op Resp α),
        (p.threads.set i ⟨k (m.perform o (fates o) p.store).1,
          log ++ [⟨o, (m.perform o (fates o) p.store).1⟩]⟩)[j]? = some t →
        (j = i ∧ t = ⟨k (m.perform o (fates o) p.store).1,
          log ++ [⟨o, (m.perform o (fates o) p.store).1⟩]⟩) ∨ p.threads[j]? = some t := by
      intro j t hj
      rw [List.getElem?_set] at hj
      split at hj
      next hij =>
        split at hj
        next => exact Or.inl ⟨hij.symm, (Option.some.inj hj).symm⟩
        next => cases hj
      next => exact Or.inr hj
    refine ⟨moved.moved, ?_, ?_⟩
    · intro j t hj
      rcases split j t hj with ⟨rfl, rfl⟩ | hold
      · exact ⟨prog, hp, hf.snoc _⟩
      · exact h.follows j t hold
    · intro j t hj before o' r after hlog
      rcases split j t hj with ⟨rfl, rfl⟩ | hold
      · rcases List.eq_nil_or_concat after with rfl | ⟨after', last, rfl⟩
        · -- The exchange of this very step.
          obtain ⟨hbefore, hlast⟩ := List.append_inj' hlog (by simp)
          subst hbefore
          cases (List.cons.inj hlast).1
          exact ⟨p.store, fates o, h.moved, allow, rfl, hr.refl _⟩
        · rw [List.concat_eq_append, ← List.cons_append, ← List.append_assoc] at hlog
          obtain ⟨hold, -⟩ := List.append_inj' hlog (by simp)
          exact moved.observed j ⟨.op o k, log⟩ ht before o' r after' hold
      · exact moved.observed j t hold before o' r after hlog
  · rw [hstep]
    exact h.move hr (hr.other a p.store)
  · rw [hstep]
    exact h

theorem tracked_run (hr : Respects m progs allowed rel) (events : List (Event Op Fate Other))
    {p : Pool σ Op Resp α} (h : Tracked m progs allowed rel start p)
    (hal : AllowedRun m allowed p events) : Tracked m progs allowed rel start (run m p events) := by
  induction events generalizing p with
  | nil => exact h
  | cons e events ih => exact ih (tracked_step hr h e hal.1) hal.2

/-- Between any two points of an allowed run the store moves along the relation. -/
theorem run_rel (hr : Respects m progs allowed rel) (events : List (Event Op Fate Other))
    {p : Pool σ Op Resp α} (h : Tracked m progs allowed rel start p)
    (hal : AllowedRun m allowed p events) : rel p.store (run m p events).store := by
  induction events generalizing p with
  | nil => exact hr.refl p.store
  | cons e events ih =>
    exact hr.trans (step_rel hr h e hal.1) (ih (tracked_step hr h e hal.1) hal.2)

theorem allowedRun_of_always (hal : ∀ s log o, allowed s log o) (p : Pool σ Op Resp α)
    (events : List (Event Op Fate Other)) : AllowedRun m allowed p events := by
  induction events generalizing p with
  | nil => exact trivial
  | cons e events ih =>
    refine ⟨?_, ih _⟩
    unfold StepAllowed
    split
    next =>
      split
      next => exact hal _ _ _
      next => exact trivial
    next => exact trivial

theorem run_append (m : Machine σ Op Resp Fate Other) (p : Pool σ Op Resp α)
    (es fs : List (Event Op Fate Other)) : run m p (es ++ fs) = run m (run m p es) fs := by
  simp [run]

theorem allowedRun_append {p : Pool σ Op Resp α} {es fs : List (Event Op Fate Other)}
    (h : AllowedRun m allowed p (es ++ fs)) :
    AllowedRun m allowed p es ∧ AllowedRun m allowed (run m p es) fs := by
  induction es generalizing p with
  | nil => exact ⟨trivial, h⟩
  | cons e es ih =>
    obtain ⟨hes, hfs⟩ := ih h.2
    exact ⟨⟨h.1, hes⟩, hfs⟩

end Invariant

end AtomicProgram
