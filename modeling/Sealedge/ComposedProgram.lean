import Sealedge.AtomicProgram

namespace AtomicProgram

variable {σ Op Op' Other α β : Type} {Resp Fate : Op → Type} {Resp' : Op' → Type}

/-- A program as part of one with more operations. -/
def Prog.within (embed : Op → Op') (f : α → β) :
    Prog Op (fun o => Resp' (embed o)) α → Prog Op' Resp' β
  | .ret a => .ret (f a)
  | .op o k => .op (embed o) fun r => (k r).within embed f

/-- An exchange of the part as one of the whole. -/
def Exchange.within (embed : Op → Op') (e : Exchange Op (fun o => Resp' (embed o))) :
    Exchange Op' Resp' :=
  ⟨embed e.1, e.2⟩

theorem follows_within {embed : Op → Op'} {f : α → β}
    {p : Prog Op (fun o => Resp' (embed o)) α} {log : List (Exchange Op' Resp')}
    {q : Prog Op' Resp' β} (h : Follows (p.within embed f) log q) :
    ∃ log' q', log = log'.map (Exchange.within embed) ∧ q = q'.within embed f ∧
      Follows p log' q' := by
  induction log generalizing p with
  | nil => exact ⟨[], p, rfl, (follows_nil.mp h).symm, follows_nil.mpr rfl⟩
  | cons e log ih =>
    cases p with
    | ret a => exact absurd h follows_ret_cons
    | op o k =>
      obtain ⟨r, rfl, hrest⟩ := h
      obtain ⟨log', q', rfl, hq, hfollows⟩ := ih hrest
      exact ⟨⟨o, r⟩ :: log', q', rfl, hq, r, rfl, hfollows⟩

section Observations

variable {m : Machine σ Op Resp Fate Other} {progs : List (Prog Op Resp α)}
  {allowed : σ → List (Exchange Op Resp) → Op → Prop} {rel : σ → σ → Prop} {start : σ}

theorem Tracked.seen {p : Pool σ Op Resp α} (h : Tracked m progs allowed rel start p) {i : Nat}
    {t : Thread Op Resp α} (ht : p.threads[i]? = some t) {o : Op} {r : Resp o}
    (hmem : (⟨o, r⟩ : Exchange Op Resp) ∈ t.log) :
    ∃ s fate, rel start s ∧ r = (m.perform o fate s).1 ∧ rel (m.perform o fate s).2 p.store := by
  obtain ⟨before, after, hlog⟩ := List.append_of_mem hmem
  obtain ⟨s, fate, hstart, -, hresp, hrel⟩ := h.observed i t ht before o r after hlog
  exact ⟨s, fate, hstart, hresp, hrel⟩

/-- What all threads have seen, and what lies ahead, may be used as a condition on the run. -/
theorem allowedRun_of_tracked (hr : Respects m progs allowed rel)
    {allowed' : σ → List (Exchange Op Resp) → Op → Prop} {last : σ}
    (hal : ∀ p, Tracked m progs allowed rel start p → rel p.store last → ∀ (i : Nat) o k log,
      p.threads[i]? = some ⟨.op o k, log⟩ → allowed p.store log o → allowed' p.store log o)
    {p : Pool σ Op Resp α} {events : List (Event Op Fate Other)}
    (hp : Tracked m progs allowed rel start p) (hrun : AllowedRun m allowed p events)
    (hlast : (run m p events).store = last) : AllowedRun m allowed' p events := by
  induction events generalizing p with
  | nil => exact trivial
  | cons e events ih =>
    refine ⟨?_, ih (tracked_step hr hp e hrun.1) hrun.2 hlast⟩
    cases e with
    | other a => exact trivial
    | thread i fates =>
      cases ht : p.threads[i]? with
      | none => simp [StepAllowed, ht]
      | some t =>
        obtain ⟨prog, log⟩ := t
        cases prog with
        | ret a => simp [StepAllowed, ht]
        | op o k =>
          have hahead : rel p.store last := hlast ▸ run_rel hr _ hp hrun
          have hop := hal p hp hahead i o k log ht (hrun.1.thread ht)
          simpa [StepAllowed, ht] using hop

/-- A step leaves a thread as it is or lengthens its log by what it sees now. -/
theorem step_thread (p : Pool σ Op Resp α) (e : Event Op Fate Other) {j : Nat}
    {t : Thread Op Resp α} (ht : p.threads[j]? = some t) :
    (step m p e).threads[j]? = some t ∨ ∃ o k fate, t.prog = .op o k ∧
      (step m p e).threads[j]? = some ⟨k (m.perform o fate p.store).1,
        t.log ++ [⟨o, (m.perform o fate p.store).1⟩]⟩ := by
  rcases step_cases m p e with ⟨i, fates, o, k, log, rfl, hi, hstep⟩ | ⟨a, -, hstep⟩ | hstep
  · by_cases hij : i = j
    · subst hij
      obtain rfl := Option.some.inj (ht.symm.trans hi)
      refine .inr ⟨o, k, fates o, rfl, ?_⟩
      rw [hstep, List.getElem?_set_self (List.getElem?_eq_some_iff.mp hi).1]
    · rw [hstep, List.getElem?_set_ne hij]
      exact .inl ht
  · rw [hstep]
    exact .inl ht
  · rw [hstep]
    exact .inl ht

theorem seen_since (hr : Respects m progs allowed rel) {p : Pool σ Op Resp α}
    (hp : Tracked m progs allowed rel start p) {j : Nat} {t₀ t : Thread Op Resp α}
    (h₀ : p.threads[j]? = some t₀) (events : List (Event Op Fate Other))
    (hrun : AllowedRun m allowed p events) (ht : (run m p events).threads[j]? = some t) {o : Op}
    {r : Resp o} (hmem : (⟨o, r⟩ : Exchange Op Resp) ∈ t.log) :
    (⟨o, r⟩ : Exchange Op Resp) ∈ t₀.log ∨
      ∃ s fate, rel p.store s ∧ r = (m.perform o fate s).1 := by
  induction events generalizing p t₀ with
  | nil =>
    obtain rfl := Option.some.inj (h₀.symm.trans ht)
    exact .inl hmem
  | cons e events ih =>
    have hstep := step_rel hr hp e hrun.1
    have hp' := tracked_step hr hp e hrun.1
    have later : (∃ s fate, rel (step m p e).store s ∧ r = (m.perform o fate s).1) →
        ∃ s fate, rel p.store s ∧ r = (m.perform o fate s).1 := by
      rintro ⟨s, fate, hs, hresp⟩
      exact ⟨s, fate, hr.trans hstep hs, hresp⟩
    rcases step_thread (m := m) p e h₀ with hsame | ⟨o', k, fate, -, hnext⟩
    · exact (ih hp' hsame hrun.2 ht).imp_right later
    · rcases ih hp' hnext hrun.2 ht with hlog | hseen
      · rcases List.mem_append.mp hlog with hold | hnew
        · exact .inl hold
        · cases List.mem_singleton.mp hnew
          exact .inr ⟨p.store, fate, hr.refl _, rfl⟩
      · exact .inr (later hseen)

end Observations

end AtomicProgram
