import Mathlib.Data.List.Induction
import Mathlib.Data.List.Forall2

namespace HashChain

/-- A chain in which the first entry has no predecessor and every other one names the entry
before it. -/
inductive Linked {α ι : Type} (ident : α → ι) (prev : α → Option ι) : List α → Prop
  | first {a : α} (h : prev a = none) : Linked ident prev [a]
  | snoc {l : List α} {a b : α} (hl : Linked ident prev (l ++ [a])) (h : prev b = some (ident a)) :
      Linked ident prev (l ++ [a] ++ [b])

section Chains

variable {α ι : Type} {ident : α → ι} {prev : α → Option ι}

theorem linked_snoc_iff {l : List α} {a : α} :
    Linked ident prev (l ++ [a]) ↔
      (l = [] ∧ prev a = none) ∨
      ∃ l' b, l = l' ++ [b] ∧ Linked ident prev (l' ++ [b]) ∧ prev a = some (ident b) := by
  constructor
  · intro h
    generalize hl : l ++ [a] = whole at h
    cases h with
    | first hnone =>
      have hlen := congrArg List.length hl
      rw [List.length_append, List.length_singleton, List.length_singleton] at hlen
      have hnil := List.length_eq_zero_iff.mp (by omega : l.length = 0)
      subst hnil
      cases hl
      exact Or.inl ⟨rfl, hnone⟩
    | @snoc l' b c hbegins hlink =>
      obtain ⟨hl', hc⟩ := List.append_inj' hl rfl
      cases hc
      exact Or.inr ⟨l', b, hl', hbegins, hlink⟩
  · rintro (⟨rfl, hnone⟩ | ⟨l', b, rfl, hbegins, hlink⟩)
    · exact .first hnone
    · exact .snoc hbegins hlink

theorem Linked.prefix {l l' : List α} (h : Linked ident prev (l ++ l')) (hne : l ≠ []) :
    Linked ident prev l := by
  induction l' using List.reverseRecOn with
  | nil => simpa using h
  | append_singleton l' a ih =>
    rw [← List.append_assoc] at h
    rcases linked_snoc_iff.mp h with ⟨hnil, -⟩ | ⟨l₁, b, hl₁, hbegins, -⟩
    · exact absurd (List.append_eq_nil_iff.mp hnil).1 hne
    · exact ih (hl₁ ▸ hbegins)

theorem linked_iff_getElem {l : List α} :
    Linked ident prev l ↔
      (∃ a, l[0]? = some a ∧ prev a = none) ∧
      ∀ i a b, l[i]? = some a → l[i + 1]? = some b → prev b = some (ident a) := by
  constructor
  · intro h
    induction h with
    | first hnone =>
      refine ⟨⟨_, rfl, hnone⟩, ?_⟩
      intro i a b _ hb
      simp at hb
    | @snoc l a b _ hlink ih =>
      obtain ⟨⟨c, hc, hnone⟩, hsteps⟩ := ih
      refine ⟨⟨c, ?_, hnone⟩, ?_⟩
      · rw [List.getElem?_append_left (by simp)]
        exact hc
      · intro i u v hu hv
        by_cases hlast : i + 1 < (l ++ [a]).length
        · rw [List.getElem?_append_left (by omega)] at hu
          rw [List.getElem?_append_left hlast] at hv
          exact hsteps i u v hu hv
        · have hi : i + 1 = (l ++ [a]).length := by
            have hbound := (List.getElem?_eq_some_iff.mp hv).1
            rw [List.length_append, List.length_singleton] at hbound
            omega
          have hil : i = l.length := by simpa using hi
          rw [hi, List.getElem?_append_right (Nat.le_refl _)] at hv
          have hv : b = v := by simpa using hv
          have hu : a = u := by simpa [hil] using hu
          rw [← hv, ← hu]
          exact hlink
  · rintro ⟨⟨a, ha, hnone⟩, hsteps⟩
    induction l using List.reverseRecOn with
    | nil => cases ha
    | append_singleton l b ih =>
      rcases List.eq_nil_or_concat' l with rfl | ⟨l', c, rfl⟩
      · cases ha
        exact .first hnone
      · refine .snoc (ih ?_ ?_) ?_
        · intro i u v hu hv
          refine hsteps i u v ?_ ?_
          · rw [List.getElem?_append_left (List.getElem?_eq_some_iff.mp hu).1]
            exact hu
          · rw [List.getElem?_append_left (List.getElem?_eq_some_iff.mp hv).1]
            exact hv
        · rw [List.getElem?_append_left (by simp)] at ha
          exact ha
        · refine hsteps l'.length c b ?_ ?_
          · simp
          · simp

end Chains

theorem forall₂_getElem? {α β : Type} {same : α → β → Prop} {l : List α} {l' : List β}
    (h : List.Forall₂ same l l') {i : Nat} {a : α} {b : β} (ha : l[i]? = some a)
    (hb : l'[i]? = some b) : same a b := by
  obtain ⟨hi, rfl⟩ := List.getElem?_eq_some_iff.mp ha
  obtain ⟨hi', rfl⟩ := List.getElem?_eq_some_iff.mp hb
  exact (List.forall₂_iff_get.mp h).2 i hi hi'

section History

variable {α β ι : Type} {identA : α → ι} {prevA : α → Option ι} {identB : β → ι}
  {prevB : β → Option ι} {same : α → β → Prop}

/-- When an identifier determines an entry up to `same`, and `same` entries have one predecessor,
the identifier of the last entry determines the whole chain: walk back along the links. -/
theorem forall₂_of_tip_eq {l : List α} {l' : List β} {a : α} {b : β}
    (hl : Linked identA prevA (l ++ [a])) (hl' : Linked identB prevB (l' ++ [b]))
    (determines : ∀ u ∈ l ++ [a], ∀ v ∈ l' ++ [b], identA u = identB v → same u v)
    (sameLink : ∀ u v, same u v → prevA u = prevB v) (htip : identA a = identB b) :
    List.Forall₂ same (l ++ [a]) (l' ++ [b]) := by
  have hlast : same a b := determines a (by simp) b (by simp) htip
  have hlink := sameLink a b hlast
  -- The induction is on the first chain; the second one is as long because both end at an entry
  -- without a predecessor.
  induction l using List.reverseRecOn generalizing l' a b with
  | nil =>
    rcases linked_snoc_iff.mp hl with ⟨-, hnone⟩ | ⟨l₁, c, hnil, -⟩
    · rcases linked_snoc_iff.mp hl' with ⟨rfl, -⟩ | ⟨l₂, d, -, -, hsome⟩
      · exact .cons hlast .nil
      · rw [hlink, hsome] at hnone
        cases hnone
    · simp at hnil
  | append_singleton l c ih =>
    rcases linked_snoc_iff.mp hl with ⟨hnil, -⟩ | ⟨l₁, c', hl₁, hbegins, hsome⟩
    · simp at hnil
    · obtain ⟨rfl, hc⟩ := List.append_inj' hl₁ rfl
      cases hc
      rcases linked_snoc_iff.mp hl' with ⟨-, hnone⟩ | ⟨l₂, d, rfl, hbegins', hsome'⟩
      · rw [hlink, hnone] at hsome
        cases hsome
      · have htips : identA c = identB d := by
          rw [hlink, hsome'] at hsome
          exact (Option.some.inj hsome).symm
        have hdetermines : ∀ u ∈ l ++ [c], ∀ v ∈ l₂ ++ [d], identA u = identB v → same u v :=
          fun u hu v hv => determines u (List.mem_append_left _ hu) v (List.mem_append_left _ hv)
        have hsame : same c d := hdetermines c (by simp) d (by simp) htips
        have hrest := ih hbegins hbegins' hdetermines htips hsame (sameLink c d hsame)
        exact List.rel_append hrest (.cons hlast .nil)

end History

end HashChain
