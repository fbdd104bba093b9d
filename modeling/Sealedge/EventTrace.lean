import Mathlib.Data.List.Basic

namespace EventTrace

variable {E : Type} {allowed : E → List E → Prop}

variable (allowed) in
/-- Histories, newest event first, in which each event is allowed after the earlier ones. -/
inductive Execution : List E → Prop
  | nil : Execution []
  | cons {e : E} {earlier : List E} (he : allowed e earlier) (h : Execution earlier) :
      Execution (e :: earlier)

theorem Execution.split {later earlier : List E} {e : E}
    (h : Execution allowed (later ++ e :: earlier)) :
    allowed e earlier ∧ Execution allowed earlier := by
  induction later with
  | nil =>
    cases h with
    | cons he h => exact ⟨he, h⟩
  | cons e' later ih =>
    cases h with
    | cons _ h => exact ih h

theorem Execution.mono {allowed' : E → List E → Prop}
    (himp : ∀ e earlier, allowed e earlier → allowed' e earlier) {h : List E}
    (hrun : Execution allowed h) : Execution allowed' h := by
  induction hrun with
  | nil => exact .nil
  | cons he _ ih => exact .cons (himp _ _ he) ih

theorem Execution.and {allowed' : E → List E → Prop} {h : List E} (hrun : Execution allowed h)
    (hrun' : Execution allowed' h) :
    Execution (fun e earlier => allowed e earlier ∧ allowed' e earlier) h := by
  induction hrun with
  | nil => exact .nil
  | cons he _ ih =>
    cases hrun' with
    | cons he' h' => exact .cons ⟨he, he'⟩ (ih h')

theorem Execution.left {allowed' : E → List E → Prop} {h : List E}
    (hrun : Execution (fun e earlier => allowed e earlier ∧ allowed' e earlier) h) :
    Execution allowed h :=
  hrun.mono fun _ _ hboth => hboth.1

theorem Execution.right {allowed' : E → List E → Prop} {h : List E}
    (hrun : Execution (fun e earlier => allowed e earlier ∧ allowed' e earlier) h) :
    Execution allowed' h :=
  hrun.mono fun _ _ hboth => hboth.2

theorem earlier_subset (later : List E) (e : E) (earlier : List E) :
    earlier ⊆ later ++ e :: earlier := by
  intro e' he'
  exact List.mem_append_right later (List.mem_cons_of_mem e he')

theorem Execution.allowed_of_mem {h : List E} (hrun : Execution allowed h) {e : E} (he : e ∈ h) :
    ∃ earlier, allowed e earlier ∧ Execution allowed earlier ∧ earlier ⊆ h := by
  obtain ⟨later, earlier, rfl⟩ := List.append_of_mem he
  obtain ⟨hallowed, hearlier⟩ := hrun.split
  exact ⟨earlier, hallowed, hearlier, earlier_subset later e earlier⟩

theorem eq_or_earlier {h : List E} {a b : E} (ha : a ∈ h) (hb : b ∈ h) :
    a = b ∨ (∃ later earlier, h = later ++ a :: earlier ∧ b ∈ earlier) ∨
      ∃ later earlier, h = later ++ b :: earlier ∧ a ∈ earlier := by
  obtain ⟨later, earlier, rfl⟩ := List.append_of_mem ha
  rcases List.mem_append.mp hb with hlater | hrest
  · obtain ⟨last, middle, rfl⟩ := List.append_of_mem hlater
    right; right
    refine ⟨last, middle ++ a :: earlier, by simp, by simp⟩
  · rcases List.mem_cons.mp hrest with rfl | hearlier
    · exact Or.inl rfl
    · exact Or.inr (Or.inl ⟨later, earlier, rfl, hearlier⟩)

/-- A name that every event takes afresh belongs to one event. -/
theorem Execution.unique {κ : Type} (name : E → Option κ)
    (hfresh : ∀ e earlier k, allowed e earlier → name e = some k →
      ∀ e' ∈ earlier, name e' ≠ some k)
    {h : List E} (hrun : Execution allowed h) {a b : E} {k : κ} (ha : a ∈ h) (hb : b ∈ h)
    (hak : name a = some k) (hbk : name b = some k) : a = b := by
  rcases eq_or_earlier ha hb with
    heq | ⟨later, earlier, rfl, hearlier⟩ | ⟨later, earlier, rfl, hearlier⟩
  · exact heq
  · exact absurd hbk (hfresh a earlier k hrun.split.1 hak b hearlier)
  · exact absurd hak (hfresh b earlier k hrun.split.1 hbk a hearlier)

end EventTrace
