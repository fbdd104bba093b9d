import Mathlib.Data.List.Perm.Basic
import Mathlib.Data.List.Forall2

namespace Fallible

variable {ε α β : Type}

theorem bind_eq_ok {m : Except ε α} {f : α → Except ε β} {r : β} :
    m >>= f = .ok r ↔ ∃ a, m = .ok a ∧ f a = .ok r := by
  cases m with
  | error e =>
    constructor
    · intro h
      cases h
    · rintro ⟨a, ha, -⟩
      cases ha
  | ok a =>
    constructor
    · intro h
      exact ⟨a, rfl, h⟩
    · rintro ⟨a', ha, hf⟩
      cases ha
      exact hf

theorem mapError_eq_ok {δ : Type} {f : ε → δ} {m : Except ε α} {a : α} :
    m.mapError f = .ok a ↔ m = .ok a := by
  cases m <;> simp [Except.mapError]

theorem map_eq_ok {f : α → β} {m : Except ε α} {b : β} :
    m.map f = .ok b ↔ ∃ a, m = .ok a ∧ f a = b := by
  cases m <;> simp [Except.map]

theorem toOption_eq_some {m : Except ε α} {a : α} : m.toOption = some a ↔ m = .ok a := by
  cases m <;> simp [Except.toOption]

theorem exists_error_of_ne_ok {m : Except ε α} (h : ∀ a, m ≠ .ok a) : ∃ err, m = .error err := by
  cases m with
  | error err => exact ⟨err, rfl⟩
  | ok a => exact absurd rfl (h a)

theorem elim_eq_ok {o : Option α} {err : ε} {a : α} :
    o.elim (.error err) Except.ok = .ok a ↔ o = some a := by
  cases o <;> simp

/-- The early return of an error when a check fails. -/
def failWhen (bad : Bool) (err : ε) : Except ε Unit :=
  if bad then .error err else .ok ()

theorem failWhen_eq_ok {bad : Bool} {err : ε} {u : Unit} :
    failWhen bad err = .ok u ↔ bad = false := by
  cases bad <;> simp [failWhen]

theorem mapM_eq_ok {f : α → Except ε β} {xs : List α} {ys : List β} :
    xs.mapM f = .ok ys ↔ List.Forall₂ (fun a b => f a = .ok b) xs ys := by
  induction xs generalizing ys with
  | nil =>
    rw [List.mapM_nil, List.forall₂_nil_left_iff]
    constructor
    · intro h
      cases h
      rfl
    · rintro rfl
      rfl
  | cons a xs ih =>
    rw [List.mapM_cons, bind_eq_ok]
    constructor
    · rintro ⟨b, hb, h⟩
      obtain ⟨bs, hbs, h⟩ := bind_eq_ok.mp h
      cases h
      exact .cons hb (ih.mp hbs)
    · intro h
      cases h with
      | cons hb hbs => exact ⟨_, hb, bind_eq_ok.mpr ⟨_, ih.mpr hbs, rfl⟩⟩

theorem exists_mapM_eq_ok {f : α → Except ε β} {xs : List α} (h : ∀ a ∈ xs, ∃ b, f a = .ok b) :
    ∃ ys, xs.mapM f = .ok ys := by
  induction xs with
  | nil => exact ⟨[], rfl⟩
  | cons a xs ih =>
    obtain ⟨b, hb⟩ := h a (by simp)
    obtain ⟨ys, hys⟩ := ih (fun c hc => h c (by simp [hc]))
    exact ⟨b :: ys, mapM_eq_ok.mpr (.cons hb (mapM_eq_ok.mp hys))⟩

theorem mapM_zipIdx_eq_ok {f : α × Nat → Except ε β} {xs : List α} {ys : List β} :
    xs.zipIdx.mapM f = .ok ys ↔ ys.length = xs.length ∧
      ∀ i a, xs[i]? = some a → ∃ b, ys[i]? = some b ∧ f (a, i) = .ok b := by
  rw [mapM_eq_ok, List.forall₂_iff_get]
  simp only [List.length_zipIdx, List.get_eq_getElem, List.getElem_zipIdx, Nat.zero_add]
  constructor
  · rintro ⟨hlen, h⟩
    refine ⟨hlen.symm, ?_⟩
    intro i a ha
    obtain ⟨hi, rfl⟩ := List.getElem?_eq_some_iff.mp ha
    have hi' : i < ys.length := by omega
    exact ⟨ys[i], List.getElem?_eq_getElem hi', h i hi hi'⟩
  · rintro ⟨hlen, h⟩
    refine ⟨hlen.symm, ?_⟩
    intro i hi hi'
    obtain ⟨b, hb, hf⟩ := h i xs[i] (List.getElem?_eq_getElem hi)
    obtain ⟨_, rfl⟩ := List.getElem?_eq_some_iff.mp hb
    exact hf

theorem mapM_perm {f : α → Except ε β} {xs xs' : List α} {ys : List β} (hp : xs'.Perm xs)
    (h : xs.mapM f = .ok ys) : ∃ ys', xs'.mapM f = .ok ys' ∧ ys'.Perm ys := by
  obtain ⟨ys', hys', hperm⟩ := List.perm_comp_forall₂ hp (mapM_eq_ok.mp h)
  exact ⟨ys', mapM_eq_ok.mpr hys', hperm⟩

end Fallible
