import Mathlib.Data.List.Basic

namespace Slices

variable {α : Type}

theorem toChunks_cons_eq_go {size : Nat} (hsize : 0 < size) (x : α) (xs : List α) :
    (x :: xs).toChunks size = List.toChunks.go size xs #[x] #[] := by
  cases size with
  | zero => omega
  | succ n => rfl

/-- The loop of `toChunks` completes the slice it has begun and cuts the rest as a list of its
own. -/
theorem toChunks_go {size : Nat} (hsize : 0 < size) (xs : List α) (slice : Array α)
    (done : Array (List α)) (hslice : slice.size ≤ size) :
    List.toChunks.go size xs slice done = done.toList ++
      (slice.toList ++ xs.take (size - slice.size)) ::
        (xs.drop (size - slice.size)).toChunks size := by
  induction xs generalizing slice done with
  | nil => simp [List.toChunks.go, List.toChunks]
  | cons x xs ih =>
    have hone : #[x].size ≤ size := hsize
    rw [List.toChunks.go]
    by_cases hfull : slice.size = size
    · -- a full slice is put aside, and a new one begins with the next item
      have hnext := toChunks_cons_eq_go hsize x xs
      rw [ih #[x] #[] hone] at hnext
      have hopen : (Array.mkEmpty size).push x = #[x] := rfl
      rw [if_pos (by simpa using hfull), hopen, ih #[x] _ hone, hfull, Nat.sub_self, List.drop_zero,
        hnext]
      simp
    · have hroom : size - slice.size = size - (slice.size + 1) + 1 := by omega
      rw [if_neg (by simpa using hfull), ih _ _ (by rw [Array.size_push]; omega), hroom]
      simp

/-- The first slice is as long as it can be, and the rest is cut in the same way. -/
theorem toChunks_of_ne_nil {size : Nat} (hsize : 0 < size) {xs : List α} (hne : xs ≠ []) :
    xs.toChunks size = xs.take size :: (xs.drop size).toChunks size := by
  obtain ⟨x, rest, rfl⟩ := List.exists_cons_of_ne_nil hne
  obtain ⟨n, rfl⟩ := Nat.exists_eq_add_of_lt hsize
  rw [toChunks_cons_eq_go hsize, toChunks_go hsize rest #[x] #[] hsize]
  simp

/-- What holds of every item and its place carries over to a list with one more in front. -/
theorem forall_place_cons {P : Nat → α → Prop} {start : Nat} {x : α} {xs : List α}
    (head : P start x) (tail : ∀ i y, xs[i]? = some y → P (start + 1 + i) y) :
    ∀ i y, (x :: xs)[i]? = some y → P (start + i) y := by
  intro i y hi
  cases i with
  | zero =>
    rw [List.getElem?_cons_zero] at hi
    rw [← Option.some.inj hi]
    exact head
  | succ i =>
    rw [List.getElem?_cons_succ] at hi
    have hplace : start + 1 + i = start + (i + 1) := by omega
    rw [← hplace]
    exact tail i y hi

theorem length_le_flatten {parts : List (List α)} (h : ∀ part ∈ parts, 0 < part.length) :
    parts.length ≤ parts.flatten.length := by
  induction parts with
  | nil => simp
  | cons part rest ih =>
    have hhead := h part (List.mem_cons_self ..)
    have htail := ih (fun other hmem => h other (List.mem_cons_of_mem _ hmem))
    rw [List.flatten_cons, List.length_append, List.length_cons]
    omega

end Slices
