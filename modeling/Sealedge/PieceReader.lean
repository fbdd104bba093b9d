import Mathlib.Data.List.Basic

namespace PieceReader

/-- A source of items that hands them out in pieces. The sizes cut the next reads short; a read
without a size of its own fills the buffer. -/
structure Reader (α : Type) where
  rest : List α
  sizes : List Nat

namespace Reader

variable {α : Type}

/-- A source that fills every buffer as long as items are left. -/
def full (items : List α) : Reader α := ⟨items, []⟩

/-- How many items the next read into `room` places asks for. -/
def pieceSize (room : Nat) (r : Reader α) : Nat :=
  match r.sizes with
  | [] => room
  | size :: _ => min room (max 1 size)

/-- One read into a buffer of `room` places. -/
def read (room : Nat) (r : Reader α) : List α × Reader α :=
  (r.rest.take (r.pieceSize room), ⟨r.rest.drop (r.pieceSize room), r.sizes.tail⟩)

theorem pieceSize_le (room : Nat) (r : Reader α) : r.pieceSize room ≤ room := by
  unfold pieceSize
  split <;> omega

theorem pieceSize_pos {room : Nat} (h : 0 < room) (r : Reader α) : 0 < r.pieceSize room := by
  unfold pieceSize
  split <;> omega

theorem read_append (room : Nat) (r : Reader α) :
    (r.read room).1 ++ (r.read room).2.rest = r.rest :=
  List.take_append_drop _ _

theorem read_length_le (room : Nat) (r : Reader α) : (r.read room).1.length ≤ room := by
  have hlen : (r.read room).1.length ≤ r.pieceSize room := List.length_take_le _ _
  have hsize := r.pieceSize_le room
  omega

theorem read_eq_nil {room : Nat} (h : 0 < room) {r : Reader α} :
    (r.read room).1 = [] ↔ r.rest = [] := by
  have hpos := r.pieceSize_pos h
  simp only [read, List.take_eq_nil_iff]
  constructor
  · rintro (hzero | hnil)
    · omega
    · exact hnil
  · exact Or.inr

theorem read_rest_lt {room : Nat} {r : Reader α} (h : (r.read room).1 ≠ []) :
    (r.read room).2.rest.length < r.rest.length := by
  have hlen := congrArg List.length (r.read_append room)
  rw [List.length_append] at hlen
  have hpos := List.length_pos_of_ne_nil h
  omega

/-- Induction along the reads: it starts where a read returns nothing, and goes back over a read
that returns something. -/
theorem read_induction (room : Nat) {motive : Reader α → Prop}
    (atEnd : ∀ r, (r.read room).1 = [] → motive r)
    (next : ∀ r, (r.read room).1 ≠ [] → motive (r.read room).2 → motive r) (r : Reader α) :
    motive r := by
  induction hn : r.rest.length using Nat.strongRecOn generalizing r with
  | ind n ih =>
    subst hn
    by_cases hend : (r.read room).1 = []
    · exact atEnd r hend
    · exact next r hend (ih _ (read_rest_lt hend) _ rfl)

/-- What the reads into one buffer return until the end. -/
def pieces (room : Nat) (r : Reader α) : List (List α) :=
  if (r.read room).1.isEmpty then [] else (r.read room).1 :: (r.read room).2.pieces room
termination_by r.rest.length
decreasing_by
  rename_i hmore
  exact read_rest_lt (by simpa using hmore)

theorem pieces_nil {room : Nat} {r : Reader α} (h : (r.read room).1 = []) : r.pieces room = [] := by
  rw [pieces, if_pos (by simp [h])]

theorem pieces_cons {room : Nat} {r : Reader α} (h : (r.read room).1 ≠ []) :
    r.pieces room = (r.read room).1 :: (r.read room).2.pieces room := by
  rw [pieces, if_neg (by simp [h])]

theorem pieces_flatten {room : Nat} (hroom : 0 < room) (r : Reader α) :
    (r.pieces room).flatten = r.rest := by
  induction r using read_induction room with
  | atEnd r hend =>
    rw [pieces_nil hend, (read_eq_nil hroom).mp hend]
    rfl
  | next r hmore ih => rw [pieces_cons hmore, List.flatten_cons, ih, read_append]

theorem ne_nil_of_mem_pieces {room : Nat} {r : Reader α} {piece : List α}
    (h : piece ∈ r.pieces room) : piece ≠ [] := by
  induction r using read_induction room with
  | atEnd r hend =>
    rw [pieces_nil hend] at h
    contradiction
  | next r hmore ih =>
    rw [pieces_cons hmore] at h
    rcases List.mem_cons.mp h with rfl | hlater
    · exact hmore
    · exact ih hlater

theorem pieces_length_le {room : Nat} (hroom : 0 < room) {r : Reader α} {k : Nat}
    (h : ((r.pieces room).take k).flatten = r.rest) : (r.pieces room).length ≤ k := by
  have hparts : ((r.pieces room).take k).flatten ++ ((r.pieces room).drop k).flatten = r.rest := by
    rw [← List.flatten_append, List.take_append_drop, pieces_flatten hroom]
  rw [h] at hparts
  have hlast := List.append_right_eq_self.mp hparts
  have hempty : (r.pieces room).drop k = [] := by
    apply List.eq_nil_iff_forall_not_mem.mpr
    intro piece hpiece
    have hnil := List.flatten_eq_nil_iff.mp hlast piece hpiece
    exact ne_nil_of_mem_pieces (List.mem_of_mem_drop hpiece) hnil
  exact List.drop_eq_nil_iff.mp hempty

end Reader

/-- A way of reading hands out what a state has left: a read into some room returns a part of it
from the front that fits, and an empty one only at the end. -/
def Delivers {α ε ρ : Type} (read : Nat → ρ → Except ε (List α × ρ)) (left : ρ → List α → Prop) :
    Prop :=
  ∀ ⦃r : ρ⦄ ⦃items : List α⦄ ⦃room : Nat⦄, left r items → 0 < room →
    ∃ piece rest r', read room r = .ok (piece, r') ∧ items = piece ++ rest ∧
      piece.length ≤ room ∧ (items ≠ [] → piece ≠ []) ∧ left r' rest

theorem Reader.delivers {α ε : Type} :
    Delivers (ε := ε) (fun room (r : Reader α) => .ok (r.read room))
      (fun r items => r.rest = items) := by
  rintro r items room rfl hroom
  refine ⟨_, _, _, rfl, (r.read_append room).symm, r.read_length_le room, ?_, rfl⟩
  intro hleft hpiece
  exact hleft ((read_eq_nil hroom).mp hpiece)

end PieceReader
