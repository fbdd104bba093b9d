import Mathlib.Data.List.Basic

namespace BufferedWriter

/-- What one call of the write below does: it takes so many of the items it is offered, or fails. -/
inductive Outcome (ε : Type)
  | takes (count : Nat)
  | fails (error : ε)

/-- The outcomes of the calls in their order, and the error of a call that takes nothing. -/
structure Device (ε : Type) where
  outcome : Nat → Outcome ε
  stuck : ε

/-- What a file holds, and how many calls it has had. -/
structure File (α : Type) where
  content : List α
  calls : Nat

/-- A file behind a buffer. -/
structure Writer (α : Type) where
  file : File α
  buf : List α

variable {α ε : Type}

/-- Every call takes something. -/
def Device.Steady (dev : Device ε) : Prop :=
  ∀ call, ∃ count, dev.outcome call = .takes (count + 1)

/-- The loop that offers items until all are taken; the call in progress takes `credit` more of
them. What is left comes back with the error that ended the loop. -/
def push (dev : Device ε) : Nat → List α → File α → Option ε × List α × File α
  | _, [], f => (none, [], f)
  | credit + 1, a :: rest, f => push dev credit rest { f with content := f.content ++ [a] }
  | 0, a :: rest, f =>
    match dev.outcome f.calls with
    | .fails e => (some e, a :: rest, { f with calls := f.calls + 1 })
    | .takes 0 => (some dev.stuck, a :: rest, { f with calls := f.calls + 1 })
    | .takes (count + 1) => push dev count rest ⟨f.content ++ [a], f.calls + 1⟩

theorem push_content (dev : Device ε) (credit : Nat) (items : List α) (f : File α) :
    (push dev credit items f).2.2.content ++ (push dev credit items f).2.1 =
      f.content ++ items := by
  induction items generalizing credit f with
  | nil => rfl
  | cons a rest ih =>
    cases credit with
    | succ credit => rw [push, ih, List.append_assoc, List.singleton_append]
    | zero =>
      rw [push]
      split
      next => rfl
      next => rfl
      next count _ => rw [ih, List.append_assoc, List.singleton_append]

theorem push_rest {dev : Device ε} {credit : Nat} {items : List α} {f : File α}
    (h : (push dev credit items f).1 = none) : (push dev credit items f).2.1 = [] := by
  induction items generalizing credit f with
  | nil => rfl
  | cons a rest ih =>
    cases credit with
    | succ credit => exact ih h
    | zero =>
      rw [push] at h ⊢
      split at h
      next => cases h
      next => cases h
      next count _ => exact ih h

theorem Device.Steady.push {dev : Device ε} (hdev : dev.Steady) (credit : Nat) (items : List α)
    (f : File α) : (push dev credit items f).1 = none := by
  induction items generalizing credit f with
  | nil => rfl
  | cons a rest ih =>
    cases credit with
    | succ credit => exact ih credit _
    | zero =>
      obtain ⟨count, hcall⟩ := hdev f.calls
      rw [BufferedWriter.push, hcall]
      exact ih count _

namespace Writer

/-- An empty file behind an empty buffer. -/
def new : Writer α := ⟨⟨[], 0⟩, []⟩

/-- Everything the writer has accepted, in the file or on its way there. -/
def written (w : Writer α) : List α := w.file.content ++ w.buf

/-- The buffer into the file. An error leaves the rest of the buffer. -/
def flush (dev : Device ε) (w : Writer α) : Option ε × Writer α :=
  ((push dev 0 w.buf w.file).1, ⟨(push dev 0 w.buf w.file).2.2, (push dev 0 w.buf w.file).2.1⟩)

/-- Items past the buffer, straight into the file. -/
def writeThrough (dev : Device ε) (items : List α) (w : Writer α) : Option ε × Writer α :=
  ((push dev 0 items w.file).1, { w with file := (push dev 0 items w.file).2.2 })

/-- The buffer takes items that fit. It is flushed before others, and as many as it holds go past
it. -/
def writeAll (dev : Device ε) (capacity : Nat) (items : List α) (w : Writer α) :
    Option ε × Writer α :=
  if items.length < capacity - w.buf.length then (none, { w with buf := w.buf ++ items })
  else
    match (if capacity - w.buf.length < items.length then w.flush dev else (none, w)) with
    | (some e, w) => (some e, w)
    | (none, w) =>
      if capacity ≤ items.length then w.writeThrough dev items
      else (none, { w with buf := w.buf ++ items })

/-- What the file holds once the writer is gone: it tries to flush, whatever comes of it. -/
def close (dev : Device ε) (w : Writer α) : List α := (w.flush dev).2.file.content

theorem flush_written (dev : Device ε) (w : Writer α) : (w.flush dev).2.written = w.written :=
  push_content dev 0 w.buf w.file

theorem flush_buf {dev : Device ε} {w : Writer α} (h : (w.flush dev).1 = none) :
    (w.flush dev).2.buf = [] :=
  push_rest h

theorem close_flush {dev : Device ε} {w : Writer α} (h : (w.flush dev).1 = none) :
    (w.flush dev).2.close dev = w.written := by
  have hempty := flush_buf h
  have hwritten := flush_written dev w
  have hagain := flush_written dev (w.flush dev).2
  have hbuf : ((w.flush dev).2.flush dev).2.buf = [] := by
    unfold flush at hempty ⊢
    rw [show (BufferedWriter.push dev 0 w.buf w.file).2.1 = [] from hempty]
    rfl
  rw [hwritten] at hagain
  unfold written at hagain
  rw [hbuf, List.append_nil] at hagain
  exact hagain

theorem writeThrough_written {dev : Device ε} {items : List α} {w : Writer α} (hbuf : w.buf = [])
    (h : (w.writeThrough dev items).1 = none) :
    (w.writeThrough dev items).2.written = w.written ++ items := by
  have hcontent := push_content dev 0 items w.file
  rw [push_rest h, List.append_nil] at hcontent
  unfold written writeThrough
  simp only [hbuf, List.append_nil]
  exact hcontent

theorem writeAll_written {dev : Device ε} {capacity : Nat} {items : List α} {w : Writer α}
    (h : (w.writeAll dev capacity items).1 = none) :
    (w.writeAll dev capacity items).2.written = w.written ++ items := by
  unfold writeAll at h ⊢
  by_cases hfits : items.length < capacity - w.buf.length
  · simp only [if_pos hfits, written, List.append_assoc]
  simp only [if_neg hfits] at h ⊢
  by_cases hflush : capacity - w.buf.length < items.length
  · simp only [if_pos hflush] at h ⊢
    have hwritten := flush_written dev w
    have hempty : (w.flush dev).1 = none → (w.flush dev).2.buf = [] := flush_buf
    rcases hflushed : w.flush dev with ⟨fault, w'⟩
    rw [hflushed] at h hwritten hempty
    cases fault with
    | some e => cases h
    | none =>
      simp only at h hwritten ⊢
      by_cases hlarge : capacity ≤ items.length
      · rw [if_pos hlarge] at h ⊢
        rw [writeThrough_written (hempty rfl) h, hwritten]
      · rw [if_neg hlarge, ← hwritten]
        simp only [written, List.append_assoc]
  · simp only [if_neg hflush] at h ⊢
    by_cases hlarge : capacity ≤ items.length
    · rw [if_pos hlarge] at h ⊢
      -- no room was missing and the items are as many as the buffer holds: it is empty
      by_cases hbuf : w.buf = []
      · exact writeThrough_written hbuf h
      · have hpos := List.length_pos_iff.mpr hbuf
        have hnone : items = [] := List.length_eq_zero_iff.mp (by omega)
        subst hnone
        rw [List.append_nil]
        rfl
    · rw [if_neg hlarge]
      simp only [written, List.append_assoc]

theorem writeAll_of_steady {dev : Device ε} (hdev : dev.Steady) (capacity : Nat) (items : List α)
    (w : Writer α) : (w.writeAll dev capacity items).1 = none := by
  unfold writeAll
  by_cases hfits : items.length < capacity - w.buf.length
  · rw [if_pos hfits]
  rw [if_neg hfits]
  have hready : (if capacity - w.buf.length < items.length then w.flush dev else (none, w)).1 =
      none := by
    split
    next => exact hdev.push 0 w.buf w.file
    next => rfl
  split
  next e w' heq =>
    rw [heq] at hready
    cases hready
  next w' heq =>
    split
    next => exact hdev.push 0 items w'.file
    next => rfl

end Writer

end BufferedWriter
