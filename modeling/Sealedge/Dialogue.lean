import Mathlib.Logic.Relation

namespace Dialogue

open Relation

section Descent

variable {α : Type} {r : α → α → Prop}

/-- Two single steps from one place meet again after one step each, or were the same step. -/
def Diamond (r : α → α → Prop) : Prop :=
  ∀ c d e, r c d → r c e → d = e ∨ ∃ f, r d f ∧ r e f

/-- So many steps one after the other. -/
inductive Steps (r : α → α → Prop) : Nat → α → α → Prop
  | zero (c : α) : Steps r 0 c c
  | succ {n : Nat} {c d e : α} (h : r c d) (hs : Steps r n d e) : Steps r (n + 1) c e

theorem steps_of_reaches {c e : α} (h : ReflTransGen r c e) : ∃ n, Steps r n c e := by
  induction h using ReflTransGen.head_induction_on with
  | refl => exact ⟨0, .zero e⟩
  | head hstep _ ih =>
    obtain ⟨n, hn⟩ := ih
    exact ⟨n + 1, .succ hstep hn⟩

theorem Steps.reaches {n : Nat} {c e : α} (h : Steps r n c e) : ReflTransGen r c e := by
  induction h with
  | zero c => exact .refl
  | succ hstep _ ih => exact .head hstep ih

theorem Steps.descends (hr : Diamond r) {n : Nat} {c e : α} (h : Steps r n c e)
    (hend : ∀ f, ¬r e f) {d : α} (hd : r c d) : ∃ m, n = m + 1 ∧ Steps r m d e := by
  induction h generalizing d with
  | zero c => exact absurd hd (hend d)
  | succ hstep hs ih =>
    rcases hr _ _ _ hd hstep with rfl | ⟨f, hdf, hf⟩
    · exact ⟨_, rfl, hs⟩
    · obtain ⟨m, rfl, hm⟩ := ih hend hf
      exact ⟨m + 1, rfl, .succ hdf hm⟩

theorem Steps.acc (hr : Diamond r) {n : Nat} {c e : α} (h : Steps r n c e)
    (hend : ∀ f, ¬r e f) : Acc (fun d c => r c d) c := by
  induction n generalizing c with
  | zero =>
    refine Acc.intro c fun d hd => ?_
    obtain ⟨m, hm, -⟩ := h.descends hr hend hd
    contradiction
  | succ n ih =>
    refine Acc.intro c fun d hd => ?_
    obtain ⟨m, hm, hs⟩ := h.descends hr hend hd
    obtain rfl : n = m := Nat.succ.inj hm
    exact ih hs

theorem Steps.joins (hr : Diamond r) {n : Nat} {c e : α} (h : Steps r n c e)
    (hend : ∀ f, ¬r e f) {d : α} (hd : ReflTransGen r c d) : ReflTransGen r d e := by
  induction hd using ReflTransGen.head_induction_on generalizing n with
  | refl => exact h.reaches
  | head hstep _ ih =>
    obtain ⟨m, -, hs⟩ := h.descends hr hend hstep
    exact ih hs

end Descent

/-- What a peer does next: it returns, goes on by itself, sends, or waits for so many bytes. When
the stream ends before them it goes on with what is left. -/
inductive Act (σ ρ : Type) where
  | done (result : ρ)
  | step (next : σ)
  | send (bytes : List UInt8) (next : σ)
  | read (width : Nat) (next : List UInt8 → σ) (ended : List UInt8 → σ)

/-- A program by what it does in each of its states; it may go on forever. -/
abbrev Peer (σ ρ : Type) := σ → Act σ ρ

namespace Act

variable {σ τ ρ : Type}

def returned : Act σ ρ → Bool
  | done _ => true
  | _ => false

/-- The next state of a peer before which `arrived` lies unread, with what is left unread and what
the peer sends. -/
def move (closed : Bool) : Act σ ρ → List UInt8 → Option (σ × List UInt8 × List UInt8)
  | done _, _ => none
  | step next, arrived => some (next, arrived, [])
  | send bytes next, arrived => some (next, arrived, bytes)
  | read width next ended, arrived =>
    if width ≤ arrived.length then some (next (arrived.take width), arrived.drop width, [])
    else if closed then some (ended arrived, [], [])
    else none

theorem exists_of_returned {a : Act σ ρ} (h : a.returned = true) : ∃ result, a = done result := by
  cases a with
  | done result => exact ⟨result, rfl⟩
  | step next => contradiction
  | send bytes next => contradiction
  | read width next ended => contradiction

theorem returned_of_move {closed : Bool} {a : Act σ ρ} {s : σ} {arrived left out : List UInt8}
    (h : a.move closed arrived = some (s, left, out)) : a.returned = false := by
  cases a with
  | done result => contradiction
  | step next => rfl
  | send bytes next => rfl
  | read width next ended => rfl

/-- A step taken while the stream is open is not changed by what arrives later. -/
theorem move_append {closed : Bool} {a : Act σ ρ} {s : σ} {arrived left out : List UInt8}
    (h : a.move false arrived = some (s, left, out)) (more : List UInt8) :
    a.move closed (arrived ++ more) = some (s, left ++ more, out) := by
  cases a with
  | done result => contradiction
  | step next =>
    obtain ⟨rfl, rfl, rfl⟩ := by simpa [move] using h
    rfl
  | send bytes next =>
    obtain ⟨rfl, rfl, rfl⟩ := by simpa [move] using h
    rfl
  | read width next ended =>
    rw [move] at h
    split at h
    next hle =>
      obtain ⟨rfl, rfl, rfl⟩ := by simpa using h
      have hmore : width ≤ (arrived ++ more).length := by
        rw [List.length_append]
        omega
      rw [move, if_pos hmore, List.take_append_of_le_length hle, List.drop_append_of_le_length hle]
    next => contradiction

theorem move_read {closed : Bool} {width : Nat} {next ended : List UInt8 → σ}
    {bytes rest : List UInt8} (hwidth : bytes.length = width) :
    (read width next ended : Act σ ρ).move closed (bytes ++ rest) =
      some (next bytes, rest, []) := by
  have hle : width ≤ (bytes ++ rest).length := by
    rw [List.length_append]
    omega
  rw [move, if_pos hle, ← hwidth, List.take_left, List.drop_left]

theorem move_ended {width : Nat} {next ended : List UInt8 → σ} {arrived : List UInt8}
    (hshort : arrived.length < width) :
    (read width next ended : Act σ ρ).move true arrived = some (ended arrived, [], []) := by
  rw [move, if_neg (Nat.not_le.mpr hshort), if_pos rfl]

end Act

/-- Two peers and what lies unread before each of them. -/
structure Scene (σ τ : Type) where
  left : σ
  toLeft : List UInt8
  right : τ
  toRight : List UInt8

section Talking

variable {σ τ ρ κ : Type} (p : Peer σ ρ) (q : Peer τ κ)

/-- One step of either peer. What it sends arrives unmodified, behind what was sent before, and a
peer that has returned closes its stream. -/
inductive Step : Scene σ τ → Scene σ τ → Prop
  | left {s s' : σ} {t : τ} {toLeft rest toRight out : List UInt8}
      (h : (p s).move (q t).returned toLeft = some (s', rest, out)) :
      Step ⟨s, toLeft, t, toRight⟩ ⟨s', rest, t, toRight ++ out⟩
  | right {s : σ} {t t' : τ} {toLeft toRight rest out : List UInt8}
      (h : (q t).move (p s).returned toRight = some (t', rest, out)) :
      Step ⟨s, toLeft, t, toRight⟩ ⟨s, toLeft ++ out, t', rest⟩

/-- The scenes that the peers can get to, whoever moves first. -/
abbrev Reaches (c d : Scene σ τ) : Prop := ReflTransGen (Step p q) c d

/-- Both peers have returned. -/
def Over (c : Scene σ τ) : Prop :=
  (p c.left).returned = true ∧ (q c.right).returned = true

/-- Whatever order the steps are taken in, the peers get to `final`, where both have returned, and
do not go on forever. -/
structure EndsIn (c final : Scene σ τ) : Prop where
  bothReturned : Over p q final
  terminates : Acc (fun d c => Step p q c d) c
  joins : ∀ d, Reaches p q c d → Reaches p q d final

variable {p q}

theorem step_diamond : Diamond (Step p q) := by
  intro c d e hd he
  cases hd with
  | left hleft =>
    cases he with
    | left hleft' =>
      obtain ⟨rfl, rfl, rfl⟩ := by simpa using hleft.symm.trans hleft'
      exact .inl rfl
    | right hright =>
      rw [Act.returned_of_move hleft] at hright
      rw [Act.returned_of_move hright] at hleft
      exact .inr ⟨_, .right (Act.move_append hright _), .left (Act.move_append hleft _)⟩
  | right hright =>
    cases he with
    | left hleft =>
      rw [Act.returned_of_move hleft] at hright
      rw [Act.returned_of_move hright] at hleft
      exact .inr ⟨_, .left (Act.move_append hleft _), .right (Act.move_append hright _)⟩
    | right hright' =>
      obtain ⟨rfl, rfl, rfl⟩ := by simpa using hright.symm.trans hright'
      exact .inl rfl

theorem Over.not_step {c d : Scene σ τ} (h : Over p q c) : ¬Step p q c d := by
  intro hstep
  cases hstep with
  | left hmove => exact Bool.noConfusion ((Act.returned_of_move hmove).symm.trans h.1)
  | right hmove => exact Bool.noConfusion ((Act.returned_of_move hmove).symm.trans h.2)

/-- When one order of the steps lets both peers return, every order leads there. -/
theorem endsIn_of_reaches {c final : Scene σ τ} (h : Reaches p q c final) (hover : Over p q final) :
    EndsIn p q c final := by
  obtain ⟨n, hn⟩ := steps_of_reaches h
  exact ⟨hover, hn.acc step_diamond fun _ => hover.not_step,
    fun _ hd => hn.joins step_diamond (fun _ => hover.not_step) hd⟩

/-- However the steps are ordered, the peers return these two results. -/
def EndsWith (p : Peer σ ρ) (q : Peer τ κ) (c : Scene σ τ) (leftResult : ρ) (rightResult : κ) :
    Prop :=
  ∃ final, EndsIn p q c final ∧ p final.left = .done leftResult ∧ q final.right = .done rightResult

theorem endsWith_of_reaches {c final : Scene σ τ} {leftResult : ρ} {rightResult : κ}
    (h : Reaches p q c final) (hleft : p final.left = .done leftResult)
    (hright : q final.right = .done rightResult) : EndsWith p q c leftResult rightResult :=
  ⟨final, endsIn_of_reaches h ⟨by rw [hleft, Act.returned], by rw [hright, Act.returned]⟩, hleft,
    hright⟩

theorem EndsWith.of_reaches {c d : Scene σ τ} {leftResult : ρ} {rightResult : κ}
    (h : EndsWith p q d leftResult rightResult) (hd : Reaches p q c d) :
    EndsWith p q c leftResult rightResult := by
  obtain ⟨final, hends, hleft, hright⟩ := h
  exact endsWith_of_reaches (hd.trans (hends.joins d .refl)) hleft hright

theorem left_of_reaches {c d : Scene σ τ} {result : ρ} (h : Reaches p q c d)
    (hdone : p c.left = .done result) : d.left = c.left := by
  induction h with
  | refl => rfl
  | tail _ hstep ih =>
    cases hstep with
    | left hmove =>
      have hleft := congrArg p ih
      rw [hdone] at hleft
      rw [show p _ = .done result from hleft] at hmove
      contradiction
    | right _ => exact ih

theorem right_of_reaches {c d : Scene σ τ} {result : κ} (h : Reaches p q c d)
    (hdone : q c.right = .done result) : d.right = c.right := by
  induction h with
  | refl => rfl
  | tail _ hstep ih =>
    cases hstep with
    | left _ => exact ih
    | right hmove =>
      have hright := congrArg q ih
      rw [hdone] at hright
      rw [show q _ = .done result from hright] at hmove
      contradiction

theorem EndsWith.left_result {c d : Scene σ τ} {leftResult result : ρ} {rightResult : κ}
    (h : EndsWith p q c leftResult rightResult) (hd : Reaches p q c d)
    (hdone : p d.left = .done result) : result = leftResult := by
  obtain ⟨final, hends, hleft, -⟩ := h
  rw [left_of_reaches (hends.joins d hd) hdone, hdone] at hleft
  exact Act.done.inj hleft

theorem EndsWith.right_result {c d : Scene σ τ} {leftResult : ρ} {rightResult result : κ}
    (h : EndsWith p q c leftResult rightResult) (hd : Reaches p q c d)
    (hdone : q d.right = .done result) : result = rightResult := by
  obtain ⟨final, hends, -, hright⟩ := h
  rw [right_of_reaches (hends.joins d hd) hdone, hdone] at hright
  exact Act.done.inj hright

/-- The peers get to a scene in which neither of them can move. -/
def GetsStuck (p : Peer σ ρ) (q : Peer τ κ) (c : Scene σ τ) : Prop :=
  ∃ stuck, Reaches p q c stuck ∧ (∀ d, ¬Step p q stuck d) ∧ (p stuck.left).returned = false ∧
    (q stuck.right).returned = false

/-- Where the peers get stuck in one order of the steps, neither ever returns in another. -/
theorem GetsStuck.not_returned {c d : Scene σ τ} (h : GetsStuck p q c) (hd : Reaches p q c d) :
    (p d.left).returned = false ∧ (q d.right).returned = false := by
  obtain ⟨stuck, hreaches, hstuck, hleft, hright⟩ := h
  obtain ⟨n, hn⟩ := steps_of_reaches hreaches
  have hjoins : Reaches p q d stuck := hn.joins step_diamond hstuck hd
  refine ⟨Bool.eq_false_iff.mpr fun hdone => ?_, Bool.eq_false_iff.mpr fun hdone => ?_⟩
  · obtain ⟨result, hact⟩ := Act.exists_of_returned hdone
    rw [left_of_reaches hjoins hact, hact] at hleft
    contradiction
  · obtain ⟨result, hact⟩ := Act.exists_of_returned hdone
    rw [right_of_reaches hjoins hact, hact] at hright
    contradiction

end Talking

section Rules

variable {σ τ ρ κ : Type} {p : Peer σ ρ} {q : Peer τ κ}

/-- A peer gets from `s` to `u` on its own when it is given `taken`, and sends `given`. -/
inductive Goes (p : Peer σ ρ) : σ → List UInt8 → List UInt8 → σ → Prop
  | refl (s : σ) : Goes p s [] [] s
  | step {s next u : σ} {taken given : List UInt8} (hact : p s = .step next)
      (h : Goes p next taken given u) : Goes p s taken given u
  | send {s next u : σ} {bytes taken given : List UInt8} (hact : p s = .send bytes next)
      (h : Goes p next taken given u) : Goes p s taken (bytes ++ given) u
  | read {s u : σ} {width : Nat} {next ended : List UInt8 → σ} {bytes taken given : List UInt8}
      (hact : p s = .read width next ended) (hwidth : bytes.length = width)
      (h : Goes p (next bytes) taken given u) : Goes p s (bytes ++ taken) given u

theorem Goes.trans {s t u : σ} {taken given taken' given' : List UInt8} (h : Goes p s taken given t)
    (h' : Goes p t taken' given' u) : Goes p s (taken ++ taken') (given ++ given') u := by
  induction h with
  | refl s => exact h'
  | step hact _ ih => exact .step hact (ih h')
  | send hact _ ih =>
    rw [List.append_assoc]
    exact .send hact (ih h')
  | read hact hwidth _ ih =>
    rw [List.append_assoc]
    exact .read hact hwidth (ih h')

theorem goes_step {s next : σ} (hact : p s = .step next) : Goes p s [] [] next :=
  .step hact (.refl next)

theorem goes_send {s next : σ} {bytes : List UInt8} (hact : p s = .send bytes next) :
    Goes p s [] bytes next := by
  have h : Goes p s [] (bytes ++ []) next := .send hact (.refl next)
  rwa [List.append_nil] at h

theorem goes_read {s : σ} {width : Nat} {next ended : List UInt8 → σ} {bytes : List UInt8}
    (hact : p s = .read width next ended) (hwidth : bytes.length = width) :
    Goes p s bytes [] (next bytes) := by
  have h : Goes p s (bytes ++ []) [] (next bytes) := .read hact hwidth (.refl _)
  rwa [List.append_nil] at h

variable {toLeft toRight : List UInt8}

theorem Goes.reaches_left {s u : σ} {taken given : List UInt8} (h : Goes p s taken given u)
    (t : τ) : Reaches p q ⟨s, taken ++ toLeft, t, toRight⟩ ⟨u, toLeft, t, toRight ++ given⟩ := by
  induction h generalizing toRight with
  | refl s =>
    rw [List.append_nil]
    exact .refl
  | step hact _ ih =>
    refine .head (.left (by rw [hact, Act.move])) ?_
    rw [List.append_nil]
    exact ih
  | send hact _ ih =>
    rw [← List.append_assoc]
    exact .head (.left (by rw [hact, Act.move])) ih
  | read hact hwidth _ ih =>
    rw [List.append_assoc]
    refine .head (.left (by rw [hact, Act.move_read hwidth])) ?_
    rw [List.append_nil]
    exact ih

theorem Goes.reaches_right {t u : τ} {taken given : List UInt8} (h : Goes q t taken given u)
    (s : σ) : Reaches p q ⟨s, toLeft, t, taken ++ toRight⟩ ⟨s, toLeft ++ given, u, toRight⟩ := by
  induction h generalizing toLeft with
  | refl t =>
    rw [List.append_nil]
    exact .refl
  | step hact _ ih =>
    refine .head (.right (by rw [hact, Act.move])) ?_
    rw [List.append_nil]
    exact ih
  | send hact _ ih =>
    rw [← List.append_assoc]
    exact .head (.right (by rw [hact, Act.move])) ih
  | read hact hwidth _ ih =>
    rw [List.append_assoc]
    refine .head (.right (by rw [hact, Act.move_read hwidth])) ?_
    rw [List.append_nil]
    exact ih

theorem Goes.turn_left {s u : σ} {taken given : List UInt8} (h : Goes p s taken given u) (t : τ) :
    Reaches p q ⟨s, taken, t, toRight⟩ ⟨u, [], t, toRight ++ given⟩ := by
  have hreaches : Reaches p q ⟨s, taken ++ [], t, toRight⟩ ⟨u, [], t, toRight ++ given⟩ :=
    h.reaches_left t
  rwa [List.append_nil] at hreaches

theorem Goes.turn_right {t u : τ} {taken given : List UInt8} (h : Goes q t taken given u) (s : σ) :
    Reaches p q ⟨s, toLeft, t, taken⟩ ⟨s, toLeft ++ given, u, []⟩ := by
  have hreaches : Reaches p q ⟨s, toLeft, t, taken ++ []⟩ ⟨s, toLeft ++ given, u, []⟩ :=
    h.reaches_right s
  rwa [List.append_nil] at hreaches

theorem reaches_left_ended {s : σ} {t : τ} {width : Nat} {next ended : List UInt8 → σ}
    (hact : p s = .read width next ended) (hshort : toLeft.length < width)
    (hclosed : (q t).returned = true) :
    Reaches p q ⟨s, toLeft, t, toRight⟩ ⟨ended toLeft, [], t, toRight⟩ := by
  have hstep : Step p q ⟨s, toLeft, t, toRight⟩ ⟨ended toLeft, [], t, toRight ++ []⟩ :=
    .left (by rw [hact, hclosed, Act.move_ended hshort])
  rw [List.append_nil] at hstep
  exact .single hstep

theorem reaches_right_ended {s : σ} {t : τ} {width : Nat} {next ended : List UInt8 → τ}
    (hact : q t = .read width next ended) (hshort : toRight.length < width)
    (hclosed : (p s).returned = true) :
    Reaches p q ⟨s, toLeft, t, toRight⟩ ⟨s, toLeft, ended toRight, []⟩ := by
  have hstep : Step p q ⟨s, toLeft, t, toRight⟩ ⟨s, toLeft ++ [], ended toRight, []⟩ :=
    .right (by rw [hact, hclosed, Act.move_ended hshort])
  rw [List.append_nil] at hstep
  exact .single hstep

end Rules

section Upsets

variable {σ τ ρ κ : Type}

/-- Where a peer may be taken from each of its states when a timer runs out or, once the other side
has returned, the connection breaks. -/
abbrev Upsets (σ : Type) := Bool → σ → List σ

/-- What is on its way when a peer is upset. -/
def Act.sending : Act σ ρ → List UInt8
  | send bytes _ => bytes
  | _ => []

/-- One step of either peer, or an upset of one, which may have sent a part of what it sends, but
not all of it. -/
inductive RoughStep (p : Peer σ ρ) (f : Upsets σ) (q : Peer τ κ) (g : Upsets τ) :
    Scene σ τ → Scene σ τ → Prop
  | calm {c d : Scene σ τ} (h : Step p q c d) : RoughStep p f q g c d
  | left {s s' : σ} {t : τ} {toLeft toRight part : List UInt8} (h : s' ∈ f (q t).returned s)
      (hpart : part <+: (p s).sending.dropLast) :
      RoughStep p f q g ⟨s, toLeft, t, toRight⟩ ⟨s', toLeft, t, toRight ++ part⟩
  | right {s : σ} {t t' : τ} {toLeft toRight part : List UInt8} (h : t' ∈ g (p s).returned t)
      (hpart : part <+: (q t).sending.dropLast) :
      RoughStep p f q g ⟨s, toLeft, t, toRight⟩ ⟨s, toLeft ++ part, t', toRight⟩

abbrev ReachesRoughly (p : Peer σ ρ) (f : Upsets σ) (q : Peer τ κ) (g : Upsets τ) :
    Scene σ τ → Scene σ τ → Prop :=
  ReflTransGen (RoughStep p f q g)

/-- What one peer does at once, with what it reads and what it sends. -/
inductive Deed (p : Peer σ ρ) (f : Upsets σ) : σ → List UInt8 → List UInt8 → σ → Prop
  | step {s next : σ} (hact : p s = .step next) : Deed p f s [] [] next
  | send {s next : σ} {bytes : List UInt8} (hact : p s = .send bytes next) :
    Deed p f s [] bytes next
  | read {s : σ} {width : Nat} {next ended : List UInt8 → σ} {bytes : List UInt8}
      (hact : p s = .read width next ended) (hwidth : bytes.length = width) :
      Deed p f s bytes [] (next bytes)
  | ended {s : σ} {width : Nat} {next ended : List UInt8 → σ} {bytes : List UInt8}
      (hact : p s = .read width next ended) : Deed p f s bytes [] (ended bytes)
  | upset {s s' : σ} {closed : Bool} {part : List UInt8} (h : s' ∈ f closed s)
      (hpart : part <+: (p s).sending.dropLast) : Deed p f s [] part s'

/-- All that a peer has read and sent since it was in a state. -/
inductive Past (p : Peer σ ρ) (f : Upsets σ) : σ → List UInt8 → List UInt8 → σ → Prop
  | start (s : σ) : Past p f s [] [] s
  | deed {s t u : σ} {taken given more out : List UInt8} (h : Past p f s taken given t)
      (hdeed : Deed p f t more out u) : Past p f s (taken ++ more) (given ++ out) u

variable {p : Peer σ ρ} {f : Upsets σ} {q : Peer τ κ} {g : Upsets τ}

theorem deed_of_move {closed : Bool} {s s' : σ} {arrived rest out : List UInt8}
    (h : (p s).move closed arrived = some (s', rest, out)) :
    ∃ more, arrived = more ++ rest ∧ Deed p f s more out s' := by
  cases hact : p s with
  | done result =>
    rw [hact] at h
    contradiction
  | step next =>
    rw [hact] at h
    obtain ⟨rfl, rfl, rfl⟩ := by simpa [Act.move] using h
    exact ⟨[], rfl, .step hact⟩
  | send bytes next =>
    rw [hact] at h
    obtain ⟨rfl, rfl, rfl⟩ := by simpa [Act.move] using h
    exact ⟨[], rfl, .send hact⟩
  | read width next ended =>
    rw [hact, Act.move] at h
    split at h
    next hle =>
      obtain ⟨rfl, rfl, rfl⟩ := by simpa using h
      exact ⟨_, (List.take_append_drop _ _).symm, .read hact (by rw [List.length_take]; omega)⟩
    next =>
      split at h
      next =>
        obtain ⟨rfl, rfl, rfl⟩ := by simpa using h
        exact ⟨_, (List.append_nil _).symm, .ended hact⟩
      next => contradiction

/-- What each peer has read is the beginning of what the other one has sent, and the rest of it lies
unread. -/
theorem past_of_rough {s : σ} {t : τ} {d : Scene σ τ}
    (h : ReachesRoughly p f q g ⟨s, [], t, []⟩ d) : ∃ taken taken',
      Past p f s taken (taken' ++ d.toRight) d.left ∧
      Past q g t taken' (taken ++ d.toLeft) d.right := by
  induction h with
  | refl => exact ⟨[], [], .start s, .start t⟩
  | tail _ hstep ih =>
    obtain ⟨taken, taken', hleft, hright⟩ := ih
    cases hstep with
    | calm hcalm =>
      cases hcalm with
      | left hmove =>
        obtain ⟨more, harrived, hdeed⟩ := deed_of_move (f := f) hmove
        dsimp only at hleft hright
        rw [harrived, ← List.append_assoc] at hright
        have hnext := hleft.deed hdeed
        rw [List.append_assoc] at hnext
        exact ⟨_, _, hnext, hright⟩
      | right hmove =>
        obtain ⟨more, harrived, hdeed⟩ := deed_of_move (f := g) hmove
        dsimp only at hleft hright
        rw [harrived, ← List.append_assoc] at hleft
        have hnext := hright.deed hdeed
        rw [List.append_assoc] at hnext
        exact ⟨_, _, hleft, hnext⟩
    | left hupset hpart =>
      have hnext := hleft.deed (.upset hupset hpart)
      rw [List.append_nil, List.append_assoc] at hnext
      exact ⟨_, _, hnext, hright⟩
    | right hupset hpart =>
      have hnext := hright.deed (.upset hupset hpart)
      rw [List.append_nil, List.append_assoc] at hnext
      exact ⟨_, _, hleft, hnext⟩

end Upsets

end Dialogue
