import Mathlib.Algebra.Group.Nat.Defs
import Mathlib.Data.List.Basic
import Mathlib.Data.Nat.Notation

/-!
The default format of `bincode` 1.3: integers of fixed width with the least significant byte first,
and sequences behind their length in eight bytes.
-/

namespace Bincode

/-- The low `width` bytes of a number, least significant first. -/
def leBytes : Nat → Nat → List UInt8
  | 0, _ => []
  | width + 1, n => UInt8.ofNat n :: leBytes width (n / 256)

/-- `to_be_bytes`. -/
def beBytes (width n : Nat) : List UInt8 :=
  (leBytes width n).reverse

/-- The number that bytes spell, least significant first. -/
def ofLe : List UInt8 → Nat
  | [] => 0
  | b :: bs => b.toNat + 256 * ofLe bs

@[simp] theorem leBytes_length (width n : Nat) : (leBytes width n).length = width := by
  induction width generalizing n with
  | zero => rfl
  | succ width ih => simp [leBytes, ih]

@[simp] theorem beBytes_length (width n : Nat) : (beBytes width n).length = width := by
  simp [beBytes]

theorem ofLe_leBytes {width n : Nat} (h : n < 256 ^ width) : ofLe (leBytes width n) = n := by
  induction width generalizing n with
  | zero =>
    have hn : n = 0 := by simpa using h
    rw [hn]
    rfl
  | succ width ih =>
    have hrest : n / 256 < 256 ^ width := by
      rw [Nat.pow_succ] at h
      omega
    have hbyte : (UInt8.ofNat n).toNat = n % 256 := by simp
    rw [leBytes, ofLe, ih hrest, hbyte]
    omega

theorem leBytes_ofLe (bytes : List UInt8) : leBytes bytes.length (ofLe bytes) = bytes := by
  induction bytes with
  | nil => rfl
  | cons b bs ih =>
    have hb := b.toNat_lt
    have hfirst : UInt8.ofNat (b.toNat + 256 * ofLe bs) = b := by
      apply UInt8.toNat_inj.mp
      rw [UInt8.toNat_ofNat']
      omega
    have hrest : (b.toNat + 256 * ofLe bs) / 256 = ofLe bs := by omega
    rw [List.length_cons, ofLe, leBytes, hfirst, hrest, ih]

/-- Bytes of one width name one number below the width's bound. -/
theorem leBytes_inj {width m n : Nat} (hm : m < 256 ^ width) (hn : n < 256 ^ width)
    (h : leBytes width m = leBytes width n) : m = n := by
  have hv := congrArg ofLe h
  rwa [ofLe_leBytes hm, ofLe_leBytes hn] at hv

theorem leBytes_succ (width n : Nat) :
    leBytes (width + 1) n = leBytes width n ++ [UInt8.ofNat (n / 256 ^ width)] := by
  induction width generalizing n with
  | zero => simp [leBytes]
  | succ width ih =>
    rw [leBytes, ih, leBytes, List.cons_append, Nat.div_div_eq_div_mul, Nat.pow_succ']

theorem beBytes_drop_one (width n : Nat) : (beBytes (width + 1) n).drop 1 = beBytes width n := by
  rw [beBytes, leBytes_succ, List.reverse_append, List.reverse_singleton]
  rfl

theorem beBytes_inj {width m n : Nat} (hm : m < 256 ^ width) (hn : n < 256 ^ width)
    (h : beBytes width m = beBytes width n) : m = n :=
  leBytes_inj hm hn (List.reverse_injective h)

/-- A reader takes what it needs from the front and leaves the rest. -/
abbrev Get (α : Type) := StateT (List UInt8) Option α

def getBytes (width : Nat) : Get (List UInt8) := fun bytes =>
  if width ≤ bytes.length then some (bytes.take width, bytes.drop width) else none

/-- A `[u8; N]` stands without a length. -/
def getArray (width : Nat) : Get { bytes : List UInt8 // bytes.length = width } := fun bytes =>
  if h : width ≤ bytes.length then some (⟨bytes.take width, by simp [h]⟩, bytes.drop width)
  else none

/-- A check of what was read before, which takes nothing itself. -/
def check {α : Type} (v : Option α) : Get α := fun bytes =>
  v.map (·, bytes)

def getNat (width : Nat) : Get Nat := do
  let bytes ← getBytes width
  pure (ofLe bytes)

/-- A `Vec<u8>` stands after its length in eight bytes. -/
def putVec (bytes : List UInt8) : List UInt8 :=
  leBytes 8 bytes.length ++ bytes

def getVec : Get (List UInt8) := do
  let length ← getNat 8
  getBytes length

def getByte : Get UInt8
  | [] => none
  | b :: rest => some (b, rest)

/-- So many values one after the other. -/
def getMany {α : Type} (get : Get α) : Nat → Get (List α)
  | 0 => pure []
  | n + 1 => do
    let a ← get
    let as ← getMany get n
    pure (a :: as)

/-- Bytes left over after the value are ignored. -/
def deserialize {α : Type} (get : Get α) (bytes : List UInt8) : Option α :=
  (get bytes).map Prod.fst

/-- The reader finds `a` in `bytes`, whatever follows them. -/
def Reads {α : Type} (get : Get α) (bytes : List UInt8) (a : α) : Prop :=
  ∀ rest, get (bytes ++ rest) = some (a, rest)

section Rules

variable {α β : Type}

theorem reads_pure (a : α) : Reads (pure a) [] a := by
  intro rest
  rfl

theorem Reads.bind {get : Get α} {next : α → Get β} {first second : List UInt8} {a : α} {b : β}
    (hfirst : Reads get first a) (hsecond : Reads (next a) second b) :
    Reads (get >>= next) (first ++ second) b := by
  intro rest
  have h : (get >>= next) (first ++ (second ++ rest)) =
      (get (first ++ (second ++ rest))).bind (fun p => next p.1 p.2) := rfl
  rw [List.append_assoc, h, hfirst, Option.bind_some, hsecond]

theorem Reads.map {get : Get α} {f : α → β} {bytes : List UInt8} {a : α} (h : Reads get bytes a) :
    Reads (get >>= fun v => pure (f v)) bytes (f a) := by
  have hb : Reads (get >>= fun v => pure (f v)) (bytes ++ []) (f a) := h.bind (reads_pure (f a))
  rwa [List.append_nil] at hb

theorem Reads.deserialize {get : Get α} {bytes : List UInt8} {a : α} (h : Reads get bytes a) :
    deserialize get bytes = some a := by
  have hr := h []
  rw [List.append_nil] at hr
  rw [Bincode.deserialize, hr]
  rfl

theorem reads_getBytes {width : Nat} {bytes : List UInt8} (h : bytes.length = width) :
    Reads (getBytes width) bytes bytes := by
  intro rest
  have hle : width ≤ (bytes ++ rest).length := by
    rw [List.length_append]
    omega
  rw [getBytes, if_pos hle, ← h, List.take_left, List.drop_left]

theorem reads_getArray {width : Nat} (array : { bytes : List UInt8 // bytes.length = width }) :
    Reads (getArray width) array.val array := by
  intro rest
  obtain ⟨bytes, h⟩ := array
  subst h
  simp [getArray]

theorem reads_check {v : Option α} {a : α} (h : v = some a) : Reads (check v) [] a := by
  intro rest
  rw [h]
  rfl

theorem reads_getNat {width n : Nat} (h : n < 256 ^ width) :
    Reads (getNat width) (leBytes width n) n := by
  have hr := (reads_getBytes (leBytes_length width n)).map (f := ofLe)
  rwa [ofLe_leBytes h] at hr

theorem reads_getByte (b : UInt8) : Reads getByte [b] b := by
  intro rest
  rfl

theorem reads_getMany {get : Get α} {put : α → List UInt8} {as : List α}
    (h : ∀ a ∈ as, Reads get (put a) a) : Reads (getMany get as.length) (as.flatMap put) as := by
  induction as with
  | nil => exact reads_pure []
  | cons a as ih =>
    have hrest := ih (fun b hb => h b (List.mem_cons_of_mem a hb))
    rw [List.flatMap_cons]
    exact (h a List.mem_cons_self).bind hrest.map

theorem Reads.unique {get : Get α} {bytes : List UInt8} {a b : α} (ha : Reads get bytes a)
    (hb : Reads get bytes b) : a = b := by
  have h := (ha []).symm.trans (hb [])
  exact congrArg Prod.fst (Option.some.inj h)

theorem reads_getVec {bytes : List UInt8} (h : bytes.length < 256 ^ 8) :
    Reads getVec (putVec bytes) bytes :=
  (reads_getNat h).bind (reads_getBytes rfl)

/-- What the reader finds stands in a front part of its input, and the reader finds it there
whatever follows. -/
def Local (get : Get α) : Prop :=
  ∀ bytes a rest, get bytes = some (a, rest) → ∃ used, bytes = used ++ rest ∧ Reads get used a

theorem local_pure (a : α) : Local (pure a : Get α) := by
  intro bytes b rest h
  obtain ⟨rfl, rfl⟩ := Prod.mk.inj (Option.some.inj h)
  exact ⟨[], rfl, reads_pure a⟩

theorem Local.bind {get : Get α} {next : α → Get β} (hget : Local get)
    (hnext : ∀ a, Local (next a)) : Local (get >>= next) := by
  intro bytes b rest h
  obtain ⟨⟨a, middle⟩, ha, hb⟩ := Option.bind_eq_some_iff.mp h
  obtain ⟨first, rfl, hfirst⟩ := hget bytes a middle ha
  obtain ⟨second, rfl, hsecond⟩ := hnext a middle b rest hb
  exact ⟨first ++ second, (List.append_assoc first second rest).symm, hfirst.bind hsecond⟩

theorem local_getBytes (width : Nat) : Local (getBytes width) := by
  intro bytes a rest h
  unfold getBytes at h
  split at h
  next hle =>
    obtain ⟨rfl, rfl⟩ := Prod.mk.inj (Option.some.inj h)
    exact ⟨bytes.take width, (List.take_append_drop width bytes).symm,
      reads_getBytes (List.length_take_of_le hle)⟩
  next => contradiction

theorem local_getArray (width : Nat) : Local (getArray width) := by
  intro bytes a rest h
  unfold getArray at h
  split at h
  next hle =>
    obtain ⟨rfl, rfl⟩ := Prod.mk.inj (Option.some.inj h)
    exact ⟨bytes.take width, (List.take_append_drop width bytes).symm,
      reads_getArray ⟨bytes.take width, List.length_take_of_le hle⟩⟩
  next => contradiction

theorem local_getByte : Local getByte := by
  intro bytes b rest h
  cases bytes with
  | nil => contradiction
  | cons c cs =>
    obtain ⟨rfl, rfl⟩ := Prod.mk.inj (Option.some.inj h)
    exact ⟨[c], rfl, reads_getByte c⟩

theorem local_getNat (width : Nat) : Local (getNat width) :=
  (local_getBytes width).bind fun bytes => local_pure (ofLe bytes)

theorem local_getVec : Local getVec :=
  (local_getNat 8).bind local_getBytes

theorem Local.cut_eq_none {get : Get α} (hlocal : Local get) {front back : List UInt8} {a : α}
    (hread : Reads get (front ++ back) a) (hback : back ≠ []) : get front = none := by
  by_contra hne
  obtain ⟨⟨b, rest⟩, hb⟩ := Option.ne_none_iff_exists'.mp hne
  obtain ⟨used, rfl, hused⟩ := hlocal front b rest hb
  have hwhole := hread []
  rw [List.append_nil, List.append_assoc, hused] at hwhole
  have hrest := (Prod.mk.inj (Option.some.inj hwhole)).2
  exact hback (List.append_eq_nil_iff.mp hrest).2

theorem Local.rest_lt {get : Get α} (hlocal : Local get) (hempty : get [] = none)
    {bytes rest : List UInt8} {a : α} (h : get bytes = some (a, rest)) :
    rest.length < bytes.length := by
  obtain ⟨used, rfl, hused⟩ := hlocal bytes a rest h
  have hne : used ≠ [] := by
    rintro rfl
    have hnil := hused []
    rw [List.append_nil, hempty] at hnil
    contradiction
  have hpos := List.length_pos_of_ne_nil hne
  rw [List.length_append]
  omega

theorem cut_flatten {blocks : List (List UInt8)} {front back : List UInt8} (hback : back ≠ [])
    (h : blocks.flatten = front ++ back) : ∃ k part rest, blocks[k]? = some (part ++ rest) ∧
      rest ≠ [] ∧ front = (blocks.take k).flatten ++ part := by
  induction blocks generalizing front with
  | nil =>
    have hempty := (List.append_eq_nil_iff.mp h.symm).2
    contradiction
  | cons block blocks ih =>
    rw [List.flatten_cons] at h
    rcases List.append_eq_append_iff.mp h with ⟨middle, rfl, hlater⟩ | ⟨rest, rfl, hlater⟩
    · obtain ⟨k, part, rest, hk, hrest, rfl⟩ := ih hlater
      exact ⟨k + 1, part, rest, hk, hrest, by simp⟩
    · by_cases hrest : rest = []
      · subst hrest
        have hlater' : blocks.flatten = [] ++ back := hlater.symm
        obtain ⟨k, part, rest, hk, hrest, hnil⟩ := ih hlater'
        exact ⟨k + 1, part, rest, hk, hrest, by simp [← hnil]⟩
      · exact ⟨0, front, rest, rfl, hrest, rfl⟩

end Rules

end Bincode
