import Mathlib.Algebra.Group.Nat.Defs
import Mathlib.Data.List.Basic
import Mathlib.Data.Nat.Notation

namespace IpAddress

inductive Addr
  | v4 (bits : BitVec 32)
  | v6 (bits : BitVec 128)
  deriving DecidableEq

/-- A block of addresses by one of them and the number of bits that all of them share. -/
structure Block (width : Nat) where
  addr : BitVec width
  shared : Nat
  shared_le : shared ≤ width

inductive Net
  | v4 (block : Block 32)
  | v6 (block : Block 128)

def Block.size {width : Nat} (b : Block width) : Nat :=
  2 ^ (width - b.shared)

/-- The first address of the block. -/
def Block.network {width : Nat} (b : Block width) : Nat :=
  b.addr.toNat / b.size * b.size

def Block.broadcast {width : Nat} (b : Block width) : Nat :=
  b.network + (b.size - 1)

def Block.contains {width : Nat} (b : Block width) (a : BitVec width) : Bool :=
  decide (b.network ≤ a.toNat) && decide (a.toNat ≤ b.broadcast)

/-- `IpNet::contains` of the `ipnet` crate, from the network address to the broadcast address. No
block holds an address of the other kind. -/
def Net.contains : Net → Addr → Bool
  | .v4 block, .v4 bits => block.contains bits
  | .v6 block, .v6 bits => block.contains bits
  | _, _ => false

/-- A reader takes what it needs from the front and leaves the rest; one that fails takes
nothing. -/
abbrev Read (α : Type) := StateT (List Char) Option α

/-- `char::to_digit`. -/
def toDigit (radix : Nat) (c : Char) : Option Nat :=
  let value :=
    if '0' ≤ c ∧ c ≤ '9' then some (c.toNat - '0'.toNat)
    else if 'a' ≤ c ∧ c ≤ 'f' then some (c.toNat - 'a'.toNat + 10)
    else if 'A' ≤ c ∧ c ≤ 'F' then some (c.toNat - 'A'.toNat + 10)
    else none
  value.filter (· < radix)

/-- The number that digits spell. -/
def ofDigits (radix : Nat) (digits : List Char) : Nat :=
  digits.foldl (fun n c => n * radix + (toDigit radix c).getD 0) 0

/-- All digits at the front, which must be a number of at most so many digits below a bound. -/
def readNumber (radix maxDigits bound : Nat) (allowZeroPrefix : Bool) : Read Nat := fun cs =>
  let digits := cs.takeWhile fun c => (toDigit radix c).isSome
  if digits.length = 0 ∨ maxDigits < digits.length ∨
      (allowZeroPrefix = false ∧ digits.head? = some '0' ∧ 1 < digits.length) ∨
      bound ≤ ofDigits radix digits then none
  else some (ofDigits radix digits, cs.drop digits.length)

def readGivenChar (c : Char) : Read Unit
  | [] => none
  | d :: rest => if d = c then some ((), rest) else none

/-- A part of a list, after the separator unless it is the first. -/
def readSeparated {α : Type} (sep : Char) (index : Nat) (inner : Read α) : Read α := do
  if 0 < index then readGivenChar sep
  inner

def readOctet (index : Nat) : Read Nat :=
  readSeparated '.' index (readNumber 10 3 256 false)

def readIpv4 : Read Nat := do
  let a ← readOctet 0
  let b ← readOctet 1
  let c ← readOctet 2
  let d ← readOctet 3
  pure (((a * 256 + b) * 256 + c) * 256 + d)

/-- Groups of an IPv6 address from a place on, at most so many more, and whether they end with
an IPv4 address, which stands for the last two of them. -/
def readGroups : (room index : Nat) → List Char → (List Nat × Bool) × List Char
  | 0, _, cs => (([], false), cs)
  | room + 1, index, cs =>
    match (if 0 < room then readSeparated ':' index readIpv4 cs else none) with
    | some (v4, rest) => (([v4 / 65536, v4 % 65536], true), rest)
    | none =>
      match readSeparated ':' index (readNumber 16 4 65536 true) cs with
      | some (group, rest) =>
        let ((groups, ipv4), rest) := readGroups room (index + 1) rest
        ((group :: groups, ipv4), rest)
      | none => (([], false), cs)

def ofGroups (groups : List Nat) : Nat :=
  groups.foldl (fun n g => n * 65536 + g) 0

/-- Eight groups, or fewer with `::` in the place of those that are zero. -/
def readIpv6 : Read Nat := fun cs =>
  let ((head, headIpv4), rest) := readGroups 8 0 cs
  if head.length = 8 then some (ofGroups head, rest)
  else if headIpv4 then none
  else do
    let (_, rest) ← readGivenChar ':' rest
    let (_, rest) ← readGivenChar ':' rest
    let ((tail, _), rest) := readGroups (8 - (head.length + 1)) 0 rest
    pure (ofGroups (head ++ List.replicate (8 - head.length - tail.length) 0 ++ tail), rest)

def readIp : Read Addr := fun cs =>
  match readIpv4 cs with
  | some (n, rest) => some (.v4 (BitVec.ofNat 32 n), rest)
  | none => (readIpv6 cs).map fun (n, rest) => (.v6 (BitVec.ofNat 128 n), rest)

/-- `IpAddr::from_str`: the whole text is an address. -/
def parse (cs : List Char) : Option Addr :=
  match readIp cs with
  | some (addr, []) => some addr
  | _ => none

example : parse "10.0.0.1".toList = some (.v4 0x0a000001) := by decide
example : parse "2001:db8::1".toList = some (.v6 0x20010db8000000000000000000000001) := by
  decide +kernel
example : parse "::ffff:1.2.3.4".toList = some (.v6 0xffff01020304) := by decide +kernel
example : parse "10.0.0.01".toList = none := by decide +kernel

/-- Characters that stand in addresses. -/
def AddrChar (c : Char) : Prop :=
  (toDigit 16 c).isSome = true ∨ c = '.' ∨ c = ':'

/-- What is left is the back of the input, and only characters of addresses are used up. -/
def Uses (cs rest : List Char) : Prop :=
  ∃ used, cs = used ++ rest ∧ ∀ c ∈ used, AddrChar c

theorem Uses.refl (cs : List Char) : Uses cs cs :=
  ⟨[], rfl, by simp⟩

theorem Uses.trans {cs mid rest : List Char} (h₁ : Uses cs mid) (h₂ : Uses mid rest) :
    Uses cs rest := by
  obtain ⟨used₁, rfl, hused₁⟩ := h₁
  obtain ⟨used₂, rfl, hused₂⟩ := h₂
  refine ⟨used₁ ++ used₂, (List.append_assoc _ _ _).symm, ?_⟩
  intro c hc
  rcases List.mem_append.mp hc with hc | hc
  · exact hused₁ c hc
  · exact hused₂ c hc

theorem toDigit_mono {radix : Nat} (hradix : radix ≤ 16) {c : Char}
    (h : (toDigit radix c).isSome = true) : (toDigit 16 c).isSome = true := by
  obtain ⟨n, hn⟩ := Option.isSome_iff_exists.mp h
  unfold toDigit at hn ⊢
  obtain ⟨hvalue, hlt⟩ := Option.filter_eq_some_iff.mp hn
  have hn16 : n < 16 := by
    have : n < radix := by simpa using hlt
    omega
  exact Option.isSome_iff_exists.mpr
    ⟨n, Option.filter_eq_some_iff.mpr ⟨hvalue, by simpa using hn16⟩⟩

section Readers

variable {α : Type}

/-- The reader uses up only characters of addresses. -/
def Sound (read : Read α) : Prop :=
  ∀ cs a rest, read cs = some (a, rest) → Uses cs rest

theorem sound_readNumber {radix maxDigits bound : Nat} {allowZeroPrefix : Bool}
    (hradix : radix ≤ 16) : Sound (readNumber radix maxDigits bound allowZeroPrefix) := by
  intro cs n rest h
  unfold readNumber at h
  simp only at h
  split at h
  next => simp at h
  next =>
    simp only [Option.some.injEq, Prod.mk.injEq] at h
    obtain ⟨-, rfl⟩ := h
    refine ⟨cs.takeWhile fun c => (toDigit radix c).isSome, ?_, ?_⟩
    · exact (List.prefix_iff_eq_append.mp (List.takeWhile_prefix _)).symm
    · intro c hc
      exact .inl (toDigit_mono hradix (List.all_eq_true.mp List.all_takeWhile c hc))

theorem sound_readGivenChar {c : Char} (hc : AddrChar c) : Sound (readGivenChar c) := by
  intro cs u rest h
  unfold readGivenChar at h
  split at h
  next => simp at h
  next d ds =>
    split at h
    next hd =>
      simp only [Option.some.injEq, Prod.mk.injEq, true_and] at h
      subst hd h
      exact ⟨[d], rfl, by simpa using hc⟩
    next => simp at h

theorem Sound.bind {β : Type} {read : Read α} {next : α → Read β} (h : Sound read)
    (hnext : ∀ a, Sound (next a)) : Sound (read >>= next) := by
  intro cs b rest hb
  obtain ⟨⟨a, mid⟩, ha, hb⟩ := Option.bind_eq_some_iff.mp hb
  exact (h cs a mid ha).trans (hnext a mid b rest hb)

theorem sound_pure (a : α) : Sound (pure a : Read α) := by
  intro cs b rest h
  have hpair : (a, cs) = (b, rest) := Option.some.inj h
  rw [(Prod.mk.inj hpair).2]
  exact .refl rest

theorem sound_readSeparated {sep : Char} (hsep : AddrChar sep) {index : Nat} {inner : Read α}
    (h : Sound inner) : Sound (readSeparated sep index inner) := by
  unfold readSeparated
  by_cases hindex : 0 < index
  · rw [if_pos hindex]
    exact (sound_readGivenChar hsep).bind fun _ => h
  · rw [if_neg hindex]
    exact h

theorem sound_readIpv4 : Sound readIpv4 := by
  have hoctet : ∀ index, Sound (readOctet index) := fun index =>
    sound_readSeparated (.inr (.inl rfl)) (sound_readNumber (by decide))
  exact (hoctet 0).bind fun _ => (hoctet 1).bind fun _ => (hoctet 2).bind fun _ =>
    (hoctet 3).bind fun _ => sound_pure _

end Readers

theorem uses_readGroups (room index : Nat) (cs : List Char) :
    Uses cs (readGroups room index cs).2 := by
  induction room generalizing index cs with
  | zero => exact .refl cs
  | succ room ih =>
    unfold readGroups
    split
    next v4 rest hv4 =>
      split at hv4
      next => exact sound_readSeparated (.inr (.inr rfl)) sound_readIpv4 cs v4 rest hv4
      next => simp at hv4
    next =>
      split
      next group rest hgroup =>
        have hfirst := sound_readSeparated (.inr (.inr rfl)) (sound_readNumber (by decide))
          cs group rest hgroup
        exact hfirst.trans (ih (index + 1) rest)
      next => exact .refl cs

theorem sound_readIpv6 : Sound readIpv6 := by
  intro cs n rest h
  have hcolon := sound_readGivenChar (.inr (.inr rfl) : AddrChar ':')
  have hhead := uses_readGroups 8 0 cs
  unfold readIpv6 at h
  generalize readGroups 8 0 cs = groups at h hhead
  obtain ⟨⟨head, headIpv4⟩, mid⟩ := groups
  simp only at h hhead
  split at h
  next =>
    simp only [Option.some.injEq, Prod.mk.injEq] at h
    exact h.2 ▸ hhead
  next =>
    split at h
    next => simp at h
    next =>
      obtain ⟨⟨u, r₁⟩, h₁, h⟩ := Option.bind_eq_some_iff.mp h
      obtain ⟨⟨u', r₂⟩, h₂, h⟩ := Option.bind_eq_some_iff.mp h
      have htail := uses_readGroups (8 - (head.length + 1)) 0 r₂
      simp only [pure, Option.some.injEq, Prod.mk.injEq] at h
      rw [← h.2]
      exact ((hhead.trans (hcolon mid u r₁ h₁)).trans (hcolon r₁ u' r₂ h₂)).trans htail

theorem sound_readIp : Sound readIp := by
  intro cs addr rest h
  unfold readIp at h
  split at h
  next n mid hv4 =>
    simp only [Option.some.injEq, Prod.mk.injEq] at h
    exact h.2 ▸ sound_readIpv4 cs n mid hv4
  next =>
    obtain ⟨⟨n, mid⟩, hv6, h⟩ := Option.map_eq_some_iff.mp h
    simp only [Prod.mk.injEq] at h
    exact h.2 ▸ sound_readIpv6 cs n mid hv6

theorem addrChar_of_parse {cs : List Char} {addr : Addr} (h : parse cs = some addr) :
    ∀ c ∈ cs, AddrChar c := by
  unfold parse at h
  split at h
  next a hread =>
    obtain ⟨used, hcs, hused⟩ := sound_readIp cs a [] hread
    rw [List.append_nil] at hcs
    rw [hcs]
    exact hused
  next => simp at h

end IpAddress
