import Mathlib.Logic.Function.Basic
import Mathlib.Data.List.Basic
import Mathlib.Data.Nat.Notation

namespace Numerals

/-- The two lower-case hexadecimal digits of a byte, high half first. -/
def hexPair (b : UInt8) : List Char :=
  [Nat.digitChar (b.toNat / 16), Nat.digitChar (b.toNat % 16)]

/-- `hex::encode`. -/
def hexEncode (bs : List UInt8) : String :=
  String.ofList (bs.flatMap hexPair)

theorem hexEncode_length (bs : List UInt8) : (hexEncode bs).toList.length = 2 * bs.length := by
  rw [hexEncode, String.toList_ofList]
  induction bs with
  | nil => rfl
  | cons b rest ih =>
    rw [List.flatMap_cons, List.length_append, ih, List.length_cons]
    show 2 + _ = _
    omega

theorem digit_of_mem_hexEncode {bs : List UInt8} {c : Char} (h : c ∈ (hexEncode bs).toList) :
    ∃ d < 16, c = Nat.digitChar d := by
  rw [hexEncode, String.toList_ofList, List.mem_flatMap] at h
  obtain ⟨b, -, hc⟩ := h
  have hb := b.toNat_lt
  rcases List.mem_cons.mp hc with rfl | hc
  · exact ⟨_, by omega, rfl⟩
  · exact ⟨_, Nat.mod_lt _ (by omega), List.mem_singleton.mp hc⟩

/-- Value of a hexadecimal digit; both cases are read. -/
def hexValue (c : Char) : Option Nat :=
  if '0' ≤ c ∧ c ≤ '9' then some (c.toNat - '0'.toNat)
  else if 'a' ≤ c ∧ c ≤ 'f' then some (c.toNat - 'a'.toNat + 10)
  else if 'A' ≤ c ∧ c ≤ 'F' then some (c.toNat - 'A'.toNat + 10)
  else none

def hexDecodeChars : List Char → Option (List UInt8)
  | [] => some []
  | [_] => none
  | hi :: lo :: rest => do
    let h ← hexValue hi
    let l ← hexValue lo
    let tail ← hexDecodeChars rest
    pure (UInt8.ofNat (16 * h + l) :: tail)

def hexDecode (s : String) : Option (List UInt8) :=
  hexDecodeChars s.toList

theorem hexValue_digitChar : ∀ d, d < 16 → hexValue (Nat.digitChar d) = some d := by
  decide

theorem hexDecodeChars_hexPair (b : UInt8) (rest : List Char) :
    hexDecodeChars (hexPair b ++ rest) = (hexDecodeChars rest).map (b :: ·) := by
  have bound := b.toNat_lt
  have high := hexValue_digitChar (b.toNat / 16) (by omega)
  have low := hexValue_digitChar (b.toNat % 16) (by omega)
  have whole : UInt8.ofNat (16 * (b.toNat / 16) + b.toNat % 16) = b := by
    rw [Nat.div_add_mod, UInt8.ofNat_toNat]
  simp only [hexPair, List.cons_append, List.nil_append, hexDecodeChars, high, low,
    Option.bind_eq_bind, Option.bind_some, whole]
  cases hexDecodeChars rest <;> rfl

theorem hexDecodeChars_flatMap (bs : List UInt8) :
    hexDecodeChars (bs.flatMap hexPair) = some bs := by
  induction bs with
  | nil => rfl
  | cons b bs ih => simp [List.flatMap_cons, hexDecodeChars_hexPair, ih]

theorem hexDecode_hexEncode (bs : List UInt8) : hexDecode (hexEncode bs) = some bs := by
  simp [hexDecode, hexEncode, hexDecodeChars_flatMap]

theorem hexEncode_injective : Function.Injective hexEncode := by
  intro a b h
  have hd := congrArg hexDecode h
  rw [hexDecode_hexEncode, hexDecode_hexEncode] at hd
  exact Option.some.inj hd

theorem ascii_of_hexValue {c : Char} {d : Nat} (h : hexValue c = some d) : c.toNat < 128 := by
  have below : ∀ {top : Char}, top.toNat < 128 → c ≤ top → c.toNat < 128 := by
    intro top htop hle
    have hle' : c.toNat ≤ top.toNat := UInt32.le_iff_toNat_le.mp (Char.le_def.mp hle)
    omega
  unfold hexValue at h
  split at h
  next hc => exact below (by decide) hc.2
  next =>
  split at h
  next hc => exact below (by decide) hc.2
  next =>
  split at h
  next hc => exact below (by decide) hc.2
  next => cases h

theorem hexValue_eq_some {c : Char} {d : Nat} :
    hexValue c = some d ↔ d < 16 ∧ c.toLower = Nat.digitChar d := by
  have small : ∀ n < 128, ∀ d ∈ hexValue (Char.ofNat n),
      d < 16 ∧ (Char.ofNat n).toLower = Nat.digitChar d := by decide
  have upper : ∀ n < 128, ∀ d < 16, (Char.ofNat n).toLower = Nat.digitChar d →
      hexValue (Char.ofNat n) = some d := by decide
  constructor
  · intro h
    have hsmall := small c.toNat (ascii_of_hexValue h)
    rw [Char.ofNat_toNat] at hsmall
    exact hsmall d h
  · rintro ⟨hd, hlower⟩
    by_cases hc : c.val ≥ 'A'.val ∧ c.val ≤ 'Z'.val
    · have hle : c.toNat ≤ 90 := UInt32.le_iff_toNat_le.mp hc.2
      have hupper := upper c.toNat (by omega) d hd
      rw [Char.ofNat_toNat] at hupper
      exact hupper hlower
    · have hsame : c.toLower = c := dif_neg hc
      rw [← hsame, hlower]
      exact hexValue_digitChar d hd

theorem hexDecodeChars_eq_some {cs : List Char} {bs : List UInt8} :
    hexDecodeChars cs = some bs ↔ cs.map Char.toLower = bs.flatMap hexPair := by
  induction cs using hexDecodeChars.induct generalizing bs with
  | case1 =>
    cases bs with
    | nil => simp [hexDecodeChars]
    | cons b bs => simp [hexDecodeChars, hexPair]
  | case2 c =>
    cases bs with
    | nil => simp [hexDecodeChars]
    | cons b bs => simp [hexDecodeChars, hexPair]
  | case3 hi lo rest ih =>
    cases bs with
    | nil =>
      simp only [hexDecodeChars, Option.bind_eq_bind, Option.bind_eq_some_iff, Option.pure_def,
        Option.some.injEq, List.map_cons, List.flatMap_nil, reduceCtorEq, and_false,
        exists_false]
    | cons b bs =>
      have bound := b.toNat_lt
      simp only [hexDecodeChars, Option.bind_eq_bind, Option.bind_eq_some_iff, Option.pure_def,
        Option.some.injEq, List.cons.injEq, List.map_cons, List.flatMap_cons, hexPair,
        List.cons_append, List.nil_append]
      constructor
      · rintro ⟨h, hhi, l, hlo, tail, htail, hb, rfl⟩
        obtain ⟨hh, hhi⟩ := hexValue_eq_some.mp hhi
        obtain ⟨hl, hlo⟩ := hexValue_eq_some.mp hlo
        have hvalue : b.toNat = 16 * h + l := by
          rw [← hb, UInt8.toNat_ofNat']
          omega
        rw [hhi, hlo, ih.mp htail, hvalue, show (16 * h + l) / 16 = h by omega,
          show (16 * h + l) % 16 = l by omega]
        exact ⟨rfl, rfl, rfl⟩
      · rintro ⟨hhi, hlo, htail⟩
        refine ⟨b.toNat / 16, hexValue_eq_some.mpr ⟨by omega, hhi⟩, b.toNat % 16,
          hexValue_eq_some.mpr ⟨by omega, hlo⟩, bs, ih.mpr htail, ?_, rfl⟩
        rw [Nat.div_add_mod, UInt8.ofNat_toNat]

theorem hexDecode_eq_some {s : String} {bs : List UInt8} :
    hexDecode s = some bs ↔ String.ofList (s.toList.map Char.toLower) = hexEncode bs := by
  unfold hexDecode hexEncode
  rw [hexDecodeChars_eq_some, String.ofList_inj]

theorem repr_isDigit {n : Nat} {c : Char} (h : c ∈ n.repr.toList) : c.isDigit = true := by
  rw [Nat.toList_repr] at h
  exact Nat.isDigit_of_mem_toDigits (by decide) (by decide) h

/-- A decimal padded with zeros on the left to at least `width` digits. -/
def padded (width n : Nat) : String :=
  String.ofList (List.replicate (width - n.repr.length) '0') ++ n.repr

theorem ofDigitChars_padded (width n : Nat) :
    Nat.ofDigitChars 10 (padded width n).toList 0 = n := by
  simp [padded, Nat.ofDigitChars_append, Nat.toList_repr]

theorem padded_injective (width : Nat) : Function.Injective (padded width) := by
  intro m n h
  have hd := congrArg (fun s : String => Nat.ofDigitChars 10 s.toList 0) h
  simpa only [ofDigitChars_padded] using hd

theorem repr_injective : Function.Injective Nat.repr := by
  intro m n h
  apply padded_injective 0
  simp [padded, h]

example : padded 5 7 = "00007" := by decide

end Numerals
