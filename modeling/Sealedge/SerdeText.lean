import Sealedge.JsonString
import Sealedge.CanonicalSteps

namespace Sealedge

open Delimited

instance : DecidablePred EndsNumber :=
  fun c => inferInstanceAs (Decidable (c = ',' ∨ c = '\x7d'))

/-- Decimal texts of the floats that the profiles use by default; any other float is shown by its
bit pattern. -/
def shortDisplay (f : F64) : String :=
  if f.bits = 0 then "0"
  else if f.bits = 0x4000000000000000 then "2"
  else if f.bits = 0x403e000000000000 then "30"
  else "f" ++ f.bits.toNat.repr

theorem shortDisplay_bare (f : F64) : Bare EndsNumber (shortDisplay f) := by
  unfold shortDisplay
  split
  next => show ∀ c ∈ "0".toList, ¬EndsNumber c; simp [EndsNumber]
  next =>
  split
  next => show ∀ c ∈ "2".toList, ¬EndsNumber c; simp [EndsNumber]
  next =>
  split
  next => show ∀ c ∈ "30".toList, ¬EndsNumber c; simp [EndsNumber]
  next =>
    intro c hc
    rw [String.toList_append] at hc
    rcases List.mem_append.mp hc with hf | hn
    · have hall : ∀ d ∈ "f".toList, ¬EndsNumber d := by simp [EndsNumber]
      exact hall c hf
    · exact bare_repr _ c hn

theorem shortDisplay_injective {f g : F64} (h : shortDisplay f = shortDisplay g) :
    f.bits = g.bits := by
  have tagged : ∀ {key : String} (n : Nat), Diverge key "f" → key ≠ "f" ++ n.repr := by
    intro key n hd he
    exact not_begins_of_diverge hd n.repr ⟨"", by rw [String.append_empty, he]⟩
  unfold shortDisplay at h
  split at h
  next hf =>
    split at h
    next hg => rw [hf, hg]
    next =>
    split at h
    next => exact absurd h (by decide)
    next =>
    split at h
    next => exact absurd h (by decide)
    next => exact absurd h (tagged _ (by decide))
  next =>
  split at h
  next hf =>
    split at h
    next => exact absurd h (by decide)
    next =>
    split at h
    next hg => rw [hf, hg]
    next =>
    split at h
    next => exact absurd h (by decide)
    next => exact absurd h (tagged _ (by decide))
  next =>
  split at h
  next hf =>
    split at h
    next => exact absurd h (by decide)
    next =>
    split at h
    next => exact absurd h (by decide)
    next =>
    split at h
    next hg => rw [hf, hg]
    next => exact absurd h (tagged _ (by decide))
  next =>
    split at h
    next => exact absurd h.symm (tagged _ (by decide))
    next =>
    split at h
    next => exact absurd h.symm (tagged _ (by decide))
    next =>
    split at h
    next => exact absurd h.symm (tagged _ (by decide))
    next => exact UInt64.toNat_inj.mp (Numerals.repr_injective (skip h))

theorem F64.not_isNan_of_isFinite {f : F64} (h : f.isFinite = true) : f.isNan = false := by
  simp only [F64.isFinite, decide_eq_true_eq] at h
  simp [F64.isNan, h]

theorem F64.eq_self {f : F64} (h : f.isFinite = true) : f.eq f = true := by
  simp [F64.eq, F64.not_isNan_of_isFinite h]

/-- String escaping as `serde_json` does it, with the short float texts. -/
def serdeText : TextCodec where
  jsonStr := JsonString.quote
  f64Display := shortDisplay

theorem serdeText_lawful : serdeText.Lawful where
  quoted s := ⟨String.ofList (s.toList.flatMap JsonString.escapeChar), rfl⟩
  delimited := JsonString.quote_prefixFree
  injective := JsonString.quote_injective
  displayBare := shortDisplay_bare
  displayInj := by
    rintro ⟨f⟩ ⟨g⟩ hf - h
    cases shortDisplay_injective h
    exact F64.eq_self hf

end Sealedge
