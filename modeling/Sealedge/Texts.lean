import Mathlib.Data.List.Basic

namespace Texts

/-- The text after a literal it begins with. -/
def stripPrefix (key s : String) : Option String :=
  if key.toList <+: s.toList then some (String.ofList (s.toList.drop key.toList.length)) else none

def startsWith (s key : String) : Bool :=
  (stripPrefix key s).isSome

def endsWith (s key : String) : Bool :=
  decide (key.toList <:+ s.toList)

@[simp] theorem stripPrefix_append (key s : String) : stripPrefix key (key ++ s) = some s := by
  simp [stripPrefix]

theorem stripPrefix_eq_some {key s rest : String} (h : stripPrefix key s = some rest) :
    s = key ++ rest := by
  unfold stripPrefix at h
  split at h
  next hp =>
    obtain ⟨tail, ht⟩ := hp
    cases Option.some.inj h
    apply String.toList_inj.mp
    simp [← ht]
  next => simp at h

@[simp] theorem startsWith_append (key s : String) : startsWith (key ++ s) key = true := by
  simp [startsWith]

theorem startsWith_iff {s key : String} : startsWith s key = true ↔ ∃ rest, s = key ++ rest := by
  constructor
  · intro h
    obtain ⟨rest, hr⟩ := Option.isSome_iff_exists.mp h
    exact ⟨rest, stripPrefix_eq_some hr⟩
  · rintro ⟨rest, rfl⟩
    simp

/-- `to_ascii_lowercase`. -/
def asciiLower (s : String) : String :=
  String.ofList (s.toList.map Char.toLower)

end Texts
