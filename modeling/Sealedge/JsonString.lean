import Sealedge.Delimited
import Sealedge.Numerals

namespace JsonString

/-- The escape of one character inside a JSON string: short escapes where JSON has them,
`\u00xx` for the other control characters, the character itself otherwise. -/
def escapeChar (c : Char) : List Char :=
  if c = '"' then ['\\', '"']
  else if c = '\\' then ['\\', '\\']
  else if c = '\x08' then ['\\', 'b']
  else if c = '\x0c' then ['\\', 'f']
  else if c = '\n' then ['\\', 'n']
  else if c = '\r' then ['\\', 'r']
  else if c = '\t' then ['\\', 't']
  else if c.toNat < 32 then
    ['\\', 'u', '0', '0', Nat.digitChar (c.toNat / 16), Nat.digitChar (c.toNat % 16)]
  else [c]

/-- Reads one escaped character and gives the text behind it. -/
def unescapeChar : List Char → Option (Char × List Char)
  | '\\' :: '"' :: rest => some ('"', rest)
  | '\\' :: '\\' :: rest => some ('\\', rest)
  | '\\' :: 'b' :: rest => some ('\x08', rest)
  | '\\' :: 'f' :: rest => some ('\x0c', rest)
  | '\\' :: 'n' :: rest => some ('\n', rest)
  | '\\' :: 'r' :: rest => some ('\r', rest)
  | '\\' :: 't' :: rest => some ('\t', rest)
  | '\\' :: 'u' :: '0' :: '0' :: hi :: lo :: rest =>
    match Numerals.hexValue hi, Numerals.hexValue lo with
    | some h, some l => some (Char.ofNat (16 * h + l), rest)
    | _, _ => none
  | c :: rest => if c = '\\' then none else some (c, rest)
  | [] => none

theorem unescapeChar_escapeChar (c : Char) (rest : List Char) :
    unescapeChar (escapeChar c ++ rest) = some (c, rest) := by
  unfold escapeChar
  split
  next h => rw [h]; rfl
  next =>
  split
  next h => rw [h]; rfl
  next hbackslash =>
  split
  next h => rw [h]; rfl
  next =>
  split
  next h => rw [h]; rfl
  next =>
  split
  next h => rw [h]; rfl
  next =>
  split
  next h => rw [h]; rfl
  next =>
  split
  next h => rw [h]; rfl
  next =>
  split
  next hcontrol =>
    have high := Numerals.hexValue_digitChar (c.toNat / 16) (by omega)
    have low := Numerals.hexValue_digitChar (c.toNat % 16) (by omega)
    simp only [List.cons_append, List.nil_append, unescapeChar, high, low, Nat.div_add_mod,
      Char.ofNat_toNat]
  next =>
    simp [unescapeChar, hbackslash]

theorem escapeChar_append_inj {a b : Char} {s t : List Char}
    (h : escapeChar a ++ s = escapeChar b ++ t) : a = b ∧ s = t := by
  have hu := congrArg unescapeChar h
  rw [unescapeChar_escapeChar, unescapeChar_escapeChar] at hu
  exact Prod.mk.inj (Option.some.inj hu)

theorem escapeChar_ne_quote {c : Char} {s t : List Char} : escapeChar c ++ s ≠ '"' :: t := by
  intro h
  have hq : c ≠ '"' → escapeChar c ++ s ≠ '"' :: t := by
    intro hc he
    have hu := congrArg unescapeChar he
    rw [unescapeChar_escapeChar] at hu
    have hr : unescapeChar ('"' :: t) = some ('"', t) := by simp [unescapeChar]
    rw [hr] at hu
    exact hc (Prod.mk.inj (Option.some.inj hu)).1
  by_cases hc : c = '"'
  · subst hc
    simp [escapeChar] at h
  · exact hq hc h

def quote (s : String) : String :=
  "\"" ++ String.ofList (s.toList.flatMap escapeChar) ++ "\""

theorem escaped_append_inj {xs ys s t : List Char}
    (h : xs.flatMap escapeChar ++ '"' :: s = ys.flatMap escapeChar ++ '"' :: t) :
    xs = ys ∧ s = t := by
  induction xs generalizing ys with
  | nil =>
    cases ys with
    | nil => exact ⟨rfl, by simpa using h⟩
    | cons y ys =>
      simp only [List.flatMap_cons, List.append_assoc] at h
      exact absurd h.symm escapeChar_ne_quote
  | cons x xs ih =>
    cases ys with
    | nil =>
      simp only [List.flatMap_cons, List.append_assoc] at h
      exact absurd h escapeChar_ne_quote
    | cons y ys =>
      simp only [List.flatMap_cons, List.append_assoc] at h
      obtain ⟨hxy, hrest⟩ := escapeChar_append_inj h
      obtain ⟨hs, ht⟩ := ih hrest
      exact ⟨by rw [hxy, hs], ht⟩

/-- The closing quote of a quoted text is determined by what stands before it. -/
theorem quote_append_inj {a b s t : String} (h : quote a ++ s = quote b ++ t) : a = b ∧ s = t := by
  have hl : a.toList.flatMap escapeChar ++ '"' :: s.toList =
      b.toList.flatMap escapeChar ++ '"' :: t.toList := by
    have he := congrArg String.toList h
    simpa [quote, String.toList_append] using he
  obtain ⟨hab, hst⟩ := escaped_append_inj hl
  exact ⟨String.toList_inj.mp hab, String.toList_inj.mp hst⟩

theorem quote_injective : Function.Injective quote := by
  intro a b h
  exact (quote_append_inj (congrArg (· ++ "") h)).1

theorem quote_prefixFree : Delimited.PrefixFree quote := by
  intro a b s t h
  rw [(quote_append_inj h).1]

example : quote "a\"\n" = "\"a\\\"\\n\"" := by decide

end JsonString
