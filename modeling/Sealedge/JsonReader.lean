import Sealedge.JsonText

namespace Sealedge

open JsonString

/-- Characters of numbers and of the words `null`, `true` and `false`. -/
def isWordChar (c : Char) : Bool :=
  c.isAlphanum || c == '-' || c == '+' || c == '.'

inductive Token
  | punct (c : Char)
  | text (s : String)
  | word (w : List Char)
  deriving DecidableEq

def isPunct (c : Char) : Bool :=
  c == '\x7b' || c == '\x7d' || c == '[' || c == ']' || c == ',' || c == ':'

def isJsonSpace (c : Char) : Bool :=
  c == ' ' || c == '\n' || c == '\t' || c == '\r'

/-- The rest of a string behind its opening quote. -/
def readText : Nat → List Char → Option (List Char × List Char)
  | 0, _ => none
  | _ + 1, '"' :: rest => some ([], rest)
  | fuel + 1, cs => do
    let (c, rest) ← unescapeChar cs
    let (s, rest) ← readText fuel rest
    some (c :: s, rest)

def lex : Nat → List Char → Option (List Token)
  | 0, _ => none
  | _ + 1, [] => some []
  | fuel + 1, c :: rest =>
    if isJsonSpace c then lex fuel rest
    else if isPunct c then (lex fuel rest).map (.punct c :: ·)
    else if c = '"' then do
      let (s, rest) ← readText fuel rest
      let tokens ← lex fuel rest
      some (.text (String.ofList s) :: tokens)
    else if isWordChar c then do
      let tokens ← lex fuel (rest.dropWhile isWordChar)
      some (.word (c :: rest.takeWhile isWordChar) :: tokens)
    else none

section Values

variable (readFloat : List Char → Option F64)

/-- The number that a word spells: an integer where it fits, otherwise a float. -/
def ofWord (w : List Char) : Option JsonValue :=
  if w = "null".toList then some .null
  else if w = "true".toList then some (.bool true)
  else if w = "false".toList then some (.bool false)
  else if w.any (fun c => c == '.' || c == 'e' || c == 'E') then
    (readFloat w).map (fun f => .number (.float f))
  else
    match w with
    | '-' :: digits =>
      let n := Nat.ofDigitChars 10 digits 0
      if 0 < n ∧ n ≤ 2 ^ 63 then some (.number (.negInt (Int64.ofInt (-n))))
      else (readFloat w).map (fun f => .number (.float f))
    | digits =>
      let n := Nat.ofDigitChars 10 digits 0
      if n < 2 ^ 64 then some (.number (.posInt (UInt64.ofNat n)))
      else (readFloat w).map (fun f => .number (.float f))

mutual

def parseTokens : Nat → List Token → Option (JsonValue × List Token)
  | 0, _ => none
  | _ + 1, .word w :: rest => (ofWord readFloat w).map (·, rest)
  | _ + 1, .text s :: rest => some (.string s, rest)
  | _ + 1, .punct '[' :: .punct ']' :: rest => some (.array [], rest)
  | fuel + 1, .punct '[' :: rest => do
    let (items, rest) ← parseItems fuel rest
    some (.array items, rest)
  | _ + 1, .punct '\x7b' :: .punct '\x7d' :: rest => some (.object [], rest)
  | fuel + 1, .punct '\x7b' :: rest => do
    let (fields, rest) ← parseFields fuel rest
    some (.object fields, rest)
  | _ + 1, _ => none

/-- The items of an array up to its bracket. -/
def parseItems : Nat → List Token → Option (List JsonValue × List Token)
  | 0, _ => none
  | fuel + 1, tokens => do
    let (v, rest) ← parseTokens fuel tokens
    match rest with
    | .punct ']' :: rest => some ([v], rest)
    | .punct ',' :: rest => do
      let (items, rest) ← parseItems fuel rest
      some (v :: items, rest)
    | _ => none

/-- The fields of an object up to its brace. -/
def parseFields : Nat → List Token → Option (List (String × JsonValue) × List Token)
  | fuel + 1, .text key :: .punct ':' :: tokens => do
    let (v, rest) ← parseTokens fuel tokens
    match rest with
    | .punct '\x7d' :: rest => some ([(key, v)], rest)
    | .punct ',' :: rest => do
      let (fields, rest) ← parseFields fuel rest
      some ((key, v) :: fields, rest)
    | _ => none
  | _, _ => none

end

/-- A reader of printed texts: one value, with blanks around it. It shows that what is asked of the
JSON crate can be had; the crate itself differs on texts that it does not print. -/
def readPrinted (bytes : Bytes) : Option JsonValue := do
  let s ← utf8Decode bytes
  let tokens ← lex (s.toList.length + 1) s.toList
  let (v, rest) ← parseTokens readFloat (tokens.length + 1) tokens
  if rest.isEmpty then some v else none

end Values

mutual

/-- The tokens of a value, whatever the layout. -/
def tokensOf (js : JsonCrate) : JsonValue → List Token
  | .null => [.word "null".toList]
  | .bool b => [.word (if b then "true".toList else "false".toList)]
  | .number n => [.word (numberWord js n)]
  | .string s => [.text s]
  | .array [] => [.punct '[', .punct ']']
  | .array (v :: items) => .punct '[' :: (tokensOf js v ++ itemTokens js items)
  | .object [] => [.punct '\x7b', .punct '\x7d']
  | .object ((key, v) :: fields) =>
    .punct '\x7b' :: .text key :: .punct ':' :: (tokensOf js v ++ fieldTokens js fields)

def itemTokens (js : JsonCrate) : List JsonValue → List Token
  | [] => [.punct ']']
  | v :: items => .punct ',' :: (tokensOf js v ++ itemTokens js items)

def fieldTokens (js : JsonCrate) : List (String × JsonValue) → List Token
  | [] => [.punct '\x7d']
  | (key, v) :: fields =>
    .punct ',' :: .text key :: .punct ':' :: (tokensOf js v ++ fieldTokens js fields)

end

section Lexing

/-- The characters are read as these tokens, with fuel for each of them. -/
def Lexes (cs : List Char) (tokens : List Token) : Prop :=
  ∀ fuel, cs.length < fuel → lex fuel cs = some tokens

/-- No word goes on here. -/
def EndsWord (cs : List Char) : Prop :=
  ∀ c ∈ cs.head?, isWordChar c = false

theorem isWordChar_separate {c : Char} (h : isWordChar c = true) :
    isJsonSpace c = false ∧ isPunct c = false ∧ c ≠ '"' := by
  refine ⟨?_, ?_, ?_⟩
  · by_contra hs
    simp only [isJsonSpace, Bool.not_eq_false, Bool.or_eq_true, beq_iff_eq] at hs
    rcases hs with ((rfl | rfl) | rfl) | rfl <;> exact absurd h (by decide)
  · by_contra hs
    simp only [isPunct, Bool.not_eq_false, Bool.or_eq_true, beq_iff_eq] at hs
    rcases hs with ((((rfl | rfl) | rfl) | rfl) | rfl) | rfl <;> exact absurd h (by decide)
  · rintro rfl
    exact absurd h (by decide)

theorem lexes_nil : Lexes [] [] := by
  intro fuel hfuel
  cases fuel with
  | zero => simp at hfuel
  | succ fuel => rfl

variable {rest : List Char} {tokens : List Token}

theorem lexes_space {c : Char} (hc : isJsonSpace c = true) (h : Lexes rest tokens) :
    Lexes (c :: rest) tokens := by
  intro fuel hfuel
  cases fuel with
  | zero => simp at hfuel
  | succ fuel =>
    rw [lex, if_pos hc]
    exact h fuel (by simpa using hfuel)

theorem lexes_newline (level : Option Nat) (h : Lexes rest tokens) :
    Lexes (newline level ++ rest) tokens := by
  cases level with
  | none => exact h
  | some level =>
    have hblanks : ∀ n, Lexes (List.replicate n ' ' ++ rest) tokens := by
      intro n
      induction n with
      | zero => exact h
      | succ n ih => exact lexes_space (by decide) ih
    exact lexes_space (by decide) (hblanks (2 * level))

theorem lexes_punct {c : Char} (hspace : isJsonSpace c = false) (hc : isPunct c = true)
    (h : Lexes rest tokens) : Lexes (c :: rest) (.punct c :: tokens) := by
  intro fuel hfuel
  cases fuel with
  | zero => simp at hfuel
  | succ fuel =>
    rw [lex, if_neg (by simp [hspace]), if_pos hc, h fuel (by simpa using hfuel)]
    rfl

theorem readText_quoted (s : List Char) (rest : List Char) (fuel : Nat)
    (h : (s.flatMap escapeChar ++ '"' :: rest).length < fuel) :
    readText fuel (s.flatMap escapeChar ++ '"' :: rest) = some (s, rest) := by
  induction s generalizing fuel with
  | nil =>
    cases fuel with
    | zero => simp at h
    | succ fuel => rfl
  | cons c s ih =>
    cases fuel with
    | zero => simp at h
    | succ fuel =>
      have hlen : 0 < (escapeChar c).length := by
        unfold escapeChar
        repeat' split
        all_goals simp
      have hrest : (s.flatMap escapeChar ++ '"' :: rest).length < fuel := by
        simp only [List.flatMap_cons, List.append_assoc, List.length_append] at h ⊢
        omega
      rw [List.flatMap_cons, List.append_assoc, readText]
      · rw [unescapeChar_escapeChar]
        simp only [Option.bind_eq_bind, Option.bind_some, ih fuel hrest]
      · intro tail hquote
        exact escapeChar_ne_quote hquote

theorem lexes_quote (s : String) (h : Lexes rest tokens) :
    Lexes ((quote s).toList ++ rest) (.text s :: tokens) := by
  have hchars : (quote s).toList ++ rest = '"' :: (s.toList.flatMap escapeChar ++ '"' :: rest) := by
    simp [quote]
  rw [hchars]
  intro fuel hfuel
  cases fuel with
  | zero => simp at hfuel
  | succ fuel =>
    have hlen : (s.toList.flatMap escapeChar ++ '"' :: rest).length < fuel := by
      simpa using hfuel
    have hrest : rest.length < fuel := by
      simp only [List.length_append, List.length_cons] at hlen
      omega
    rw [lex, if_neg (by decide), if_neg (by decide), if_pos rfl, readText_quoted _ _ _ hlen]
    simp only [Option.bind_eq_bind, Option.bind_some, h fuel hrest, String.ofList_toList]

theorem lexes_word {w : List Char} (hne : w ≠ []) (hw : ∀ c ∈ w, isWordChar c = true)
    (hends : EndsWord rest) (h : Lexes rest tokens) : Lexes (w ++ rest) (.word w :: tokens) := by
  intro fuel hfuel
  cases fuel with
  | zero => simp at hfuel
  | succ fuel =>
    cases w with
    | nil => exact absurd rfl hne
    | cons c w =>
      obtain ⟨hspace, hpunct, hquote⟩ := isWordChar_separate (hw c (by simp))
      have htail : ∀ d ∈ w, isWordChar d = true := fun d hd => hw d (by simp [hd])
      have htake : (w ++ rest).takeWhile isWordChar = w := by
        rw [List.takeWhile_append_of_pos htail]
        cases rest with
        | nil => simp
        | cons d rest => simp [hends d (by simp)]
      have hdrop : (w ++ rest).dropWhile isWordChar = rest := by
        rw [List.dropWhile_append_of_pos htail]
        cases rest with
        | nil => simp
        | cons d rest => simp [hends d (by simp)]
      have hrest : rest.length < fuel := by
        simp only [List.length_append, List.length_cons] at hfuel
        omega
      rw [List.cons_append, lex, if_neg (by simp [hspace]), if_neg (by simp [hpunct]),
        if_neg hquote, if_pos (hw c (by simp)), hdrop, htake]
      simp only [h fuel hrest, Option.bind_eq_bind, Option.bind_some]

end Lexing

section RoundTrip

/-- Floats are written as numbers with a point or an exponent, and finite ones are read back. -/
structure FloatsRead (js : JsonCrate) (readFloat : List Char → Option F64) : Prop where
  word : ∀ f, f.isFinite = true → ∀ c ∈ js.printFloat f, isWordChar c = true
  pointed : ∀ f, f.isFinite = true → ∃ c ∈ js.printFloat f, c = '.' ∨ c = 'e'
  number : ∀ f, f.isFinite = true → ∀ c ∈ (js.printFloat f).head?, c.isDigit = true ∨ c = '-'
  reads : ∀ f, f.isFinite = true → readFloat (js.printFloat f) = some f

variable {js : JsonCrate} {readFloat : List Char → Option F64} {depth : Nat}

theorem isWordChar_digit {c : Char} (h : c.isDigit = true) : isWordChar c = true := by
  simp [isWordChar, Char.isAlphanum, h]

theorem repr_wordChar {n : Nat} {c : Char} (h : c ∈ n.repr.toList) : isWordChar c = true :=
  isWordChar_digit (Numerals.repr_isDigit h)

theorem repr_ne_nil (n : Nat) : n.repr.toList ≠ [] := by
  rw [Nat.toList_repr]
  exact Nat.toDigits_ne_nil

theorem numberWord_word (hfloats : FloatsRead js readFloat) {n : JsonNumber}
    (h : Printable depth (.number n)) :
    numberWord js n ≠ [] ∧ ∀ c ∈ numberWord js n, isWordChar c = true := by
  cases h with
  | posInt n => exact ⟨repr_ne_nil _, fun c hc => repr_wordChar hc⟩
  | negInt n hn =>
    refine ⟨by simp [numberWord], fun c hc => ?_⟩
    rcases List.mem_cons.mp hc with rfl | hc
    · decide
    · exact repr_wordChar hc
  | float f hf =>
    refine ⟨?_, hfloats.word f hf⟩
    obtain ⟨c, hc, -⟩ := hfloats.pointed f hf
    exact List.ne_nil_of_mem hc

theorem endsWord_cons {c : Char} {rest : List Char} (h : isWordChar c = false) :
    EndsWord (c :: rest) := by
  intro d hd
  simp only [List.head?_cons, Option.mem_def, Option.some.injEq] at hd
  exact hd ▸ h

theorem endsWord_newline {c : Char} {rest : List Char} (level : Option Nat)
    (h : isWordChar c = false) : EndsWord (newline level ++ c :: rest) := by
  cases level with
  | none => exact endsWord_cons h
  | some level => exact endsWord_cons (by decide)

theorem endsWord_renderItems (level : Option Nat) (items : List JsonValue) (rest : List Char) :
    EndsWord (renderItems js level items ++ rest) := by
  cases items with
  | nil =>
    rw [renderItems, List.append_assoc]
    exact endsWord_newline level (by decide)
  | cons v items =>
    rw [renderItems]
    exact endsWord_cons (by decide)

theorem endsWord_renderFields (level : Option Nat) (fields : List (String × JsonValue))
    (rest : List Char) : EndsWord (renderFields js level fields ++ rest) := by
  cases fields with
  | nil =>
    rw [renderFields, List.append_assoc]
    exact endsWord_newline level (by decide)
  | cons f fields =>
    obtain ⟨key, v⟩ := f
    rw [renderFields]
    exact endsWord_cons (by decide)

/-- The text of a value is read as its tokens, in every layout and before every text that ends a
word. -/
def RendersTokens (js : JsonCrate) (v : JsonValue) : Prop :=
  ∀ level rest tokens, EndsWord rest → Lexes rest tokens →
    Lexes (render js level v ++ rest) (tokensOf js v ++ tokens)

theorem lexes_renderItems {items : List JsonValue} (h : ∀ v ∈ items, RendersTokens js v)
    (level : Option Nat) {rest : List Char} {tokens : List Token} (hrest : Lexes rest tokens) :
    Lexes (renderItems js level items ++ rest) (itemTokens js items ++ tokens) := by
  induction items with
  | nil =>
    rw [renderItems, itemTokens, List.append_assoc]
    exact lexes_newline level (lexes_punct (by decide) (by decide) hrest)
  | cons v items ih =>
    have hitems := ih fun w hw => h w (List.mem_cons_of_mem _ hw)
    rw [renderItems, itemTokens]
    simp only [List.cons_append, List.append_assoc]
    exact lexes_punct (by decide) (by decide) (lexes_newline _
      (h v List.mem_cons_self _ _ _ (endsWord_renderItems level items rest) hitems))

theorem lexes_field {v : JsonValue} (h : RendersTokens js v) (level : Option Nat) (key : String)
    {rest : List Char} {tokens : List Token} (hends : EndsWord rest) (hrest : Lexes rest tokens) :
    Lexes (newline (level.map (· + 1)) ++ ((quote key).toList ++ ':' :: (afterColon level ++
        (render js (level.map (· + 1)) v ++ rest))))
      (.text key :: .punct ':' :: (tokensOf js v ++ tokens)) := by
  refine lexes_newline _ (lexes_quote key (lexes_punct (by decide) (by decide) ?_))
  have hv := h (level.map (· + 1)) rest tokens hends hrest
  cases level with
  | none => exact hv
  | some level => exact lexes_space (by decide) hv

theorem lexes_renderFields {fields : List (String × JsonValue)}
    (h : ∀ f ∈ fields, RendersTokens js f.2) (level : Option Nat) {rest : List Char}
    {tokens : List Token} (hrest : Lexes rest tokens) :
    Lexes (renderFields js level fields ++ rest) (fieldTokens js fields ++ tokens) := by
  induction fields with
  | nil =>
    rw [renderFields, fieldTokens, List.append_assoc]
    exact lexes_newline level (lexes_punct (by decide) (by decide) hrest)
  | cons f fields ih =>
    obtain ⟨key, v⟩ := f
    have hfields := ih fun g hg => h g (List.mem_cons_of_mem _ hg)
    rw [renderFields, fieldTokens]
    simp only [List.cons_append, List.append_assoc]
    exact lexes_punct (by decide) (by decide) (lexes_field (h (key, v) List.mem_cons_self) level key
      (endsWord_renderFields level fields rest) hfields)

theorem rendersTokens_of_printable (hfloats : FloatsRead js readFloat) {v : JsonValue}
    (h : Printable depth v) :
    RendersTokens js v := by
  have hnumber : ∀ n, Printable 0 (.number n) → RendersTokens js (.number n) := by
    intro n hn level rest tokens hends hrest
    obtain ⟨hne, hword⟩ := numberWord_word hfloats hn
    exact lexes_word hne hword hends hrest
  induction h with
  | null =>
    intro level rest tokens hends hrest
    exact lexes_word (w := "null".toList) (by decide) (List.all_eq_true.mp (by decide)) hends hrest
  | bool b =>
    intro level rest tokens hends hrest
    cases b with
    | false =>
      exact lexes_word (w := "false".toList) (by decide) (List.all_eq_true.mp (by decide)) hends
        hrest
    | true =>
      exact lexes_word (w := "true".toList) (by decide) (List.all_eq_true.mp (by decide)) hends
        hrest
  | posInt n => exact hnumber _ (.posInt n)
  | negInt n hn => exact hnumber _ (.negInt n hn)
  | float f hf => exact hnumber _ (.float f hf)
  | string s =>
    intro level rest tokens hends hrest
    exact lexes_quote s hrest
  | array items hitems ih =>
    intro level rest tokens hends hrest
    cases items with
    | nil => exact lexes_punct (by decide) (by decide) (lexes_punct (by decide) (by decide) hrest)
    | cons v items =>
      have htail := lexes_renderItems (fun w hw => ih w (List.mem_cons_of_mem _ hw)) level hrest
      rw [render, tokensOf]
      simp only [List.cons_append, List.append_assoc]
      exact lexes_punct (by decide) (by decide) (lexes_newline _
        (ih v List.mem_cons_self _ _ _ (endsWord_renderItems level items rest) htail))
  | object fields hfields ih =>
    intro level rest tokens hends hrest
    cases fields with
    | nil => exact lexes_punct (by decide) (by decide) (lexes_punct (by decide) (by decide) hrest)
    | cons f fields =>
      obtain ⟨key, v⟩ := f
      have htail := lexes_renderFields (fun g hg => ih g (List.mem_cons_of_mem _ hg)) level hrest
      rw [render, tokensOf]
      simp only [List.cons_append, List.append_assoc]
      exact lexes_punct (by decide) (by decide) (lexes_field (ih (key, v) List.mem_cons_self) level
        key (endsWord_renderFields level fields rest) htail)

theorem ne_name {c : Char} (h : c.isDigit = true ∨ c = '-') (w : List Char) :
    c :: w ≠ "null".toList ∧ c :: w ≠ "true".toList ∧ c :: w ≠ "false".toList := by
  have hc : c ≠ 'n' ∧ c ≠ 't' ∧ c ≠ 'f' := by
    rcases h with h | rfl
    · refine ⟨?_, ?_, ?_⟩ <;> rintro rfl <;> exact absurd h (by decide)
    · decide
  refine ⟨?_, ?_, ?_⟩
  · intro he
    exact hc.1 (List.cons.inj he).1
  · intro he
    exact hc.2.1 (List.cons.inj he).1
  · intro he
    exact hc.2.2 (List.cons.inj he).1

theorem not_pointed_of_digits {w : List Char} (h : ∀ c ∈ w, c.isDigit = true) :
    w.any (fun c => c == '.' || c == 'e' || c == 'E') = false := by
  rw [List.any_eq_false]
  intro c hc
  have hd := h c hc
  simp only [Bool.or_eq_true, beq_iff_eq, not_or]
  refine ⟨⟨?_, ?_⟩, ?_⟩ <;> rintro rfl <;> exact absurd hd (by decide)

theorem ofDigitChars_repr (n : Nat) : Nat.ofDigitChars 10 n.repr.toList 0 = n := by
  rw [Nat.toList_repr, Nat.ofDigitChars_toDigits (by decide) (by decide)]

theorem ofWord_posInt (n : UInt64) :
    ofWord readFloat (numberWord js (.posInt n)) = some (.number (.posInt n)) := by
  have hdigits : ∀ c ∈ n.toNat.repr.toList, c.isDigit = true := fun c hc => Numerals.repr_isDigit hc
  have hvalue := ofDigitChars_repr n.toNat
  have hne := repr_ne_nil n.toNat
  rw [numberWord]
  generalize n.toNat.repr.toList = w at hdigits hvalue hne
  cases w with
  | nil => exact absurd rfl hne
  | cons c w =>
    have hc : c.isDigit = true := hdigits c List.mem_cons_self
    have hsign : c ≠ '-' := by
      rintro rfl
      exact absurd hc (by decide)
    obtain ⟨hnull, htrue, hfalse⟩ := ne_name (.inl hc) w
    rw [ofWord, if_neg hnull, if_neg htrue, if_neg hfalse,
      if_neg (by rw [not_pointed_of_digits hdigits]; decide)]
    · simp only [hvalue, if_pos n.toNat_lt, UInt64.ofNat_toNat]
    · intro digits he
      exact hsign (List.cons.inj he).1

theorem ofWord_negInt {n : Int64} (hn : n.toInt < 0) :
    ofWord readFloat (numberWord js (.negInt n)) = some (.number (.negInt n)) := by
  have hdigits : ∀ c ∈ (-n.toInt).toNat.repr.toList, c.isDigit = true :=
    fun c hc => Numerals.repr_isDigit hc
  have hvalue := ofDigitChars_repr (-n.toInt).toNat
  have hlow := n.le_toInt
  have hback : (-((-n.toInt).toNat : Int)) = n.toInt := by omega
  rw [numberWord]
  generalize (-n.toInt).toNat.repr.toList = w at hdigits hvalue
  have hpoint : ('-' :: w).any (fun c => c == '.' || c == 'e' || c == 'E') = false := by
    rw [List.any_cons, not_pointed_of_digits hdigits]
    decide
  obtain ⟨hnull, htrue, hfalse⟩ := ne_name (.inr rfl) w
  rw [ofWord, if_neg hnull, if_neg htrue, if_neg hfalse, if_neg (by rw [hpoint]; decide)]
  simp only [hvalue]
  rw [if_pos (by omega), hback, Int64.ofInt_toInt]

theorem ofWord_float (hfloats : FloatsRead js readFloat) {f : F64} (hf : f.isFinite = true) :
    ofWord readFloat (numberWord js (.float f)) = some (.number (.float f)) := by
  have hreads := hfloats.reads f hf
  have hnumber := hfloats.number f hf
  obtain ⟨p, hp, hpoint⟩ := hfloats.pointed f hf
  rw [numberWord]
  generalize js.printFloat f = w at hreads hnumber hp
  cases w with
  | nil => simp at hp
  | cons c w =>
    have hany : (c :: w).any (fun c => c == '.' || c == 'e' || c == 'E') = true := by
      rw [List.any_eq_true]
      refine ⟨p, hp, ?_⟩
      rcases hpoint with rfl | rfl <;> decide
    obtain ⟨hnull, htrue, hfalse⟩ := ne_name (hnumber c (by simp)) w
    unfold ofWord
    rw [if_neg hnull, if_neg htrue, if_neg hfalse, if_pos hany, hreads]
    rfl

theorem ofWord_number (hfloats : FloatsRead js readFloat) {n : JsonNumber}
    (h : Printable depth (.number n)) :
    ofWord readFloat (numberWord js n) = some (.number n) := by
  cases h with
  | posInt n => exact ofWord_posInt n
  | negInt n hn => exact ofWord_negInt hn
  | float f hf => exact ofWord_float hfloats hf

/-- The tokens of a value are read as the value, whatever follows. -/
def ParsesBack (js : JsonCrate) (readFloat : List Char → Option F64) (v : JsonValue) : Prop :=
  ∀ fuel rest, (tokensOf js v).length < fuel →
    parseTokens readFloat fuel (tokensOf js v ++ rest) = some (v, rest)

theorem tokensOf_head (js : JsonCrate) (v : JsonValue) :
    ∃ t ts, tokensOf js v = t :: ts ∧ t ≠ .punct ']' ∧ t ≠ .punct '\x7d' := by
  cases v with
  | null => exact ⟨_, _, rfl, by decide, by decide⟩
  | bool b => exact ⟨_, _, rfl, by simp, by simp⟩
  | number n => exact ⟨_, _, rfl, by simp, by simp⟩
  | string s => exact ⟨_, _, rfl, by simp, by simp⟩
  | array items =>
    cases items with
    | nil => exact ⟨_, _, rfl, by decide, by decide⟩
    | cons v items => exact ⟨_, _, by rw [tokensOf], by decide, by decide⟩
  | object fields =>
    cases fields with
    | nil => exact ⟨_, _, rfl, by decide, by decide⟩
    | cons f fields => exact ⟨_, _, by rw [tokensOf], by decide, by decide⟩

theorem parseItems_tokens {v : JsonValue} {items : List JsonValue}
    (h : ∀ w ∈ v :: items, ParsesBack js readFloat w) (fuel : Nat) (rest : List Token)
    (hfuel : (tokensOf js v ++ itemTokens js items).length < fuel) :
    parseItems readFloat fuel (tokensOf js v ++ itemTokens js items ++ rest) =
      some (v :: items, rest) := by
  induction items generalizing v fuel with
  | nil =>
    cases fuel with
    | zero => simp at hfuel
    | succ fuel =>
      rw [itemTokens, List.length_append, List.length_singleton] at hfuel
      rw [parseItems, itemTokens, List.append_assoc, h v List.mem_cons_self fuel _ (by omega)]
      rfl
  | cons w items ih =>
    cases fuel with
    | zero => simp at hfuel
    | succ fuel =>
      rw [itemTokens, List.length_append, List.length_cons] at hfuel
      have htail := ih (fun u hu => h u (List.mem_cons_of_mem _ hu)) fuel (by omega)
      rw [parseItems, itemTokens, List.append_assoc, List.cons_append,
        h v List.mem_cons_self fuel _ (by omega)]
      simp only [Option.bind_eq_bind, Option.bind_some, htail]

theorem parseFields_tokens {key : String} {v : JsonValue} {fields : List (String × JsonValue)}
    (h : ∀ f ∈ (key, v) :: fields, ParsesBack js readFloat f.2) (fuel : Nat) (rest : List Token)
    (hfuel : (tokensOf js v ++ fieldTokens js fields).length < fuel) :
    parseFields readFloat fuel
        (.text key :: .punct ':' :: (tokensOf js v ++ fieldTokens js fields ++ rest)) =
      some ((key, v) :: fields, rest) := by
  induction fields generalizing key v fuel with
  | nil =>
    cases fuel with
    | zero => simp at hfuel
    | succ fuel =>
      rw [fieldTokens, List.length_append, List.length_singleton] at hfuel
      have hv : ParsesBack js readFloat v := h (key, v) List.mem_cons_self
      rw [parseFields, fieldTokens, List.append_assoc, hv fuel _ (by omega)]
      rfl
  | cons g fields ih =>
    obtain ⟨key', w⟩ := g
    cases fuel with
    | zero => simp at hfuel
    | succ fuel =>
      rw [fieldTokens, List.length_append, List.length_cons, List.length_cons, List.length_cons]
        at hfuel
      have htail := ih (fun f hf => h f (List.mem_cons_of_mem _ hf)) fuel (by omega)
      have hv : ParsesBack js readFloat v := h (key, v) List.mem_cons_self
      rw [parseFields, fieldTokens, List.append_assoc, List.cons_append, List.cons_append,
        List.cons_append, hv fuel _ (by omega)]
      simp only [Option.bind_eq_bind, Option.bind_some, htail]

theorem parsesBack_of_printable (hfloats : FloatsRead js readFloat) {v : JsonValue}
    (h : Printable depth v) :
    ParsesBack js readFloat v := by
  have hnumber : ∀ n, Printable 0 (.number n) →
      ParsesBack js readFloat (.number n) := by
    intro n hn fuel rest hfuel
    cases fuel with
    | zero => simp at hfuel
    | succ fuel =>
      rw [tokensOf, List.singleton_append, parseTokens, ofWord_number hfloats hn]
      rfl
  induction h with
  | null =>
    intro fuel rest hfuel
    cases fuel with
    | zero => simp at hfuel
    | succ fuel => rfl
  | bool b =>
    intro fuel rest hfuel
    cases fuel with
    | zero => simp at hfuel
    | succ fuel => cases b <;> rfl
  | posInt n => exact hnumber _ (.posInt n)
  | negInt n hn => exact hnumber _ (.negInt n hn)
  | float f hf => exact hnumber _ (.float f hf)
  | string s =>
    intro fuel rest hfuel
    cases fuel with
    | zero => simp at hfuel
    | succ fuel => rfl
  | array items hitems ih =>
    intro fuel rest hfuel
    cases fuel with
    | zero => simp at hfuel
    | succ fuel =>
      cases items with
      | nil => rfl
      | cons v items =>
        rw [tokensOf, List.length_cons] at hfuel
        have hitems := parseItems_tokens ih fuel rest (by omega)
        obtain ⟨t, ts, htokens, hbracket, -⟩ := tokensOf_head js v
        rw [tokensOf, List.cons_append, htokens, List.cons_append, List.cons_append, parseTokens]
        · rw [htokens, List.cons_append, List.cons_append] at hitems
          simp only [Option.bind_eq_bind, hitems, Option.bind_some]
        · intro tail he
          exact hbracket (List.cons.inj he).1
  | object fields hfields ih =>
    intro fuel rest hfuel
    cases fuel with
    | zero => simp at hfuel
    | succ fuel =>
      cases fields with
      | nil => rfl
      | cons f fields =>
        obtain ⟨key, v⟩ := f
        rw [tokensOf, List.length_cons, List.length_cons, List.length_cons] at hfuel
        have hfields := parseFields_tokens ih fuel rest (by omega)
        rw [tokensOf, List.cons_append, List.cons_append, List.cons_append, parseTokens]
        · simp only [Option.bind_eq_bind, hfields, Option.bind_some]
        · intro tail he
          simp at he

theorem readPrinted_render (hfloats : FloatsRead js readFloat) {v : JsonValue}
    (h : Printable depth v) (level : Option Nat) :
    readPrinted readFloat (intoBytes (String.ofList (render js level v))) = some v := by
  have hlex := rendersTokens_of_printable hfloats h level [] [] (by simp [EndsWord]) lexes_nil
    ((render js level v).length + 1) (by simp)
  have hparse := parsesBack_of_printable hfloats h ((tokensOf js v).length + 1) [] (by omega)
  rw [List.append_nil] at hparse
  simp only [List.append_nil] at hlex
  unfold readPrinted
  rw [utf8Decode_intoBytes]
  simp only [Option.bind_eq_bind, Option.bind_some, String.toList_ofList, hlex, hparse]
  rfl

end RoundTrip

/-- Texts of floats that are those of `serde_json` for 0, 2 and 30. -/
def samplePrint (f : F64) : List Char :=
  if f.bits = 0 then ['0', '.', '0']
  else if f.bits = 0x4000000000000000 then ['2', '.', '0']
  else if f.bits = 0x403e000000000000 then ['3', '0', '.', '0']
  else '1' :: 'e' :: Nat.toDigits 10 f.bits.toNat

def sampleParse : List Char → Option F64
  | '1' :: 'e' :: digits => some ⟨UInt64.ofNat (Nat.ofDigitChars 10 digits 0)⟩
  | cs =>
    if cs = ['0', '.', '0'] then some ⟨0⟩
    else if cs = ['2', '.', '0'] then some ⟨0x4000000000000000⟩
    else if cs = ['3', '0', '.', '0'] then some ⟨0x403e000000000000⟩
    else none

def sampleJson : JsonCrate :=
  ⟨samplePrint, readPrinted sampleParse⟩

theorem sampleJson_print (f : F64) :
    (f.bits = 0 ∧ sampleJson.printFloat f = ['0', '.', '0']) ∨
    (f.bits = 0x4000000000000000 ∧ sampleJson.printFloat f = ['2', '.', '0']) ∨
    (f.bits = 0x403e000000000000 ∧ sampleJson.printFloat f = ['3', '0', '.', '0']) ∨
    sampleJson.printFloat f = '1' :: 'e' :: Nat.toDigits 10 f.bits.toNat := by
  simp only [sampleJson, samplePrint]
  by_cases hzero : f.bits = 0
  · exact .inl ⟨hzero, if_pos hzero⟩
  rw [if_neg hzero]
  by_cases htwo : f.bits = 0x4000000000000000
  · exact .inr (.inl ⟨htwo, if_pos htwo⟩)
  rw [if_neg htwo]
  by_cases hthirty : f.bits = 0x403e000000000000
  · exact .inr (.inr (.inl ⟨hthirty, if_pos hthirty⟩))
  · exact .inr (.inr (.inr (if_neg hthirty)))

theorem sampleJson_floats : FloatsRead sampleJson sampleParse where
  word f _ c hc := by
    rcases sampleJson_print f with ⟨-, h⟩ | ⟨-, h⟩ | ⟨-, h⟩ | h
    all_goals rw [h] at hc
    · exact List.all_eq_true.mp (by decide) c hc
    · exact List.all_eq_true.mp (by decide) c hc
    · exact List.all_eq_true.mp (by decide) c hc
    · rcases List.mem_cons.mp hc with rfl | hc
      · decide
      rcases List.mem_cons.mp hc with rfl | hc
      · decide
      have hdigit := Nat.isDigit_of_mem_toDigits (b := 10) (by decide) (by decide) hc
      simp [isWordChar, Char.isAlphanum, hdigit]
  pointed f _ := by
    rcases sampleJson_print f with ⟨-, h⟩ | ⟨-, h⟩ | ⟨-, h⟩ | h <;> rw [h] <;> simp
  number f _ c hc := by
    rcases sampleJson_print f with ⟨-, h⟩ | ⟨-, h⟩ | ⟨-, h⟩ | h <;> rw [h] at hc <;>
      simp at hc <;> subst hc <;> decide
  reads f _ := by
    obtain ⟨bits⟩ := f
    rcases sampleJson_print ⟨bits⟩ with ⟨hbits, h⟩ | ⟨hbits, h⟩ | ⟨hbits, h⟩ | h
    all_goals rw [h]
    · simp only at hbits
      rw [hbits]
      rfl
    · simp only at hbits
      rw [hbits]
      rfl
    · simp only at hbits
      rw [hbits]
      rfl
    · show some (F64.mk (UInt64.ofNat (Nat.ofDigitChars 10 (Nat.toDigits 10 bits.toNat) 0))) = _
      rw [Nat.ofDigitChars_toDigits (by decide) (by decide)]
      simp

theorem sampleJson_lossless : sampleJson.Lossless where
  line f hf hmem := absurd (sampleJson_floats.word f hf '\n' hmem) (by decide)
  reads hv level := readPrinted_render sampleJson_floats hv level

end Sealedge
