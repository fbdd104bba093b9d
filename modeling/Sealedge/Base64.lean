import Mathlib.Data.List.Basic

namespace Base64

/-- A digit of the standard alphabet. -/
def digit (n : Nat) : Char :=
  if n < 26 then Char.ofNat ('A'.toNat + n)
  else if n < 52 then Char.ofNat ('a'.toNat + (n - 26))
  else if n < 62 then Char.ofNat ('0'.toNat + (n - 52))
  else if n = 62 then '+'
  else '/'

def value (c : Char) : Option Nat :=
  if 'A' ≤ c ∧ c ≤ 'Z' then some (c.toNat - 'A'.toNat)
  else if 'a' ≤ c ∧ c ≤ 'z' then some (c.toNat - 'a'.toNat + 26)
  else if '0' ≤ c ∧ c ≤ '9' then some (c.toNat - '0'.toNat + 52)
  else if c = '+' then some 62
  else if c = '/' then some 63
  else none

/-- Three bytes give four digits; a shorter last group is filled with zero bits and padded. -/
def encodeChars : List UInt8 → List Char
  | [] => []
  | [a] =>
    let n := a.toNat * 16
    [digit (n / 64), digit (n % 64), '=', '=']
  | [a, b] =>
    let n := (a.toNat * 256 + b.toNat) * 4
    [digit (n / 4096), digit (n / 64 % 64), digit (n % 64), '=']
  | a :: b :: c :: rest =>
    let n := (a.toNat * 256 + b.toNat) * 256 + c.toNat
    digit (n / 262144) :: digit (n / 4096 % 64) :: digit (n / 64 % 64) :: digit (n % 64) ::
      encodeChars rest

def encode (bytes : List UInt8) : String :=
  String.ofList (encodeChars bytes)

/-- The last four characters, which may be padded; the bits that padding leaves over are zero. -/
def decodePadded (w x y : Char) : Option (List UInt8) := do
  let a ← value w
  let b ← value x
  if y = '=' then
    let n := a * 64 + b
    if n % 16 = 0 then some [UInt8.ofNat (n / 16)] else none
  else
    let c ← value y
    let n := (a * 64 + b) * 64 + c
    if n % 4 = 0 then some [UInt8.ofNat (n / 4 / 256), UInt8.ofNat (n / 4)] else none

def decodeChars : List Char → Option (List UInt8)
  | [] => some []
  | w :: x :: y :: z :: rest =>
    if z = '=' then
      if rest = [] then decodePadded w x y else none
    else do
      let a ← value w
      let b ← value x
      let c ← value y
      let d ← value z
      let tail ← decodeChars rest
      let n := ((a * 64 + b) * 64 + c) * 64 + d
      pure (UInt8.ofNat (n / 65536) :: UInt8.ofNat (n / 256) :: UInt8.ofNat n :: tail)
  | _ => none

def decode (s : String) : Option (List UInt8) :=
  decodeChars s.toList

theorem value_digit : ∀ n, n < 64 → value (digit n) = some n := by
  decide

theorem digit_ne_pad : ∀ n, n < 64 → digit n ≠ '=' := by
  decide

theorem encodeChars_length (bytes : List UInt8) :
    (encodeChars bytes).length = 4 * ((bytes.length + 2) / 3) := by
  induction bytes using encodeChars.induct with
  | case1 => rfl
  | case2 a => simp [encodeChars]
  | case3 a b => simp [encodeChars]
  | case4 a b c rest ih =>
    simp only [encodeChars, List.length_cons, ih]
    omega

theorem digit_injective {m n : Nat} (hm : m < 64) (hn : n < 64) (h : digit m = digit n) :
    m = n := by
  have hvalue := congrArg value h
  rw [value_digit m hm, value_digit n hn] at hvalue
  exact Option.some.inj hvalue

theorem head_eq_of_encodeChars_append {a b : UInt8} {as bs : List UInt8} {s t : List Char}
    (ha : 2 ≤ as.length) (hb : 2 ≤ bs.length)
    (h : encodeChars (a :: as) ++ s = encodeChars (b :: bs) ++ t) : a = b := by
  rcases as with _ | ⟨a₁, _ | ⟨a₂, arest⟩⟩
  · simp at ha
  · simp at ha
  rcases bs with _ | ⟨b₁, _ | ⟨b₂, brest⟩⟩
  · simp at hb
  · simp at hb
  have hlt := a.toNat_lt
  have hlt₁ := a₁.toNat_lt
  have hlt₂ := a₂.toNat_lt
  have hgt := b.toNat_lt
  have hgt₁ := b₁.toNat_lt
  have hgt₂ := b₂.toNat_lt
  simp only [encodeChars, List.cons_append, List.cons.injEq] at h
  have hfirst := digit_injective (by omega) (by omega) h.1
  have hsecond := digit_injective (by omega) (by omega) h.2.1
  exact UInt8.toNat_inj.mp (by omega)

theorem decodeChars_encodeChars (bytes : List UInt8) :
    decodeChars (encodeChars bytes) = some bytes := by
  induction bytes using encodeChars.induct with
  | case1 => rfl
  | case2 a =>
    have ha := a.toNat_lt
    have h₁ := value_digit (a.toNat * 16 / 64) (by omega)
    have h₂ := value_digit (a.toNat * 16 % 64) (by omega)
    have hn : a.toNat * 16 / 64 * 64 + a.toNat * 16 % 64 = a.toNat * 16 := by omega
    have hz : a.toNat * 16 % 16 = 0 := by omega
    have hq : a.toNat * 16 / 16 = a.toNat := by omega
    simp [encodeChars, decodeChars, decodePadded, h₁, h₂, hn, hz, hq]
  | case3 a b =>
    have ha := a.toNat_lt
    have hb := b.toNat_lt
    generalize hm : (a.toNat * 256 + b.toNat) * 4 = m
    have h₁ := value_digit (m / 4096) (by omega)
    have h₂ := value_digit (m / 64 % 64) (by omega)
    have h₃ := value_digit (m % 64) (by omega)
    have hp := digit_ne_pad (m % 64) (by omega)
    have hn : (m / 4096 * 64 + m / 64 % 64) * 64 + m % 64 = m := by omega
    have hz : m % 4 = 0 := by omega
    have hq : m / 4 / 256 = a.toNat := by omega
    have hr : UInt8.ofNat (m / 4) = b := by
      apply UInt8.toNat_inj.mp
      rw [UInt8.toNat_ofNat']
      omega
    simp [encodeChars, decodeChars, decodePadded, hm, h₁, h₂, h₃, hp, hn, hz, hq, hr]
  | case4 a b c rest ih =>
    have ha := a.toNat_lt
    have hb := b.toNat_lt
    have hc := c.toNat_lt
    generalize hm : (a.toNat * 256 + b.toNat) * 256 + c.toNat = m
    have h₁ := value_digit (m / 262144) (by omega)
    have h₂ := value_digit (m / 4096 % 64) (by omega)
    have h₃ := value_digit (m / 64 % 64) (by omega)
    have h₄ := value_digit (m % 64) (by omega)
    have hp := digit_ne_pad (m % 64) (by omega)
    have hn : ((m / 262144 * 64 + m / 4096 % 64) * 64 + m / 64 % 64) * 64 + m % 64 = m := by omega
    have hq : m / 65536 = a.toNat := by omega
    have hr : UInt8.ofNat (m / 256) = b := by
      apply UInt8.toNat_inj.mp
      rw [UInt8.toNat_ofNat']
      omega
    have hs : UInt8.ofNat m = c := by
      apply UInt8.toNat_inj.mp
      rw [UInt8.toNat_ofNat']
      omega
    simp only [encodeChars, decodeChars, hm, h₁, h₂, h₃, h₄, hp, ih, ↓reduceIte,
      Option.bind_eq_bind, Option.bind_some, Option.pure_def, hn, hq, hr, hs, UInt8.ofNat_toNat]

theorem decode_encode (bytes : List UInt8) : decode (encode bytes) = some bytes := by
  simp [decode, encode, decodeChars_encodeChars]

theorem digit_of_value {c : Char} {n : Nat} (h : value c = some n) : n < 64 ∧ digit n = c := by
  have hchar : ∀ k, c.toNat = k → Char.ofNat k = c := by
    rintro k rfl
    exact Char.ofNat_toNat c
  unfold value at h
  split at h
  next hc =>
    have hlo : 65 ≤ c.toNat := hc.1
    have hhi : c.toNat ≤ 90 := hc.2
    have hn : c.toNat - 65 = n := Option.some.inj h
    refine ⟨by omega, ?_⟩
    rw [digit, if_pos (by omega)]
    exact hchar _ (by show c.toNat = 65 + n; omega)
  next =>
  split at h
  next hc =>
    have hlo : 97 ≤ c.toNat := hc.1
    have hhi : c.toNat ≤ 122 := hc.2
    have hn : c.toNat - 97 + 26 = n := Option.some.inj h
    refine ⟨by omega, ?_⟩
    rw [digit, if_neg (by omega), if_pos (by omega)]
    exact hchar _ (by show c.toNat = 97 + (n - 26); omega)
  next =>
  split at h
  next hc =>
    have hlo : 48 ≤ c.toNat := hc.1
    have hhi : c.toNat ≤ 57 := hc.2
    have hn : c.toNat - 48 + 52 = n := Option.some.inj h
    refine ⟨by omega, ?_⟩
    rw [digit, if_neg (by omega), if_neg (by omega), if_pos (by omega)]
    exact hchar _ (by show c.toNat = 48 + (n - 52); omega)
  next =>
  split at h
  next hc =>
    cases Option.some.inj h
    exact ⟨by omega, hc.symm⟩
  next =>
  split at h
  next hc =>
    cases Option.some.inj h
    exact ⟨by omega, hc.symm⟩
  next => cases h

theorem encodeChars_decodePadded {w x y : Char} {bytes : List UInt8}
    (h : decodePadded w x y = some bytes) : encodeChars bytes = [w, x, y, '='] := by
  simp only [decodePadded, Option.bind_eq_bind, Option.bind_eq_some_iff] at h
  obtain ⟨a, ha, b, hb, hpadded⟩ := h
  obtain ⟨halt, rfl⟩ := digit_of_value ha
  obtain ⟨hblt, rfl⟩ := digit_of_value hb
  split at hpadded
  next hy =>
    split at hpadded
    next hz =>
      cases Option.some.inj hpadded
      have hbyte : (UInt8.ofNat ((a * 64 + b) / 16)).toNat = (a * 64 + b) / 16 := by
        rw [UInt8.toNat_ofNat']
        omega
      have hfirst : (a * 64 + b) / 16 * 16 / 64 = a := by omega
      have hsecond : (a * 64 + b) / 16 * 16 % 64 = b := by omega
      simp only [encodeChars, hbyte, hfirst, hsecond, hy]
    next => cases hpadded
  next =>
    obtain ⟨c, hc, hbits⟩ := Option.bind_eq_some_iff.mp hpadded
    obtain ⟨hclt, rfl⟩ := digit_of_value hc
    split at hbits
    next hz =>
      cases Option.some.inj hbits
      have hfirst : (UInt8.ofNat (((a * 64 + b) * 64 + c) / 4 / 256)).toNat =
          ((a * 64 + b) * 64 + c) / 4 / 256 := by
        rw [UInt8.toNat_ofNat']
        omega
      have hsecond : (UInt8.ofNat (((a * 64 + b) * 64 + c) / 4)).toNat =
          ((a * 64 + b) * 64 + c) / 4 % 256 := by
        rw [UInt8.toNat_ofNat']
      have hn : (((a * 64 + b) * 64 + c) / 4 / 256 * 256 + ((a * 64 + b) * 64 + c) / 4 % 256) * 4 =
          (a * 64 + b) * 64 + c := by omega
      have ha' : ((a * 64 + b) * 64 + c) / 4096 = a := by omega
      have hb' : ((a * 64 + b) * 64 + c) / 64 % 64 = b := by omega
      have hc' : ((a * 64 + b) * 64 + c) % 64 = c := by omega
      simp only [encodeChars, hfirst, hsecond, hn, ha', hb', hc']
    next => cases hbits

theorem encodeChars_decodeChars {cs : List Char} {bytes : List UInt8}
    (h : decodeChars cs = some bytes) : encodeChars bytes = cs := by
  induction cs using decodeChars.induct generalizing bytes with
  | case1 =>
    cases Option.some.inj h
    rfl
  | case2 w x y =>
    simp only [decodeChars, ↓reduceIte] at h
    exact encodeChars_decodePadded h
  | case3 w x y rest hrest =>
    simp only [decodeChars, ↓reduceIte, if_neg hrest] at h
    cases h
  | case4 w x y z rest hz ih =>
    simp only [decodeChars, if_neg hz, Option.bind_eq_bind, Option.bind_eq_some_iff,
      Option.pure_def, Option.some.injEq] at h
    obtain ⟨a, ha, b, hb, c, hc, d, hd, tail, htail, rfl⟩ := h
    obtain ⟨halt, rfl⟩ := digit_of_value ha
    obtain ⟨hblt, rfl⟩ := digit_of_value hb
    obtain ⟨hclt, rfl⟩ := digit_of_value hc
    obtain ⟨hdlt, rfl⟩ := digit_of_value hd
    generalize hm : ((a * 64 + b) * 64 + c) * 64 + d = m
    have hfirst : (UInt8.ofNat (m / 65536)).toNat = m / 65536 := by
      rw [UInt8.toNat_ofNat']
      omega
    have hsecond : (UInt8.ofNat (m / 256)).toNat = m / 256 % 256 := by
      rw [UInt8.toNat_ofNat']
    have hthird : (UInt8.ofNat m).toNat = m % 256 := by
      rw [UInt8.toNat_ofNat']
    have hn : (m / 65536 * 256 + m / 256 % 256) * 256 + m % 256 = m := by omega
    have ha' : m / 262144 = a := by omega
    have hb' : m / 4096 % 64 = b := by omega
    have hc' : m / 64 % 64 = c := by omega
    have hd' : m % 64 = d := by omega
    simp only [encodeChars, hfirst, hsecond, hthird, hn, ha', hb', hc', hd', ih htail]
  | case5 cs hnil hfour =>
    unfold decodeChars at h
    split at h
    next => exact absurd rfl hnil
    next w x y z rest => exact absurd rfl (hfour w x y z rest)
    next => cases h

theorem encode_decode {s : String} {bytes : List UInt8} (h : decode s = some bytes) :
    encode bytes = s := by
  rw [encode, encodeChars_decodeChars h, String.ofList_toList]

example : encode [0x66, 0x6f, 0x6f, 0x62] = "Zm9vYg==" := by decide

/-- The URL-safe letter for a letter of the standard alphabet. -/
def toUrl (c : Char) : Char :=
  if c = '+' then '-' else if c = '/' then '_' else c

def fromUrl (c : Char) : Option Char :=
  if c = '-' then some '+'
  else if c = '_' then some '/'
  else if c = '+' ∨ c = '/' ∨ c = '=' then none
  else some c

/-- Encoding with the URL-safe alphabet and without padding. -/
def urlEncode (bytes : List UInt8) : String :=
  String.ofList (((encodeChars bytes).filter (· ≠ '=')).map toUrl)

def urlDecode (s : String) : Option (List UInt8) := do
  let cs ← s.toList.mapM fromUrl
  decodeChars (cs ++ List.replicate ((4 - cs.length % 4) % 4) '=')

theorem fromUrl_toUrl_digit : ∀ n, n < 64 → fromUrl (toUrl (digit n)) = some (digit n) := by
  decide

theorem encodeChars_digits (bytes : List UInt8) :
    ∃ (values : List Nat) (pad : Nat),
      encodeChars bytes = values.map digit ++ List.replicate pad '=' ∧ (∀ n ∈ values, n < 64) ∧
      pad = (4 - values.length % 4) % 4 := by
  induction bytes using encodeChars.induct with
  | case1 => exact ⟨[], 0, rfl, by simp, rfl⟩
  | case2 a =>
    have ha := a.toNat_lt
    refine ⟨[a.toNat * 16 / 64, a.toNat * 16 % 64], 2, rfl, ?_, rfl⟩
    intro n hn
    simp only [List.mem_cons, List.not_mem_nil, or_false] at hn
    omega
  | case3 a b =>
    have ha := a.toNat_lt
    have hb := b.toNat_lt
    refine ⟨[(a.toNat * 256 + b.toNat) * 4 / 4096, (a.toNat * 256 + b.toNat) * 4 / 64 % 64,
      (a.toNat * 256 + b.toNat) * 4 % 64], 1, rfl, ?_, rfl⟩
    intro n hn
    simp only [List.mem_cons, List.not_mem_nil, or_false] at hn
    omega
  | case4 a b c rest ih =>
    have ha := a.toNat_lt
    have hb := b.toNat_lt
    have hc := c.toNat_lt
    obtain ⟨values, pad, hrest, hvalues, hpad⟩ := ih
    generalize hm : (a.toNat * 256 + b.toNat) * 256 + c.toNat = m
    refine ⟨m / 262144 :: m / 4096 % 64 :: m / 64 % 64 :: m % 64 :: values, pad, ?_, ?_, ?_⟩
    · simp [encodeChars, hm, hrest]
    · intro n hn
      rcases List.mem_cons.mp hn with rfl | hn
      · omega
      rcases List.mem_cons.mp hn with rfl | hn
      · omega
      rcases List.mem_cons.mp hn with rfl | hn
      · omega
      rcases List.mem_cons.mp hn with rfl | hn
      · omega
      exact hvalues n hn
    · simp only [List.length_cons]
      omega

theorem urlEncode_toList {bytes : List UInt8} {values : List Nat} {pad : Nat}
    (h : encodeChars bytes = values.map digit ++ List.replicate pad '=')
    (hvalues : ∀ n ∈ values, n < 64) :
    (urlEncode bytes).toList = values.map (fun n => toUrl (digit n)) := by
  have hdigits : (values.map digit).filter (· ≠ '=') = values.map digit := by
    rw [List.filter_eq_self]
    intro c hc
    obtain ⟨n, hn, rfl⟩ := List.mem_map.mp hc
    simpa using digit_ne_pad n (hvalues n hn)
  have hpads : (List.replicate pad '=').filter (· ≠ '=') = [] := by simp
  rw [urlEncode, h, List.filter_append, hdigits, hpads, List.append_nil, List.map_map]
  simp

theorem urlDecode_urlEncode (bytes : List UInt8) : urlDecode (urlEncode bytes) = some bytes := by
  obtain ⟨values, pad, h, hvalues, hpad⟩ := encodeChars_digits bytes
  have hread : (values.map (fun n => toUrl (digit n))).mapM fromUrl = some (values.map digit) := by
    clear h hpad
    induction values with
    | nil => rfl
    | cons n rest ih =>
      have hn := fromUrl_toUrl_digit n (hvalues n (by simp))
      have hrest := ih (fun v hv => hvalues v (by simp [hv]))
      rw [List.map_cons, List.mapM_cons, hn, hrest]
      rfl
  unfold urlDecode
  rw [urlEncode_toList h hvalues, hread]
  show decodeChars (values.map digit ++
    List.replicate ((4 - (values.map digit).length % 4) % 4) '=') = some bytes
  rw [List.length_map, ← hpad, ← h, decodeChars_encodeChars]

end Base64
