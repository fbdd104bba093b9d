import Mathlib.Data.List.TakeWhile
import Sealedge.IpAddress
import Sealedge.WitnessJws

namespace Sealedge

open IpAddress

/-- The bytes that the HTTP library takes in the value of a header. -/
def isHeaderByte (b : UInt8) : Bool :=
  (decide (32 ≤ b) && b != 127) || b == 9

def isVisibleAscii (b : UInt8) : Bool :=
  (decide (32 ≤ b) && decide (b < 127)) || b == 9

structure HeaderValue where
  bytes : Bytes
  accepted : ∀ b ∈ bytes, isHeaderByte b = true

/-- `HeaderValue::to_str` of the `http` crate: visible ASCII, blanks and tabs only. -/
def HeaderValue.toStr (v : HeaderValue) : Option (List Char) :=
  if v.bytes.all isVisibleAscii then some (v.bytes.map fun b => Char.ofNat b.toNat) else none

/-- The headers of a request by their names in lower case. -/
abbrev HeaderMap := List (String × HeaderValue)

/-- `HeaderMap::get`: the first value under the name. -/
def HeaderMap.get (headers : HeaderMap) (name : String) : Option HeaderValue :=
  (headers.find? fun p => p.1 == name).map Prod.snd

def isTrusted (trustedProxies : List Net) (ip : Addr) : Bool :=
  trustedProxies.any fun cidr => cidr.contains ip

/-- The loop over the parts from the right: the first address that is not trusted. -/
def firstUntrusted (trustedProxies : List Net) (peerIp : Addr) : List (List Char) → Addr
  | [] => peerIp
  | part :: rest =>
    match parse (trimChars part) with
    | some ip =>
      if !isTrusted trustedProxies ip then ip else firstUntrusted trustedProxies peerIp rest
    | none => firstUntrusted trustedProxies peerIp rest

def extractClientIp (peerIp : Addr) (headers : HeaderMap) (trustedProxies : List Net) : Addr :=
  if trustedProxies.isEmpty then peerIp
  else if !isTrusted trustedProxies peerIp then peerIp
  else
    match (headers.get "x-forwarded-for").bind HeaderValue.toStr with
    | some xff => firstUntrusted trustedProxies peerIp (xff.splitOn ',').reverse
    | none => peerIp

def isBlank (c : Char) : Bool :=
  c == ' ' || c == '\t'

/-- An address as a proxy appends it to the header, with blanks around it. -/
structure ForwardedEntry where
  lead : List Char
  text : List Char
  trail : List Char
  blank : ∀ c ∈ lead ++ trail, isBlank c = true
  addr : Addr
  parses : parse text = some addr

namespace ForwardedEntry

def chars (e : ForwardedEntry) : List Char :=
  e.lead ++ (e.text ++ e.trail)

/-- The entry on the wire, behind its comma. -/
def bytes (e : ForwardedEntry) : Bytes :=
  (',' :: e.chars).map fun c => UInt8.ofNat c.toNat

end ForwardedEntry

/-- What holds of the characters of an entry: they are single visible bytes and no comma. -/
def EntryChar (c : Char) : Prop :=
  (32 ≤ c.toNat ∧ c.toNat < 127 ∨ c.toNat = 9) ∧ c ≠ ','

theorem toDigit_range {c : Char} (h : (toDigit 16 c).isSome = true) :
    48 ≤ c.toNat ∧ c.toNat ≤ 57 ∨ 97 ≤ c.toNat ∧ c.toNat ≤ 102 ∨
      65 ≤ c.toNat ∧ c.toNat ≤ 70 := by
  have hle : ∀ {a b : Char}, a ≤ b ↔ a.toNat ≤ b.toNat := Iff.rfl
  unfold toDigit at h
  obtain ⟨n, hn⟩ := Option.isSome_iff_exists.mp h
  obtain ⟨hvalue, -⟩ := Option.filter_eq_some_iff.mp hn
  simp only [hle] at hvalue
  split at hvalue
  next hd => exact .inl hd
  next =>
    split at hvalue
    next ha => exact .inr (.inl ha)
    next =>
      split at hvalue
      next hA => exact .inr (.inr hA)
      next => simp at hvalue

theorem addrChar_range {c : Char} (h : AddrChar c) :
    46 ≤ c.toNat ∧ c.toNat < 127 := by
  rcases h with h | rfl | rfl
  · have := toDigit_range h
    omega
  · decide
  · decide

theorem isWhitespace_of_addrChar {c : Char} (h : AddrChar c) : isWhitespace c = false := by
  have hrange := addrChar_range h
  unfold isWhitespace
  simp
  omega

theorem isWhitespace_of_isBlank {c : Char} (h : isBlank c = true) : isWhitespace c = true := by
  rcases Bool.or_eq_true_iff.mp h with h | h
  · rw [beq_iff_eq.mp h]
    decide
  · rw [beq_iff_eq.mp h]
    decide

theorem trimChars_entry (e : ForwardedEntry) : trimChars e.chars = e.text := by
  have htext : ∀ c ∈ e.text, isWhitespace c = false := fun c hc =>
    isWhitespace_of_addrChar (addrChar_of_parse e.parses c hc)
  have hreverse : ∀ c ∈ e.text.reverse, isWhitespace c = false := fun c hc =>
    htext c (List.mem_reverse.mp hc)
  have hlead : ∀ c ∈ e.lead, isWhitespace c = true := fun c hc =>
    isWhitespace_of_isBlank (e.blank c (List.mem_append_left _ hc))
  have htrail : ∀ c ∈ e.trail.reverse, isWhitespace c = true := fun c hc =>
    isWhitespace_of_isBlank (e.blank c (List.mem_append_right _ (List.mem_reverse.mp hc)))
  have hback : ((e.text ++ e.trail).reverse.dropWhile isWhitespace).reverse = e.text := by
    rw [List.reverse_append, List.dropWhile_append_of_pos htrail,
      dropWhile_isWhitespace_eq_self hreverse, List.reverse_reverse]
  rw [trimChars, ForwardedEntry.chars, List.dropWhile_append_of_pos hlead]
  cases hc : e.text with
  | nil =>
    have hnil : e.trail.dropWhile isWhitespace = [] :=
      List.dropWhile_eq_nil_iff.mpr fun c h => htrail c (List.mem_reverse.mpr h)
    rw [List.nil_append, hnil]
    rfl
  | cons c rest =>
    have hfirst : isWhitespace c = false := htext c (by rw [hc]; simp)
    rw [List.cons_append, List.dropWhile_cons, if_neg (by simp [hfirst]), ← List.cons_append, ← hc]
    exact hback

theorem entryChar_of_mem {e : ForwardedEntry} {c : Char} (h : c ∈ e.chars) : EntryChar c := by
  have hblank : isBlank c = true → EntryChar c := by
    intro hc
    rcases Bool.or_eq_true_iff.mp hc with hc | hc
    · rw [beq_iff_eq.mp hc]
      exact ⟨by decide, by decide⟩
    · rw [beq_iff_eq.mp hc]
      exact ⟨by decide, by decide⟩
  rcases List.mem_append.mp h with h | h
  · exact hblank (e.blank c (List.mem_append_left _ h))
  · rcases List.mem_append.mp h with h | h
    · have hrange := addrChar_range (addrChar_of_parse e.parses c h)
      refine ⟨.inl ⟨by omega, by omega⟩, ?_⟩
      rintro rfl
      exact absurd hrange.1 (by decide)
    · exact hblank (e.blank c (List.mem_append_right _ h))

theorem toNat_byte {c : Char} (h : c.toNat < 127) : (UInt8.ofNat c.toNat).toNat = c.toNat := by
  simp
  omega

theorem isVisibleAscii_entry {e : ForwardedEntry} {b : UInt8} (h : b ∈ e.bytes) :
    isVisibleAscii b = true := by
  obtain ⟨c, hc, rfl⟩ := List.mem_map.mp h
  have hrange : 32 ≤ c.toNat ∧ c.toNat < 127 ∨ c.toNat = 9 := by
    rcases List.mem_cons.mp hc with rfl | hc
    · decide
    · exact (entryChar_of_mem hc).1
  have hbyte := toNat_byte (c := c) (by omega)
  simp only [isVisibleAscii, Bool.or_eq_true, Bool.and_eq_true, decide_eq_true_eq, beq_iff_eq,
    UInt8.le_iff_toNat_le, UInt8.lt_iff_toNat_lt, ← UInt8.toNat_inj, hbyte]
  simpa using hrange

/-- The characters that the header is read as. -/
def asText (bytes : Bytes) : List Char :=
  bytes.map fun b => Char.ofNat b.toNat

theorem asText_entry (e : ForwardedEntry) : asText e.bytes = ',' :: e.chars := by
  unfold asText ForwardedEntry.bytes
  rw [List.map_map]
  refine (List.map_congr_left fun c hc => ?_).trans (List.map_id _)
  have hrange : c.toNat < 127 := by
    rcases List.mem_cons.mp hc with rfl | hc
    · decide
    · have := (entryChar_of_mem hc).1
      omega
  rw [Function.comp_apply, toNat_byte hrange, Char.ofNat_toNat]
  rfl

/-- The parts of the header: those of the client, and then one for each entry. -/
theorem splitOn_entries (v : Bytes) (entries : List ForwardedEntry) :
    (asText (v ++ entries.flatMap ForwardedEntry.bytes)).splitOn ',' =
      (asText v).splitOn ',' ++ entries.map ForwardedEntry.chars := by
  have hsplit : ∀ (cs : List Char) (entries : List ForwardedEntry),
      (cs ++ entries.flatMap fun e => ',' :: e.chars).splitOn ',' =
        cs.splitOn ',' ++ entries.map ForwardedEntry.chars := by
    intro cs entries
    induction entries generalizing cs with
    | nil => simp
    | cons e entries ih =>
      have he : e.chars.splitOn ',' = [e.chars] :=
        List.splitOnP_eq_singleton fun c hc => by simpa using (entryChar_of_mem hc).2
      rw [List.flatMap_cons, List.cons_append, List.splitOn,
        List.splitOnP_append_cons _ _ (by simp)]
      have hrest := ih e.chars
      rw [he] at hrest
      rw [← List.splitOn, ← List.splitOn, hrest]
      simp
  rw [← hsplit (asText v) entries]
  congr 1
  rw [asText, List.map_append, List.map_flatMap]
  congr 2
  funext e
  exact asText_entry e

section Loop

variable {trustedProxies : List Net} {peerIp : Addr}

theorem firstUntrusted_skip {parts rest : List (List Char)}
    (h : ∀ part ∈ parts, ∀ ip, parse (trimChars part) = some ip →
      isTrusted trustedProxies ip = true) :
    firstUntrusted trustedProxies peerIp (parts ++ rest) =
      firstUntrusted trustedProxies peerIp rest := by
  induction parts with
  | nil => rfl
  | cons part parts ih =>
    have htail := ih fun p hp => h p (by simp [hp])
    rw [List.cons_append, firstUntrusted]
    split
    next ip hip => simpa [h part (by simp) ip hip] using htail
    next => exact htail

/-- From the right the loop stops at the entry whose successors are all trusted. -/
theorem firstUntrusted_entries {first : ForwardedEntry} {rest : List ForwardedEntry}
    (hfirst : isTrusted trustedProxies first.addr = false)
    (hrest : ∀ e ∈ rest, isTrusted trustedProxies e.addr = true) (parts : List (List Char)) :
    firstUntrusted trustedProxies peerIp
      (parts ++ (first :: rest).map ForwardedEntry.chars).reverse = first.addr := by
  rw [List.reverse_append, List.map_cons, List.reverse_cons, List.append_assoc,
    firstUntrusted_skip]
  · rw [List.singleton_append, firstUntrusted, trimChars_entry, first.parses]
    simp [hfirst]
  · intro part hpart ip hip
    obtain ⟨e, he, rfl⟩ := List.mem_map.mp (List.mem_reverse.mp hpart)
    rw [trimChars_entry, e.parses, Option.some.injEq] at hip
    rw [← hip]
    exact hrest e he

theorem extractClientIp_untrusted (headers : HeaderMap)
    (h : isTrusted trustedProxies peerIp = false) :
    extractClientIp peerIp headers trustedProxies = peerIp := by
  unfold extractClientIp
  split
  next => rfl
  next => simp [h]

theorem extractClientIp_trusted (headers : HeaderMap)
    (h : isTrusted trustedProxies peerIp = true) :
    extractClientIp peerIp headers trustedProxies =
      match (headers.get "x-forwarded-for").bind HeaderValue.toStr with
      | some xff => firstUntrusted trustedProxies peerIp (xff.splitOn ',').reverse
      | none => peerIp := by
  have hne : trustedProxies.isEmpty = false := by
    cases trustedProxies with
    | nil => simp [isTrusted] at h
    | cons => rfl
  unfold extractClientIp
  rw [if_neg (by simp [hne]), if_neg (by simp [h])]

end Loop

theorem toStr_entries {value : HeaderValue} {v : Bytes} {entries : List ForwardedEntry}
    (h : value.bytes = v ++ entries.flatMap ForwardedEntry.bytes) :
    value.toStr = if v.all isVisibleAscii then some (asText value.bytes) else none := by
  have hentries : (entries.flatMap ForwardedEntry.bytes).all isVisibleAscii = true := by
    rw [List.all_eq_true]
    intro b hb
    obtain ⟨e, -, hb⟩ := List.mem_flatMap.mp hb
    exact isVisibleAscii_entry hb
  have hall : value.bytes.all isVisibleAscii = v.all isVisibleAscii := by
    rw [h, List.all_append, hentries, Bool.and_true]
  rw [HeaderValue.toStr, hall]
  rfl

theorem extractClientIp_entries {trustedProxies : List Net} {peerIp : Addr} {headers : HeaderMap}
    {v : Bytes} {first : ForwardedEntry} {rest : List ForwardedEntry} {value : HeaderValue}
    (hpeer : isTrusted trustedProxies peerIp = true)
    (hvalue : headers.get "x-forwarded-for" = some value)
    (hbytes : value.bytes = v ++ (first :: rest).flatMap ForwardedEntry.bytes)
    (hfirst : isTrusted trustedProxies first.addr = false)
    (hrest : ∀ e ∈ rest, isTrusted trustedProxies e.addr = true) :
    extractClientIp peerIp headers trustedProxies = first.addr ↔
      ∀ b ∈ v, isVisibleAscii b = true := by
  rw [extractClientIp_trusted headers hpeer, hvalue, Option.bind_some, toStr_entries hbytes]
  by_cases hv : v.all isVisibleAscii = true
  · rw [if_pos hv]
    simp only [hbytes, splitOn_entries, firstUntrusted_entries hfirst hrest, true_iff]
    exact List.all_eq_true.mp hv
  · rw [if_neg hv]
    constructor
    · intro h
      simp only at h
      rw [h, hfirst] at hpeer
      cases hpeer
    · intro h
      exact absurd (List.all_eq_true.mpr h) hv

/-- Behind trusted proxies the client's part of the header is without effect exactly when it is
visible ASCII; from any other peer the whole header is. -/
theorem extractClientIp_eq_iff (trustedProxies : List Net) (peerIp : Addr) (headers : HeaderMap) :
    (isTrusted trustedProxies peerIp = false →
      extractClientIp peerIp headers trustedProxies = peerIp) ∧
    ∀ (v : Bytes) (first : ForwardedEntry) (rest : List ForwardedEntry) (value : HeaderValue),
      isTrusted trustedProxies peerIp = true →
      headers.get "x-forwarded-for" = some value →
      value.bytes = v ++ (first :: rest).flatMap ForwardedEntry.bytes →
      isTrusted trustedProxies first.addr = false →
      (∀ e ∈ rest, isTrusted trustedProxies e.addr = true) →
      (extractClientIp peerIp headers trustedProxies = first.addr ↔
        ∀ b ∈ v, isVisibleAscii b = true) := by
  refine ⟨extractClientIp_untrusted headers, ?_⟩
  intro v first rest value hpeer hvalue hbytes hfirst hrest
  exact extractClientIp_entries hpeer hvalue hbytes hfirst hrest

/-- The block `10.0.0.0/8`. -/
def privateBlock : Net :=
  .v4 ⟨0x0a000000, 8, by decide⟩

/-- The entry ` 203.0.113.7`. -/
def publicEntry : ForwardedEntry where
  lead := [' ']
  text := "203.0.113.7".toList
  trail := []
  blank := by simp [isBlank]
  addr := .v4 0xcb007107
  parses := by decide

/-- What a client sends, with the entry of the proxy behind it. -/
def forwardedFrom (v : Bytes) (h : v.all isHeaderByte = true) : HeaderValue where
  bytes := v ++ [publicEntry].flatMap ForwardedEntry.bytes
  accepted := by
    intro b hb
    rcases List.mem_append.mp hb with hb | hb
    · exact List.all_eq_true.mp h b hb
    · have hall : ([publicEntry].flatMap ForwardedEntry.bytes).all isHeaderByte = true := by decide
      exact List.all_eq_true.mp hall b hb

/-- A client behind the proxy that claims to be `1.2.3.4` is known by its own address. -/
theorem extractClientIp_eq_sample :
    isTrusted [privateBlock] (.v4 0x0a000001) = true ∧
    extractClientIp (.v4 0x0a000001)
      [("x-forwarded-for", forwardedFrom [49, 46, 50, 46, 51, 46, 52] (by decide))]
      [privateBlock] = publicEntry.addr := by
  refine ⟨by decide, ?_⟩
  apply ((extractClientIp_eq_iff [privateBlock] (.v4 0x0a000001)
    [("x-forwarded-for", forwardedFrom [49, 46, 50, 46, 51, 46, 52] (by decide))]).2
      [49, 46, 50, 46, 51, 46, 52] publicEntry [] _ (by decide) rfl rfl (by decide) (by simp)).mpr
  exact List.all_eq_true.mp (by decide)

/-- One byte above ASCII in front, and the client is counted as the proxy. -/
theorem extractClientIp_latin1 :
    isTrusted [privateBlock] (.v4 0x0a000001) = true ∧
    isTrusted [privateBlock] publicEntry.addr = false ∧
    (forwardedFrom [0xe9] (by decide)).bytes =
      [0xe9] ++ [publicEntry].flatMap ForwardedEntry.bytes ∧
    extractClientIp (.v4 0x0a000001)
        [("x-forwarded-for", forwardedFrom [0xe9] (by decide))] [privateBlock] ≠
      publicEntry.addr := by
  refine ⟨by decide, by decide, rfl, by decide +kernel⟩

end Sealedge
