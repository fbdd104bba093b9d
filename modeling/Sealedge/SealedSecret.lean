import Sealedge.Envelope
import Sealedge.JsonText

namespace Sealedge

open Fallible JsonString

section Lines

theorem newline_not_mem_utf8EncodeChar {c : Char} (h : c ≠ '\n') :
    (10 : UInt8) ∉ String.utf8EncodeChar c := by
  have hval : c.val.toNat ≠ 10 := fun hv => h (Char.ext (UInt32.toNat_inj.mp hv))
  have hbyte : ∀ n : Nat, n < 256 → n ≠ 10 → (10 : UInt8) ≠ UInt8.ofNat n := by
    intro n hn hne he
    have := congrArg UInt8.toNat he
    rw [UInt8.toNat_ofNat', Nat.mod_eq_of_lt hn] at this
    exact hne this.symm
  unfold String.utf8EncodeChar
  simp only
  split
  next =>
    simp only [List.mem_singleton]
    exact hbyte _ (by omega) hval
  next =>
    split
    next =>
      simp only [List.mem_cons, List.not_mem_nil, or_false, not_or]
      exact ⟨hbyte _ (by omega) (by omega), hbyte _ (by omega) (by omega)⟩
    next =>
      split
      next =>
        simp only [List.mem_cons, List.not_mem_nil, or_false, not_or]
        exact ⟨hbyte _ (by omega) (by omega), hbyte _ (by omega) (by omega),
          hbyte _ (by omega) (by omega)⟩
      next =>
        simp only [List.mem_cons, List.not_mem_nil, or_false, not_or]
        exact ⟨hbyte _ (by omega) (by omega), hbyte _ (by omega) (by omega),
          hbyte _ (by omega) (by omega), hbyte _ (by omega) (by omega)⟩

theorem newline_not_mem_intoBytes {s : String} (h : '\n' ∉ s.toList) :
    (10 : UInt8) ∉ intoBytes s := by
  rw [intoBytes_eq_flatMap, List.mem_flatMap]
  rintro ⟨c, hc, hmem⟩
  refine newline_not_mem_utf8EncodeChar ?_ hmem
  rintro rfl
  exact h hc

theorem newline_not_mem_escapeChar (c : Char) : '\n' ∉ escapeChar c := by
  have hdigit : ∀ n, n < 16 → '\n' ≠ Nat.digitChar n := by decide
  by_cases hnewline : c = '\n'
  · subst hnewline
    decide
  unfold escapeChar
  iterate 6 (split; next => decide)
  split
  next hcontrol =>
    have hhigh := hdigit (c.toNat / 16) (by omega)
    have hlow := hdigit (c.toNat % 16) (by omega)
    simp [hhigh, hlow]
  next => simpa using fun h => hnewline h.symm

theorem newline_not_mem_quote (s : String) : '\n' ∉ (quote s).toList := by
  simp only [quote, String.toList_append, String.toList_ofList, List.mem_append, List.mem_flatMap]
  rintro ((h | ⟨c, -, h⟩) | h)
  · revert h; decide
  · exact newline_not_mem_escapeChar c h
  · revert h; decide

theorem newline_not_mem_renderItems {js : JsonCrate} {items : List JsonValue}
    (h : ∀ v ∈ items, '\n' ∉ render js none v) : '\n' ∉ renderItems js none items := by
  induction items with
  | nil => simp [renderItems, newline]
  | cons v rest ih =>
    have hv := h v List.mem_cons_self
    have hrest := ih fun w hw => h w (List.mem_cons_of_mem _ hw)
    simp [renderItems, newline, hv, hrest]

theorem newline_not_mem_renderFields {js : JsonCrate} {fields : List (String × JsonValue)}
    (h : ∀ f ∈ fields, '\n' ∉ render js none f.2) : '\n' ∉ renderFields js none fields := by
  induction fields with
  | nil => simp [renderFields, newline]
  | cons f rest ih =>
    obtain ⟨key, v⟩ := f
    have hv := h (key, v) List.mem_cons_self
    have hrest := ih fun g hg => h g (List.mem_cons_of_mem _ hg)
    simp [renderFields, newline, afterColon, newline_not_mem_quote, hv, hrest]

theorem newline_not_mem_numeral (n : Nat) : '\n' ∉ n.repr.toList := by
  intro h
  rw [Nat.toList_repr] at h
  have hdigit := Nat.isDigit_of_mem_toDigits (b := 10) (by decide) (by decide) h
  revert hdigit
  decide

theorem newline_not_mem_render {js : JsonCrate} (hjs : js.Lossless) {v : JsonValue}
    {depth : Nat} (h : Printable depth v) : '\n' ∉ render js none v := by
  induction h with
  | null => simp [render]
  | bool b => cases b <;> simp [render]
  | posInt n => simpa [render, numberWord] using newline_not_mem_numeral n.toNat
  | negInt n _ =>
    simpa [render, numberWord] using newline_not_mem_numeral (-n.toInt).toNat
  | float f hfinite =>
    exact hjs.line f hfinite
  | string s => exact newline_not_mem_quote s
  | array items _ ih =>
    cases items with
    | nil => simp [render]
    | cons v rest =>
      have hv := ih v List.mem_cons_self
      have hrest := newline_not_mem_renderItems fun w hw => ih w (List.mem_cons_of_mem _ hw)
      simp [render, newline, hv, hrest]
  | object fields _ ih =>
    cases fields with
    | nil => simp [render]
    | cons f rest =>
      obtain ⟨key, v⟩ := f
      have hv := ih (key, v) List.mem_cons_self
      have hrest := newline_not_mem_renderFields fun g hg => ih g (List.mem_cons_of_mem _ hg)
      simp [render, newline, afterColon, newline_not_mem_quote, hv, hrest]

end Lines

section Sealing

/-- Outside functions of a sealed secret: PBKDF2-HMAC-SHA256 by password, salt and iterations, and
AES-256-GCM by key, nonce and text. -/
structure SecretCrates where
  pbkdf2HmacSha256 : Bytes → Bytes → Nat → Fixed 32
  aes256GcmEncrypt : Fixed 32 → Fixed 12 → Bytes → Option Bytes
  aes256GcmDecrypt : Fixed 32 → Fixed 12 → Bytes → Option Bytes

/-- What is encrypted is decrypted under the same key and nonce. -/
def SecretCrates.Opens (sc : SecretCrates) : Prop :=
  ∀ key nonce text ciphertext, sc.aes256GcmEncrypt key nonce text = some ciphertext →
    sc.aes256GcmDecrypt key nonce ciphertext = some text

def sealedSecretHeaderV1 : String := "SEALEDGE-SEALED-V1"

def pbkdf2MinIterations : UInt64 := 600000

def pbkdf2MaxIterations : UInt64 := 10000000

variable (x : Crates) (sc : SecretCrates) (js : JsonCrate)

/-- The metadata of a sealed secret, sorted by name. -/
def secretMetadata (salt : Fixed 32) (nonce : Fixed 12) : JsonValue :=
  .object
    [("iterations", .number (.posInt pbkdf2MinIterations)),
     ("nonce", .string (x.base64Encode nonce.val)), ("salt", .string (x.base64Encode salt.val)),
     ("version", .number (.posInt 1))]

/-- `seal_secret` with the salt and the nonce that it draws. -/
def sealSecret (salt : Fixed 32) (nonce : Fixed 12) (secret : Bytes) (passphrase : String) :
    Except CryptoError Bytes :=
  let derivedKey :=
    sc.pbkdf2HmacSha256 (intoBytes passphrase) salt.val pbkdf2MinIterations.toNat
  match sc.aes256GcmEncrypt derivedKey nonce secret with
  | none => .error (.encryptionFailed "AES-GCM encrypt: aead::Error")
  | some ciphertext =>
    .ok (intoBytes sealedSecretHeaderV1 ++ 10 ::
      (intoBytes (String.ofList (render js none (secretMetadata x salt nonce))) ++ 10 :: ciphertext))

/-- The bytes up to the first line break, and those behind it. -/
def splitLine (data : Bytes) : Option (Bytes × Bytes) :=
  match data.dropWhile (· != 10) with
  | _ :: rest => some (data.takeWhile (· != 10), rest)
  | [] => none

def orInvalid {α : Type} (v : Option α) (reason : String) : Except CryptoError α :=
  v.elim (.error (.invalidKeyFormat reason)) .ok

/-- `Debug` of an optional number. -/
def debugOption : Option UInt64 → String
  | some n => "Some(" ++ n.toNat.repr ++ ")"
  | none => "None"

/-- `open_secret`. -/
def openSecret (data : Bytes) (passphrase : String) : Except CryptoError Bytes := do
  let (line, data) ← orInvalid (splitLine data) "Missing header line"
  let header ← orInvalid (utf8Decode line) "Invalid UTF-8 header"
  failWhen (header != sealedSecretHeaderV1)
    (.invalidKeyFormat ("Expected header '" ++ sealedSecretHeaderV1 ++ "', got '" ++ header ++ "'"))
  let (line, ciphertext) ← orInvalid (splitLine data) "Missing metadata line"
  let _ ← orInvalid (utf8Decode line) "Invalid UTF-8 metadata"
  let metadata ← orInvalid (js.parse line) "Invalid JSON metadata"
  let version := (metadata.get "version").bind JsonValue.asU64
  failWhen (version != some 1) (.invalidKeyFormat
    ("Unsupported sealed-secret version " ++ debugOption version ++ " (expected 1)"))
  let salt ← (x.base64Decode ((metadata.getStr "salt").getD "")).mapError
    fun e => .invalidKeyFormat ("Invalid salt base64: " ++ e)
  let nonce ← (x.base64Decode ((metadata.getStr "nonce").getD "")).mapError
    fun e => .invalidKeyFormat ("Invalid nonce base64: " ++ e)
  let iterations ← orInvalid ((metadata.get "iterations").bind JsonValue.asU64)
    "Missing iterations"
  failWhen (decide (iterations < pbkdf2MinIterations)) (.invalidKeyFormat
    ("Sealed secret uses " ++ iterations.toNat.repr ++ " PBKDF2 iterations, minimum is " ++
      pbkdf2MinIterations.toNat.repr))
  failWhen (decide (pbkdf2MaxIterations < iterations)) (.invalidKeyFormat
    ("Sealed secret uses " ++ iterations.toNat.repr ++ " PBKDF2 iterations, maximum is " ++
      pbkdf2MaxIterations.toNat.repr))
  if h : nonce.length = 12 then
    let derivedKey := sc.pbkdf2HmacSha256 (intoBytes passphrase) salt iterations.toNat
    (sc.aes256GcmDecrypt derivedKey ⟨nonce, h⟩ ciphertext).elim
      (.error (.decryptionFailed "Wrong passphrase or corrupted sealed secret")) .ok
  else .error (.invalidKeyFormat "Nonce must be 12 bytes")

end Sealing

section Opening

variable {x : Crates} {sc : SecretCrates} {js : JsonCrate}

theorem splitLine_append {line rest : Bytes} (h : (10 : UInt8) ∉ line) :
    splitLine (line ++ 10 :: rest) = some (line, rest) := by
  have hline : ∀ b ∈ line, (b != 10) = true := by
    intro b hb
    rw [bne_iff_ne]
    rintro rfl
    exact h hb
  simp [splitLine, List.takeWhile_append_of_pos hline, List.dropWhile_append_of_pos hline]

theorem printable_secretMetadata (salt : Fixed 32) (nonce : Fixed 12) :
    Printable maxNesting (secretMetadata x salt nonce) := by
  refine .object _ ?_
  simp [Printable.posInt, Printable.string]

/-- A sealed secret is opened with its passphrase, and it starts with its header. -/
theorem openSecret_sealSecret (hx : x.SignsLawfully) (hsc : sc.Opens) (hjs : js.Lossless)
    {salt : Fixed 32} {nonce : Fixed 12} {secret blob : Bytes} {passphrase : String}
    (h : sealSecret x sc js salt nonce secret passphrase = .ok blob) :
    intoBytes sealedSecretHeaderV1 <+: blob ∧ openSecret x sc js blob passphrase = .ok secret := by
  unfold sealSecret at h
  simp only at h
  split at h
  next => cases h
  next ciphertext hencrypt =>
    cases Except.ok.inj h
    refine ⟨List.prefix_append _ _, ?_⟩
    have hheader : (10 : UInt8) ∉ intoBytes sealedSecretHeaderV1 :=
      newline_not_mem_intoBytes (by decide)
    have hmetadata : (10 : UInt8) ∉
        intoBytes (String.ofList (render js none (secretMetadata x salt nonce))) :=
      newline_not_mem_intoBytes (by
        rw [String.toList_ofList]
        exact newline_not_mem_render hjs (printable_secretMetadata salt nonce))
    have hsalt := hx.base64 salt.val
    have hnonce := hx.base64 nonce.val
    unfold openSecret
    rw [splitLine_append hheader]
    refine bind_eq_ok.mpr ⟨_, rfl, ?_⟩
    simp only [utf8Decode_intoBytes]
    refine bind_eq_ok.mpr ⟨_, rfl, bind_eq_ok.mpr ⟨(), rfl, ?_⟩⟩
    rw [splitLine_append hmetadata]
    refine bind_eq_ok.mpr ⟨_, rfl, ?_⟩
    simp only [utf8Decode_intoBytes, hjs.reads (printable_secretMetadata salt nonce)]
    refine bind_eq_ok.mpr ⟨_, rfl, bind_eq_ok.mpr ⟨_, rfl, bind_eq_ok.mpr ⟨(), rfl, ?_⟩⟩⟩
    refine bind_eq_ok.mpr ⟨salt.val, mapError_eq_ok.mpr hsalt, ?_⟩
    refine bind_eq_ok.mpr ⟨nonce.val, mapError_eq_ok.mpr hnonce, ?_⟩
    refine bind_eq_ok.mpr ⟨pbkdf2MinIterations, rfl, bind_eq_ok.mpr ⟨(), rfl,
      bind_eq_ok.mpr ⟨(), rfl, ?_⟩⟩⟩
    rw [dif_pos nonce.property]
    rw [hsc _ _ _ _ hencrypt]
    rfl

end Opening

end Sealedge
