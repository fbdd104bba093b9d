import Sealedge.Base64
import Sealedge.Storage

namespace Sealedge

open Fallible

/-- An error of the command line tool: one with its own exit code, a panic, or any other. -/
inductive CliError
  | exit (code : Nat) (message : String)
  | panicked
  | other (message : String)
  deriving DecidableEq

/-- The kinds of `serde_json::Number`. -/
inductive JsonNumber
  | posInt (n : UInt64)
  | negInt (n : Int64)
  | float (f : F64)

inductive JsonValue
  | null
  | bool (b : Bool)
  | number (n : JsonNumber)
  | string (s : String)
  | array (items : List JsonValue)
  | object (fields : List (String × JsonValue))

namespace JsonValue

/-- `Value::get` with a key; only an object has one. -/
def get (key : String) : JsonValue → Option JsonValue
  | object fields => (fields.find? (fun f => f.1 == key)).map Prod.snd
  | _ => none

def asStr : JsonValue → Option String
  | string s => some s
  | _ => none

def asU64 : JsonValue → Option UInt64
  | number (.posInt n) => some n
  | _ => none

def asArray : JsonValue → Option (List JsonValue)
  | array items => some items
  | _ => none

def getStr (key : String) (v : JsonValue) : Option String :=
  (v.get key).bind asStr

end JsonValue

/-- Outside functions of the receipt check: `serde_json` on any value and base64url without
padding. -/
structure WebCodec where
  parseValue : Bytes → Except String JsonValue
  base64UrlDecode : String → Except String Bytes

/-- `char::is_whitespace`. -/
def isWhitespace (c : Char) : Bool :=
  let n := c.toNat
  (0x09 ≤ n && n ≤ 0x0d) || n == 0x20 || n == 0x85 || n == 0xa0 || n == 0x1680 ||
    (0x2000 ≤ n && n ≤ 0x200a) || n == 0x2028 || n == 0x2029 || n == 0x202f || n == 0x205f ||
    n == 0x3000

/-- `str::trim` on the characters of a text. -/
def trimChars (cs : List Char) : List Char :=
  ((cs.dropWhile isWhitespace).reverse.dropWhile isWhitespace).reverse

theorem dropWhile_isWhitespace_eq_self {cs : List Char} (h : ∀ c ∈ cs, isWhitespace c = false) :
    cs.dropWhile isWhitespace = cs := by
  cases cs with
  | nil => rfl
  | cons c rest => simp [h c (by simp)]

theorem trimChars_eq_self {cs : List Char} (h : ∀ c ∈ cs, isWhitespace c = false) :
    trimChars cs = cs := by
  have hreverse : ∀ c ∈ cs.reverse, isWhitespace c = false := by
    intro c hc
    exact h c (List.mem_reverse.mp hc)
  rw [trimChars, dropWhile_isWhitespace_eq_self h, dropWhile_isWhitespace_eq_self hreverse,
    List.reverse_reverse]

def utf8Decode (bytes : Bytes) : Option String :=
  String.fromUTF8? ⟨bytes.toArray⟩

theorem utf8Decode_intoBytes (s : String) : utf8Decode (intoBytes s) = some s := by
  have h : (⟨(intoBytes s).toArray⟩ : ByteArray) = s.toByteArray := by
    simp [intoBytes]
  rw [utf8Decode, h, String.fromUTF8?, dif_pos s.isValidUTF8]
  rfl

theorem intoBytes_of_utf8Decode {bytes : Bytes} {s : String} (h : utf8Decode bytes = some s) :
    intoBytes s = bytes := by
  unfold utf8Decode String.fromUTF8? at h
  split at h
  next hvalid =>
    rw [← Option.some.inj h]
    rfl
  next => cases h

/-- `fs::read_to_string`. -/
def readToString (node : Node) : Except IoError String := do
  let bytes ← node.read
  match utf8Decode bytes with
  | some s => .ok s
  | none => .error (.other "stream did not contain valid UTF-8")

/-- The value, or the error that its absence raises. -/
def orFail {α : Type} (v : Option α) (message : String) : Except CliError α :=
  match v with
  | some a => .ok a
  | none => .error (.other message)

theorem orFail_eq_ok {α : Type} {v : Option α} {message : String} {a : α} :
    orFail v message = .ok a ↔ v = some a := by
  cases v <;> simp [orFail]

/-- Any error of a step that is passed on with `?`. -/
def passOn {α : Type} (m : Except String α) : Except CliError α :=
  m.mapError .other

def withContext {ε α : Type} (m : Except ε α) (context : String) : Except CliError α :=
  m.mapError (fun _ => .other context)

section Receipts

variable (x : Crates) (web : WebCodec)

/-- What a receipt attests: the device, the sequence and the tip. -/
structure WitnessedTip where
  devicePub : String
  sequence : UInt64
  tip : String
  deriving DecidableEq

/-- The first key of a key set that fits the key id of a receipt, or any key without one. -/
def selectKey (kid : Option String) (keys : List JsonValue) : Option JsonValue :=
  keys.find? (fun k => kid.isNone || k.getStr "kid" == kid)

/-- The attested fields of a decoded payload. -/
def receiptBody (payload : JsonValue) : Except CliError WitnessedTip := do
  match payload.getStr "typ" with
  | some typ =>
    failWhen (typ != "witness") (.other ("receipt 'typ' is '" ++ typ ++ "', expected 'witness'"))
  | none => pure ()
  let body := (payload.get "witness").getD payload
  let devicePub ← orFail ((body.getStr "device_pub").or (payload.getStr "sub"))
    "witness receipt missing device identity (device_pub/sub)"
  let seq ← orFail ((body.get "sequence").bind JsonValue.asU64) "witness receipt missing 'sequence'"
  let tip ← orFail (body.getStr "tip") "witness receipt missing 'tip'"
  pure ⟨devicePub, seq, tip⟩

def verifyReceiptParts (header payload signature : String) (jwksJson : String) :
    Except CliError WitnessedTip := do
  let headerBytes ← passOn (web.base64UrlDecode header)
  let headerValue ← withContext (web.parseValue headerBytes) "Failed to decode JWS header"
  let kid := headerValue.getStr "kid"
  let jwks ← withContext (web.parseValue (intoBytes jwksJson)) "Failed to parse JWKS"
  let keys ← orFail ((jwks.get "keys").bind JsonValue.asArray) "JWKS has no 'keys' array"
  let key ← orFail (selectKey kid keys) "no JWKS key matches the receipt's kid"
  let keyX ← orFail (key.getStr "x") "JWKS key missing 'x'"
  let keyBytes ← passOn (web.base64UrlDecode keyX)
  let sigBytes ← passOn (web.base64UrlDecode signature)
  let valid ← (verifyManifest x ("ed25519:" ++ x.base64Encode keyBytes)
    (intoBytes (header ++ "." ++ payload)) ("ed25519:" ++ x.base64Encode sigBytes)).mapError
    (fun e => .other e.display)
  failWhen (!valid) (.other "witness receipt signature is invalid")
  let payloadBytes ← passOn (web.base64UrlDecode payload)
  let payloadValue ← withContext (web.parseValue payloadBytes) "Failed to decode JWS payload"
  receiptBody payloadValue

/-- `verify_witness_receipt_jws`: three parts, a key of the set, its signature and the body. -/
def verifyWitnessReceiptJws (token jwksJson : String) : Except CliError WitnessedTip :=
  match ((trimChars token.toList).splitOn '.').map String.ofList with
  | [header, payload, signature] => verifyReceiptParts x web header payload signature jwksJson
  | _ => .error (.other "witness receipt is not a JWS (expected 3 dot-separated parts)")

/-- Where the key set comes from: a source text, what a fetch of it gives or reports, and the file
there. -/
structure JwksSource where
  source : String
  fetched : Except String String
  file : Node

def loadJwks : Option JwksSource → Except CliError String
  | none => .error (.other "--witness requires --witness-jwks (a URL or file path)")
  | some s =>
    if Texts.startsWith s.source "http://" || Texts.startsWith s.source "https://" then
      passOn s.fetched
    else withContext (readToString s.file) ("Failed to read JWKS file: " ++ s.source)

/-- A receipt file with its path. -/
structure ReceiptFile where
  path : String
  node : Node

def loadReceipt (receipt : ReceiptFile) (jwks : Option JwksSource) :
    Except CliError WitnessedTip := do
  let token ← withContext (readToString receipt.node)
    ("Failed to read witness receipt: " ++ receipt.path)
  let jwksJson ← loadJwks jwks
  verifyWitnessReceiptJws x web token jwksJson

end Receipts

/-- The characters of a token part: neither the separator nor blank. -/
def TokenText (s : String) : Prop :=
  ∀ c ∈ s.toList, c ≠ '.' ∧ isWhitespace c = false

theorem urlEncode_tokenText (bytes : Bytes) : TokenText (Base64.urlEncode bytes) := by
  obtain ⟨values, pad, h, hvalues, -⟩ := Base64.encodeChars_digits bytes
  have hletters : ∀ n, n < 64 → Base64.toUrl (Base64.digit n) ≠ '.' ∧
      isWhitespace (Base64.toUrl (Base64.digit n)) = false := by
    decide
  intro c hc
  rw [Base64.urlEncode_toList h hvalues] at hc
  obtain ⟨n, hn, rfl⟩ := List.mem_map.mp hc
  exact hletters n (hvalues n hn)

theorem token_parts {header payload signature : String} (hh : TokenText header)
    (hp : TokenText payload) (hs : TokenText signature) :
    ((trimChars (header ++ "." ++ payload ++ "." ++ signature).toList).splitOn '.').map
      String.ofList = [header, payload, signature] := by
  have hchars : (header ++ "." ++ payload ++ "." ++ signature).toList =
      header.toList ++ '.' :: (payload.toList ++ '.' :: signature.toList) := by
    simp
  have hblank : ∀ c ∈ header.toList ++ '.' :: (payload.toList ++ '.' :: signature.toList),
      isWhitespace c = false := by
    intro c hc
    rcases List.mem_append.mp hc with hc | hc
    · exact (hh c hc).2
    rcases List.mem_cons.mp hc with rfl | hc
    · decide
    rcases List.mem_append.mp hc with hc | hc
    · exact (hp c hc).2
    rcases List.mem_cons.mp hc with rfl | hc
    · decide
    exact (hs c hc).2
  have hdot : ∀ {s : String}, TokenText s → ∀ c ∈ s.toList, (c == '.') = false := by
    intro s hs c hc
    simpa using (hs c hc).1
  rw [hchars, trimChars_eq_self hblank, List.splitOn,
    List.splitOnP_append_cons_of_forall_mem (hdot hh) '.' (by simp),
    List.splitOnP_append_cons_of_forall_mem (hdot hp) '.' (by simp),
    List.splitOnP_eq_singleton (hdot hs)]
  simp

end Sealedge
