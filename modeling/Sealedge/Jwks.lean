import Sealedge.ManifestRoundTrip
import Sealedge.SealedSecret
import Sealedge.VerifyHandler

namespace Sealedge

open Fallible JsonValue

/-- `i64` in JSON. -/
def JsonValue.ofI64 (n : Int64) : JsonValue :=
  if 0 ≤ n.toInt then .number (.posInt (UInt64.ofNat n.toInt.toNat)) else .number (.negInt n)

namespace Jwks

/-- What the key manager runs on: outside functions, JSON texts and the kind of the build. -/
structure Host where
  crates : Crates
  secrets : SecretCrates
  json : JsonCrate
  debugAssertions : Bool

abbrev Disk := String → Node

structure KeyManager where
  keyPath : String
  passphrase : Option String
  currentKey : DeviceKeypair
  currentKid : String
  previousKey : Option DeviceKeypair
  previousKid : Option String

structure StoredKey where
  kid : String
  privateKey : String
  createdAt : String

def StoredKey.toDocument (s : StoredKey) : JsonValue :=
  .object [("kid", .string s.kid), ("private_key", .string s.privateKey),
    ("created_at", .string s.createdAt)]

def StoredKey.fromValue (v : JsonValue) : Option StoredKey := do
  let d ← v.asStruct ["kid", "private_key", "created_at"]
  pure {
    kid := ← d.required "kid" asStr
    privateKey := ← d.required "private_key" asStr
    createdAt := ← d.required "created_at" asStr }

/-- What a key generation draws: the key, its identifier, salt and nonce of the sealed file, and
the time. -/
structure KeyDraw where
  key : DeviceKeypair
  uuid : String
  salt : Fixed 32
  nonce : Fixed 12
  now : String

def KeyDraw.kid (draw : KeyDraw) : String :=
  "key_" ++ draw.uuid

/-- How a write of the published file goes wrong: it does not begin, or it breaks off. -/
inductive WriteFault
  | refused
  | breaksOff (written : Nat)

structure SaveFaults where
  keyFile : Option IoError
  jwksFile : Option WriteFault

section Manager

variable (h : Host)

/-- `sealedge_core::write_secure`: the file is replaced as a whole or not at all. -/
def writeSecure (path : String) (bytes : Bytes) (fault : Option IoError) (disk : Disk) :
    Except IoError Disk :=
  match fault with
  | some e => .error e
  | none => .ok (Function.update disk path (.file bytes))

def KeyManager.storedText (km : KeyManager) (draw : KeyDraw) : String :=
  String.ofList (render h.json none (StoredKey.toDocument
    ⟨km.currentKid, h.crates.base64Encode km.currentKey.secret, draw.now⟩))

def KeyManager.saveToFile (km : KeyManager) (draw : KeyDraw) (fault : Option IoError)
    (disk : Disk) : Except String Disk :=
  let json := intoBytes (km.storedText h draw)
  match km.passphrase with
  | some pass => do
    let blob ← (sealSecret h.crates h.secrets h.json draw.salt draw.nonce json pass).mapError
      fun e => "failed to encrypt signing key: " ++ e.display
    (writeSecure km.keyPath blob fault disk).mapError
      fun _ => "Failed to finalize signing key at " ++ km.keyPath
  | none => do
    failWhen (!h.debugAssertions) "refusing to write an unencrypted signing key in a release build"
    (writeSecure km.keyPath json fault disk).mapError
      fun _ => "Failed to finalize signing key at " ++ km.keyPath

/-- `jwks.json` in the directory of the key file. -/
def jwksPath (keyPath : String) : String :=
  String.ofList (keyPath.toList.reverse.dropWhile (· != '/')).reverse ++ "jwks.json"

def keyToJwk (key : DeviceKeypair) (kid : String) : JsonValue :=
  .object
    [("alg", .string "EdDSA"), ("crv", .string "Ed25519"), ("kid", .string kid),
     ("kty", .string "OKP"), ("use", .string "sig"),
     ("x", .string (Base64.urlEncode (h.crates.ed25519Public key.secret)))]

/-- The keys of the set: the current one and, if there is one, the previous one. -/
def KeyManager.jwkList (km : KeyManager) : List JsonValue :=
  keyToJwk h km.currentKey km.currentKid ::
    match km.previousKey, km.previousKid with
    | some prevKey, some prevKid => [keyToJwk h prevKey prevKid]
    | _, _ => []

def KeyManager.toJwks (km : KeyManager) : JsonValue :=
  .object [("keys", .array (km.jwkList h))]

/-- The text of the key set, on one line or with its lines indented. -/
def KeyManager.jwksJson (km : KeyManager) (level : Option Nat) : String :=
  String.ofList (render h.json level (km.toJwks h))

def KeyManager.writeJwksFile (km : KeyManager) (fault : Option WriteFault) (disk : Disk) :
    Except String Unit × Disk :=
  let path := jwksPath km.keyPath
  let content := intoBytes (km.jwksJson h (some 0))
  match fault with
  | none => (.ok (), Function.update disk path (.file content))
  | some .refused => (.error ("Failed to create directory for " ++ path), disk)
  | some (.breaksOff written) =>
    (.error ("Failed to write JWKS file to " ++ path),
      Function.update disk path (.file (content.take written)))

def generateNew (keyPath : String) (passphrase : Option String) (draw : KeyDraw)
    (faults : SaveFaults) (disk : Disk) : Except String KeyManager × Disk :=
  let km : KeyManager := ⟨keyPath, passphrase, draw.key, draw.kid, none, none⟩
  match km.saveToFile h draw faults.keyFile disk with
  | .error e => (.error e, disk)
  | .ok disk =>
    match km.writeJwksFile h faults.jwksFile disk with
    | (.error e, disk) => (.error e, disk)
    | (.ok (), disk) => (.ok km, disk)

/-- The stored key of a file, decrypted where it is sealed. -/
def recoverStored (keyPath : String) (passphrase : Option String) (bytes : Bytes) :
    Except String StoredKey :=
  if intoBytes sealedSecretHeaderV1 <+: bytes then
    match passphrase with
    | none =>
      .error ("key file " ++ keyPath ++ " is encrypted but JWKS_KEY_PASSPHRASE is not set")
    | some pass => do
      let plaintext ← (openSecret h.crates h.secrets h.json bytes pass).mapError
        fun e => "failed to decrypt signing key at " ++ keyPath ++ ": " ++ e.display
      ((h.json.parse plaintext).bind StoredKey.fromValue).elim
        (.error ("Failed to parse decrypted signing key from " ++ keyPath)) .ok
  else
    match passphrase with
    | some _ =>
      .error ("key file " ++ keyPath ++ " is unencrypted but a passphrase is configured; " ++
        "remove it to regenerate an encrypted key")
    | none =>
      ((h.json.parse bytes).bind StoredKey.fromValue).elim
        (.error ("Failed to parse signing key JSON from " ++ keyPath)) .ok

def loadFromFile (keyPath : String) (passphrase : Option String) (disk : Disk) :
    Except String KeyManager := do
  let bytes ← (disk keyPath).read.mapError fun _ => "Failed to read signing key from " ++ keyPath
  let stored ← recoverStored h keyPath passphrase bytes
  let seed ← h.crates.base64Decode stored.privateKey
  if hlength : seed.length = 32 then
    .ok ⟨keyPath, passphrase, ⟨seed, hlength⟩, stored.kid, none, none⟩
  else .error "Invalid private key length"

def openOrGenerate (keyPath : String) (passphrase : Option String) (draw : KeyDraw)
    (faults : SaveFaults) (disk : Disk) : Except String KeyManager × Disk :=
  if disk keyPath = .absent then generateNew h keyPath passphrase draw faults disk
  else (loadFromFile h keyPath passphrase disk, disk)

/-- `rotate_key`: the manager has the new key even where a file could not be written. -/
def KeyManager.rotateKey (km : KeyManager) (draw : KeyDraw) (faults : SaveFaults) (disk : Disk) :
    Except String Unit × KeyManager × Disk :=
  let km' : KeyManager :=
    { km with
      previousKey := some km.currentKey
      previousKid := some km.currentKid
      currentKey := draw.key
      currentKid := draw.kid }
  match km'.saveToFile h draw faults.keyFile disk with
  | .error e => (.error e, km', disk)
  | .ok disk =>
    let (result, disk) := km'.writeJwksFile h faults.jwksFile disk
    (result, km', disk)

end Manager

section Signing

variable (h : Host)

/-- The header that `jsonwebtoken` writes. -/
def jwtHeader (kid : String) : JsonValue :=
  .object [("typ", .string "JWT"), ("alg", .string "EdDSA"), ("kid", .string kid)]

/-- `jsonwebtoken::encode` with an Ed25519 key, the compact form of a token: header and payload as
JSON without blanks in base64url without padding, and the signature over both texts. -/
def encodeJws (header payload : JsonValue) (key : DeviceKeypair) : String :=
  let part := fun v => Base64.urlEncode (intoBytes (String.ofList (render h.json none v)))
  let input := part header ++ "." ++ part payload
  input ++ "." ++ Base64.urlEncode (h.crates.ed25519Sign key.secret (intoBytes input))

def witnessDocument (r : WitnessReceipt) : JsonValue :=
  fieldsOf
    [("device_pub", some (.string r.devicePub)),
     ("device_registered", some (.bool r.deviceRegistered)),
     ("sequence", some (ofU64 r.sequence)), ("tip", some (.string r.tip)),
     ("observed_at", some (.string r.observedAt)), ("prev_sequence", r.prevSequence.map ofU64),
     ("prev_tip", r.prevTip.map .string), ("prev_observed_at", r.prevObservedAt.map .string),
     ("jti", some (.string r.jti))]

def witnessPayload (r : WitnessReceipt) (now : Int64) : JsonValue :=
  .object
    [("iss", .string "sealedge-verify-service"), ("sub", .string r.devicePub),
     ("typ", .string "witness"), ("iat", ofI64 now), ("witness", witnessDocument r)]

def resultDocument (r : VerificationResult) : JsonValue :=
  .object [("passed", .bool r.passed), ("error", (r.error.map .string).getD .null)]

def reportDocument (r : VerifyReport) : JsonValue :=
  .object
    [("signature_verification", resultDocument r.signatureVerification),
     ("continuity_verification", resultDocument r.continuityVerification),
     ("metadata", .object
       [("total_segments", ofU64 r.metadata.totalSegments.toUInt64),
        ("verified_segments", ofU64 r.metadata.verifiedSegments.toUInt64),
        ("chain_tip", .string r.metadata.chainTip),
        ("genesis_hash", .string r.metadata.genesisHash)])]

def claimsDocument (c : ReceiptClaims) : JsonValue :=
  .object
    [("verification_id", .string c.verificationId), ("signer_pub", .string c.signerPub),
     ("device_id", .string c.deviceId), ("device_registered", .bool c.deviceRegistered),
     ("manifest_digest", .string c.manifestDigest), ("chain_tip", .string c.chainTip),
     ("timestamp", .string c.timestamp), ("kid", .string c.kid),
     ("result", reportDocument c.result)]

def receiptPayload (c : ReceiptClaims) (now : Int64) (ttlSecs : UInt64) : JsonValue :=
  .object
    [("iss", .string "sealedge-verify-service"), ("sub", .string c.signerPub), ("iat", ofI64 now),
     ("exp", ofI64 (now + ttlSecs.toInt64)), ("receipt", claimsDocument c)]

def signWitnessJws (r : WitnessReceipt) (now : Int64) (km : KeyManager) : String :=
  encodeJws h (jwtHeader km.currentKid) (witnessPayload r now) km.currentKey

def signReceiptJws (c : ReceiptClaims) (now : Int64) (ttlSecs : UInt64) (km : KeyManager) :
    String :=
  encodeJws h (jwtHeader km.currentKid) (receiptPayload c now ttlSecs) km.currentKey

end Signing

section Checking

variable (x : Crates) (web : WebCodec)

/-- The check of a token by its `kid` that `verify_witness_receipt_jws` makes before it looks into
the payload. -/
def verifyJwsParts (header payload signature : String) (jwksJson : String) :
    Except CliError JsonValue := do
  let headerBytes ← passOn (web.base64UrlDecode header)
  let headerValue ← withContext (web.parseValue headerBytes) "Failed to decode JWS header"
  let kid := headerValue.getStr "kid"
  let jwks ← withContext (web.parseValue (intoBytes jwksJson)) "Failed to parse JWKS"
  let keys ← orFail ((jwks.get "keys").bind JsonValue.asArray) "JWKS has no 'keys' array"
  let key ← orFail (selectKey kid keys) "no JWKS key matches the receipt's kid"
  let keyX ← orFail (key.getStr "x") "JWKS key missing 'x'"
  let keyBytes ← passOn (web.base64UrlDecode keyX)
  let sigBytes ← passOn (web.base64UrlDecode signature)
  let valid ← (verifyManifest x ("ed25519:" ++ x.base64Encode keyBytes)
    (intoBytes (header ++ "." ++ payload)) ("ed25519:" ++ x.base64Encode sigBytes)).mapError
    (fun e => .other e.display)
  failWhen (!valid) (.other "witness receipt signature is invalid")
  let payloadBytes ← passOn (web.base64UrlDecode payload)
  withContext (web.parseValue payloadBytes) "Failed to decode JWS payload"

def verifyJws (token jwksJson : String) : Except CliError JsonValue :=
  match ((trimChars token.toList).splitOn '.').map String.ofList with
  | [header, payload, signature] => verifyJwsParts x web header payload signature jwksJson
  | _ => .error (.other "witness receipt is not a JWS (expected 3 dot-separated parts)")

theorem verifyWitnessReceiptJws_eq (token jwksJson : String) :
    verifyWitnessReceiptJws x web token jwksJson =
      verifyJws x web token jwksJson >>= receiptBody := by
  unfold verifyWitnessReceiptJws verifyJws
  generalize ((trimChars token.toList).splitOn '.').map String.ofList = parts
  rcases parts with _ | ⟨header, _ | ⟨payload, _ | ⟨signature, _ | ⟨_, _⟩⟩⟩⟩
  case cons.cons.cons.nil => simp only [verifyReceiptParts, verifyJwsParts, bind_assoc]
  all_goals rfl

/-- The codec of the check: JSON texts and base64url. -/
def serdeWeb (js : JsonCrate) : WebCodec where
  parseValue bytes := (js.parse bytes).elim (.error "expected value at line 1 column 1") .ok
  base64UrlDecode s := (Base64.urlDecode s).elim (.error "Invalid symbol") .ok

end Checking

section Documents

variable {depth : Nat}

theorem printable_ofI64 (n : Int64) : Printable depth (ofI64 n) := by
  unfold ofI64
  split
  next => exact .posInt _
  next h => exact .negInt n (by omega)

theorem printable_keyToJwk (h : Host) (key : DeviceKeypair) (kid : String) :
    Printable (depth + 1) (keyToJwk h key kid) := by
  refine .object _ ?_
  simp [Printable.string]

theorem printable_toJwks (h : Host) (km : KeyManager) :
    Printable (depth + 3) (km.toJwks h) := by
  have hkeys : ∀ v ∈ km.jwkList h, Printable (depth + 1) v := by
    intro v hv
    unfold KeyManager.jwkList at hv
    rcases List.mem_cons.mp hv with rfl | hv
    · exact printable_keyToJwk h _ _
    split at hv
    next prevKey prevKid _ _ =>
      cases List.mem_singleton.mp hv
      exact printable_keyToJwk h _ _
    next => cases hv
  refine .object _ ?_
  simpa using Printable.array _ hkeys

theorem printable_jwtHeader (kid : String) : Printable (depth + 1) (jwtHeader kid) := by
  refine .object _ ?_
  simp [Printable.string]

theorem printable_witnessPayload (r : WitnessReceipt) (now : Int64) :
    Printable (depth + 2) (witnessPayload r now) := by
  have hbody : Printable (depth + 1) (witnessDocument r) :=
    printable_fieldsOf (by simp [Printable.string, Printable.bool, ofU64, Printable.posInt])
  refine .object _ ?_
  simp [Printable.string, printable_ofI64, hbody]

theorem printable_receiptPayload (c : ReceiptClaims) (now : Int64) (ttlSecs : UInt64) :
    Printable (depth + 4) (receiptPayload c now ttlSecs) := by
  have hresult : ∀ r, Printable (depth + 1) (resultDocument r) := by
    intro r
    refine .object _ ?_
    cases r.error <;> simp [Printable.bool, Printable.string, Printable.null]
  have hmetadata : ∀ m : VerificationMetadata, Printable (depth + 1) (.object
      [("total_segments", ofU64 m.totalSegments.toUInt64),
       ("verified_segments", ofU64 m.verifiedSegments.toUInt64),
       ("chain_tip", .string m.chainTip), ("genesis_hash", .string m.genesisHash)]) := by
    intro m
    refine .object _ ?_
    simp [Printable.string, ofU64, Printable.posInt]
  have hreport : Printable (depth + 2) (reportDocument c.result) := by
    refine .object _ ?_
    simp [hresult, hmetadata]
  have hclaims : Printable (depth + 3) (claimsDocument c) := by
    refine .object _ ?_
    simp [Printable.string, Printable.bool, hreport]
  refine .object _ ?_
  simp [Printable.string, printable_ofI64, hclaims]

theorem receiptBody_witnessPayload (r : WitnessReceipt) (now : Int64) :
    receiptBody (witnessPayload r now) = .ok ⟨r.devicePub, r.sequence, r.tip⟩ := by
  rfl

end Documents

section Tokens

variable {h : Host} {kid : String} {key : DeviceKeypair} {payload jwk : JsonValue}
  {keys : List JsonValue}

theorem serdeWeb_decode (js : JsonCrate) (bytes : Bytes) :
    (serdeWeb js).base64UrlDecode (Base64.urlEncode bytes) = .ok bytes := by
  simp [serdeWeb, Base64.urlDecode_urlEncode]

theorem serdeWeb_parse {js : JsonCrate} (hjs : js.Lossless) {v : JsonValue}
    (hv : Printable maxNesting v) (level : Option Nat) :
    (serdeWeb js).parseValue (intoBytes (String.ofList (render js level v))) = .ok v := by
  simp [serdeWeb, hjs.reads hv]

/-- The text of a key set. -/
def keySetText (js : JsonCrate) (level : Option Nat) (keys : List JsonValue) : String :=
  String.ofList (render js level (.object [("keys", .array keys)]))

theorem verifyJws_encodeJws (hx : h.crates.SignsLawfully) (hjs : h.json.Lossless)
    (hpayload : Printable maxNesting payload)
    (hkeys : Printable maxNesting (.object [("keys", .array keys)]))
    (hselect : selectKey (some kid) keys = some jwk)
    (hjwk : jwk.getStr "x" = some (Base64.urlEncode (h.crates.ed25519Public key.secret)))
    (level : Option Nat) :
    verifyJws h.crates (serdeWeb h.json) (encodeJws h (jwtHeader kid) payload key)
      (keySetText h.json level keys) = .ok payload := by
  unfold verifyJws encodeJws
  simp only
  rw [token_parts (urlEncode_tokenText _) (urlEncode_tokenText _) (urlEncode_tokenText _)]
  simp only [verifyJwsParts, serdeWeb_decode]
  refine bind_eq_ok.mpr ⟨_, rfl, bind_eq_ok.mpr
    ⟨jwtHeader kid, mapError_eq_ok.mpr (serdeWeb_parse hjs (printable_jwtHeader kid) none), ?_⟩⟩
  refine bind_eq_ok.mpr ⟨_, mapError_eq_ok.mpr (serdeWeb_parse hjs hkeys level), ?_⟩
  have hkid : (jwtHeader kid).getStr "kid" = some kid := rfl
  refine bind_eq_ok.mpr ⟨keys, rfl, ?_⟩
  rw [hkid, hselect]
  refine bind_eq_ok.mpr ⟨jwk, rfl, ?_⟩
  rw [hjwk]
  refine bind_eq_ok.mpr ⟨_, rfl, ?_⟩
  rw [serdeWeb_decode]
  refine bind_eq_ok.mpr ⟨_, rfl, bind_eq_ok.mpr ⟨_, rfl, ?_⟩⟩
  refine bind_eq_ok.mpr ⟨true, mapError_eq_ok.mpr (verifyManifest_signManifest hx key _), ?_⟩
  refine bind_eq_ok.mpr ⟨(), rfl, ?_⟩
  exact bind_eq_ok.mpr ⟨_, rfl, mapError_eq_ok.mpr (serdeWeb_parse hjs hpayload none)⟩

theorem verifyJws_unknown_kid (payload : JsonValue) (key : DeviceKeypair) (hjs : h.json.Lossless)
    (hkeys : Printable maxNesting (.object [("keys", .array keys)]))
    (hselect : selectKey (some kid) keys = none) (level : Option Nat) :
    verifyJws h.crates (serdeWeb h.json) (encodeJws h (jwtHeader kid) payload key)
      (keySetText h.json level keys) =
        .error (.other "no JWKS key matches the receipt's kid") := by
  unfold verifyJws encodeJws
  simp only
  rw [token_parts (urlEncode_tokenText _) (urlEncode_tokenText _) (urlEncode_tokenText _)]
  have hkid : (jwtHeader kid).getStr "kid" = some kid := rfl
  have hget : ((JsonValue.object [("keys", .array keys)]).get "keys").bind asArray = some keys :=
    rfl
  simp only [verifyJwsParts, serdeWeb_decode, serdeWeb_parse hjs (printable_jwtHeader kid),
    keySetText, serdeWeb_parse hjs hkeys, passOn, withContext, Except.mapError, hkid, hget, orFail,
    hselect, bind, Except.bind]

end Tokens

section Saving

variable {h : Host} {km : KeyManager} {draw : KeyDraw}

theorem StoredKey.fromValue_toDocument (s : StoredKey) :
    StoredKey.fromValue s.toDocument = some s := by
  rfl

theorem StoredKey.printable_toDocument (s : StoredKey) :
    Printable maxNesting s.toDocument := by
  refine .object _ ?_
  simp [Printable.string]

theorem parse_storedText (km : KeyManager) (draw : KeyDraw) (hjs : h.json.Lossless) :
    (h.json.parse (intoBytes (km.storedText h draw))).bind StoredKey.fromValue =
      some ⟨km.currentKid, h.crates.base64Encode km.currentKey.secret, draw.now⟩ := by
  unfold KeyManager.storedText
  rw [hjs.reads (StoredKey.printable_toDocument _), Option.bind_some,
    StoredKey.fromValue_toDocument]

theorem storedText_not_sealed :
    ¬ intoBytes sealedSecretHeaderV1 <+: intoBytes (km.storedText h draw) := by
  obtain ⟨rest, hrest⟩ : ∃ rest, intoBytes (km.storedText h draw) = 123 :: rest := by
    rw [intoBytes_eq_flatMap, KeyManager.storedText, String.toList_ofList]
    exact ⟨_, rfl⟩
  obtain ⟨tail, htail⟩ : ∃ tail, intoBytes sealedSecretHeaderV1 = 83 :: tail := by
    rw [intoBytes_eq_flatMap]
    exact ⟨_, rfl⟩
  rw [hrest, htail, List.cons_prefix_cons]
  rintro ⟨hbyte, -⟩
  exact absurd hbyte (by decide)

theorem writeSecure_eq_ok {path : String} {bytes : Bytes} {fault : Option IoError}
    {disk disk' : Disk} (hw : writeSecure path bytes fault disk = .ok disk') :
    disk' = Function.update disk path (.file bytes) := by
  cases fault with
  | some e => cases hw
  | none => exact (Except.ok.inj hw).symm

/-- The manager that the key file of a manager gives: without a previous key. -/
def KeyManager.reloaded (km : KeyManager) : KeyManager :=
  { km with previousKey := none, previousKid := none }

theorem loadFromFile_of_recovered (hx : h.crates.SignsLawfully) {disk : Disk} {bytes : Bytes}
    (hrecover : recoverStored h km.keyPath km.passphrase bytes =
      .ok ⟨km.currentKid, h.crates.base64Encode km.currentKey.secret, draw.now⟩) :
    loadFromFile h km.keyPath km.passphrase (Function.update disk km.keyPath (.file bytes)) =
      .ok km.reloaded := by
  unfold loadFromFile
  rw [Function.update_self]
  refine bind_eq_ok.mpr ⟨bytes, rfl, bind_eq_ok.mpr ⟨_, hrecover, bind_eq_ok.mpr
    ⟨_, hx.base64 _, ?_⟩⟩⟩
  exact dif_pos km.currentKey.secretLength

theorem loadFromFile_saveToFile (hx : h.crates.SignsLawfully) (hsc : h.secrets.Opens)
    (hjs : h.json.Lossless) {fault : Option IoError} {disk disk' : Disk}
    (hsave : km.saveToFile h draw fault disk = .ok disk') :
    (∃ bytes, disk' = Function.update disk km.keyPath (.file bytes)) ∧
      loadFromFile h km.keyPath km.passphrase disk' = .ok km.reloaded := by
  have hstored := parse_storedText km draw hjs
  unfold KeyManager.saveToFile at hsave
  simp only at hsave
  split at hsave
  next pass hpass =>
    obtain ⟨blob, hseal, hwrite⟩ := bind_eq_ok.mp hsave
    obtain ⟨hheader, hopen⟩ := openSecret_sealSecret hx hsc hjs (mapError_eq_ok.mp hseal)
    have hdisk := writeSecure_eq_ok (mapError_eq_ok.mp hwrite)
    have hrecover : recoverStored h km.keyPath km.passphrase blob =
        .ok ⟨km.currentKid, h.crates.base64Encode km.currentKey.secret, draw.now⟩ := by
      unfold recoverStored
      rw [if_pos hheader, hpass]
      refine bind_eq_ok.mpr ⟨_, mapError_eq_ok.mpr hopen, ?_⟩
      rw [hstored]
      rfl
    rw [hdisk]
    exact ⟨⟨blob, rfl⟩, loadFromFile_of_recovered hx hrecover⟩
  next hpass =>
    obtain ⟨_, -, hwrite⟩ := bind_eq_ok.mp hsave
    have hdisk := writeSecure_eq_ok (mapError_eq_ok.mp hwrite)
    have hrecover : recoverStored h km.keyPath km.passphrase
        (intoBytes (km.storedText h draw)) =
        .ok ⟨km.currentKid, h.crates.base64Encode km.currentKey.secret, draw.now⟩ := by
      unfold recoverStored
      rw [if_neg storedText_not_sealed, hpass]
      simp only [hstored, Option.elim_some]
    rw [hdisk]
    exact ⟨⟨_, rfl⟩, loadFromFile_of_recovered hx hrecover⟩

/-- The key file is not touched by a write of the published file beside it. -/
theorem writeJwksFile_keyFile (km : KeyManager) (fault : Option WriteFault) (disk : Disk)
    (hpath : jwksPath km.keyPath ≠ km.keyPath) :
    (km.writeJwksFile h fault disk).2 km.keyPath = disk km.keyPath := by
  unfold KeyManager.writeJwksFile
  cases fault with
  | none => exact Function.update_of_ne hpath.symm _ _
  | some fault =>
    cases fault with
    | refused => rfl
    | breaksOff written => exact Function.update_of_ne hpath.symm _ _

theorem loadFromFile_congr {path : String} {passphrase : Option String} {disk disk' : Disk}
    (hfile : disk' path = disk path) :
    loadFromFile h path passphrase disk' = loadFromFile h path passphrase disk := by
  unfold loadFromFile
  rw [hfile]

end Saving

end Jwks

end Sealedge
