import Sealedge.ContentCrypto
import Sealedge.ManifestRoundTrip
import Sealedge.SealedSecret
import Mathlib.Data.List.TakeWhile

namespace Sealedge

open Fallible JsonValue

section Secrets

variable (x : Crates)

def DeviceKeypair.exportSecret (k : DeviceKeypair) : String :=
  "ed25519:" ++ x.base64Encode k.secret

/-- `DeviceKeypair::import_secret`: base64 behind its algorithm, or 64 hexadecimal digits. -/
def DeviceKeypair.importSecret (secretStr : String) : Except CryptoError DeviceKeypair := do
  let secretBytes ←
    match Texts.stripPrefix "ed25519:" secretStr with
    | some b64 =>
      (x.base64Decode b64).mapError fun e => .invalidKeyFormat ("Invalid base64: " ++ e)
    | none =>
      if secretStr.utf8ByteSize = 64 then orInvalid (Numerals.hexDecode secretStr) "Invalid hex"
      else .error (.invalidKeyFormat "Must be ed25519:BASE64 or 64-char hex")
  if h : secretBytes.length = 32 then .ok ⟨secretBytes, h⟩
  else .error (.invalidKeyFormat "Secret key must be 32 bytes")

def KeyAgreementKeypair.exportSecret (k : KeyAgreementKeypair) : String :=
  "x25519:" ++ x.base64Encode k.secret

theorem parseX25519Bytes_length {x : Crates} {value : String} {bytes : Bytes}
    (h : parseX25519Bytes x value = .ok bytes) : bytes.length = 32 := by
  unfold parseX25519Bytes at h
  split at h
  next => cases h
  next =>
    obtain ⟨decoded, -, h⟩ := bind_eq_ok.mp h
    obtain ⟨_, hlength, h⟩ := bind_eq_ok.mp h
    cases Except.ok.inj h
    simpa using failWhen_eq_ok.mp hlength

/-- `KeyAgreementKeypair::import_secret`. -/
def KeyAgreementKeypair.importSecret (secretStr : String) :
    Except CryptoError KeyAgreementKeypair :=
  match h : parseX25519Bytes x secretStr with
  | .error e => .error e
  | .ok secret => .ok ⟨secret, parseX25519Bytes_length h⟩

end Secrets

section Plaintext

/-- `BundleSecrets`. -/
structure BundleSecrets where
  version : Nat
  ed25519Secret : String
  x25519Secret : String

def BundleSecrets.toDocument (s : BundleSecrets) : JsonValue :=
  .object [("version", ofU64 (UInt64.ofNat s.version)), ("ed25519_secret", .string s.ed25519Secret),
    ("x25519_secret", .string s.x25519Secret)]

/-- The version is a `u8`. -/
def BundleSecrets.fromValue (v : JsonValue) : Option BundleSecrets := do
  let d ← v.asStruct ["version", "ed25519_secret", "x25519_secret"]
  pure {
    version := ← d.required "version" (asBelow 256)
    ed25519Secret := ← d.required "ed25519_secret" asStr
    x25519Secret := ← d.required "x25519_secret" asStr }

variable (x : Crates) (c : ContentCrates) (js : JsonCrate)

/-- Both public keys, one on each line. -/
def DeviceBundle.publicLines (b : DeviceBundle) : String :=
  b.signing.public x ++ "\n" ++ b.keyAgreement.publicString x c ++ "\n"

def DeviceBundle.secrets (b : DeviceBundle) : BundleSecrets :=
  ⟨2, b.signing.exportSecret x, b.keyAgreement.exportSecret x⟩

def DeviceBundle.toPlaintext (b : DeviceBundle) : String :=
  String.ofList (render js none (b.secrets x).toDocument)

def DeviceBundle.fromPlaintext (s : String) : Except CryptoError DeviceBundle := do
  let secrets ← orInvalid ((js.parse (intoBytes s)).bind BundleSecrets.fromValue)
    "Invalid bundle JSON"
  failWhen (secrets.version != 2) (.invalidKeyFormat
    ("Unsupported bundle version " ++ secrets.version.repr ++ " (expected 2)"))
  let signing ← DeviceKeypair.importSecret x secrets.ed25519Secret
  let keyAgreement ← KeyAgreementKeypair.importSecret x secrets.x25519Secret
  pure ⟨signing, keyAgreement⟩

end Plaintext

section Encrypted

/-- What tells the two kinds of encrypted key files apart: the header, the version in the metadata,
how a missing field is read, and what the messages say. -/
structure KeyLayout where
  header : String
  version : UInt64
  field : JsonValue → String → Except CryptoError String
  subject : String
  corrupted : String

/-- The files of `DeviceKeypair`. -/
def keyLayoutV1 : KeyLayout where
  header := "SEALEDGE-KEY-V1"
  version := 1
  field metadata name := orInvalid (metadata.getStr name) ("Missing " ++ name)
  subject := "Key file"
  corrupted := "Wrong passphrase or corrupted key file"

/-- The files of `DeviceBundle`; a missing field is an empty text. -/
def keyLayoutV2 : KeyLayout where
  header := "SEALEDGE-KEY-V2"
  version := 2
  field metadata name := .ok ((metadata.getStr name).getD "")
  subject := "Bundle"
  corrupted := "Wrong passphrase or corrupted bundle"

variable (x : Crates) (sc : SecretCrates) (js : JsonCrate)

/-- The metadata of a key file, sorted by name. -/
def KeyLayout.metadata (l : KeyLayout) (salt : Fixed 32) (nonce : Fixed 12) : JsonValue :=
  .object
    [("iterations", .number (.posInt pbkdf2MinIterations)),
     ("nonce", .string (x.base64Encode nonce.val)), ("salt", .string (x.base64Encode salt.val)),
     ("version", .number (.posInt l.version))]

/-- A header line, a metadata line and the ciphertext. -/
def KeyLayout.seal (l : KeyLayout) (salt : Fixed 32) (nonce : Fixed 12) (secret : Bytes)
    (passphrase : String) : Except CryptoError Bytes :=
  let derivedKey :=
    sc.pbkdf2HmacSha256 (intoBytes passphrase) salt.val pbkdf2MinIterations.toNat
  match sc.aes256GcmEncrypt derivedKey nonce secret with
  | none => .error (.encryptionFailed "AES-GCM encrypt: aead::Error")
  | some ciphertext =>
    .ok (intoBytes l.header ++ 10 ::
      (intoBytes (String.ofList (render js none (l.metadata x salt nonce))) ++ 10 :: ciphertext))

/-- The version in the metadata is not looked at. -/
def KeyLayout.unseal (l : KeyLayout) (data : Bytes) (passphrase : String) :
    Except CryptoError Bytes := do
  let (line, data) ← orInvalid (splitLine data) "Missing header line"
  let header ← orInvalid (utf8Decode line) "Invalid UTF-8 header"
  failWhen (header != l.header)
    (.invalidKeyFormat ("Expected header '" ++ l.header ++ "', got '" ++ header ++ "'"))
  let (line, ciphertext) ← orInvalid (splitLine data) "Missing metadata line"
  let _ ← orInvalid (utf8Decode line) "Invalid UTF-8 metadata"
  let metadata ← orInvalid (js.parse line) "Invalid JSON metadata"
  let saltText ← l.field metadata "salt"
  let salt ← (x.base64Decode saltText).mapError
    fun e => .invalidKeyFormat ("Invalid salt base64: " ++ e)
  let nonceText ← l.field metadata "nonce"
  let nonce ← (x.base64Decode nonceText).mapError
    fun e => .invalidKeyFormat ("Invalid nonce base64: " ++ e)
  let iterations ← orInvalid ((metadata.get "iterations").bind JsonValue.asU64)
    "Missing iterations"
  failWhen (decide (iterations < pbkdf2MinIterations)) (.invalidKeyFormat
    (l.subject ++ " uses " ++ iterations.toNat.repr ++ " PBKDF2 iterations, minimum is " ++
      pbkdf2MinIterations.toNat.repr))
  failWhen (decide (pbkdf2MaxIterations < iterations)) (.invalidKeyFormat
    (l.subject ++ " uses " ++ iterations.toNat.repr ++ " PBKDF2 iterations, maximum is " ++
      pbkdf2MaxIterations.toNat.repr))
  if h : nonce.length = 12 then
    let derivedKey := sc.pbkdf2HmacSha256 (intoBytes passphrase) salt iterations.toNat
    (sc.aes256GcmDecrypt derivedKey ⟨nonce, h⟩ ciphertext).elim
      (.error (.decryptionFailed l.corrupted)) .ok
  else .error (.invalidKeyFormat "Nonce must be 12 bytes")

def DeviceKeypair.importSecretEncrypted (data : Bytes) (passphrase : String) :
    Except CryptoError DeviceKeypair := do
  let plaintext ← keyLayoutV1.unseal x sc js data passphrase
  if h : plaintext.length = 32 then .ok ⟨plaintext, h⟩
  else .error (.invalidKeyFormat "Decrypted key must be 32 bytes")

def DeviceBundle.exportEncrypted (b : DeviceBundle) (salt : Fixed 32) (nonce : Fixed 12)
    (passphrase : String) : Except CryptoError Bytes :=
  keyLayoutV2.seal x sc js salt nonce (intoBytes (b.toPlaintext x js)) passphrase

def DeviceBundle.importEncrypted (data : Bytes) (passphrase : String) :
    Except CryptoError DeviceBundle := do
  let plaintext ← keyLayoutV2.unseal x sc js data passphrase
  let text ← (utf8Decode plaintext).elim
    (.error (.decryptionFailed "Bundle plaintext not UTF-8")) .ok
  DeviceBundle.fromPlaintext x js text

/-- `is_encrypted_key_file`. -/
def isEncryptedKeyFile (data : Bytes) : Bool :=
  decide (intoBytes "SEALEDGE-KEY-V1\n" <+: data)

end Encrypted

section Reading

variable {x : Crates} {sc : SecretCrates} {js : JsonCrate}

theorem DeviceKeypair.importSecret_exportSecret (hx : x.SignsLawfully) (k : DeviceKeypair) :
    DeviceKeypair.importSecret x (k.exportSecret x) = .ok k := by
  unfold DeviceKeypair.importSecret DeviceKeypair.exportSecret
  rw [Texts.stripPrefix_append]
  refine bind_eq_ok.mpr ⟨k.secret, mapError_eq_ok.mpr (hx.base64 _), ?_⟩
  exact dif_pos k.secretLength

theorem KeyAgreementKeypair.importSecret_eq_ok {s : String} {k : KeyAgreementKeypair} :
    KeyAgreementKeypair.importSecret x s = .ok k ↔ parseX25519Bytes x s = .ok k.secret := by
  unfold KeyAgreementKeypair.importSecret
  obtain ⟨secret, hlength⟩ := k
  split
  next e he => simp [he]
  next bytes hbytes => simp [hbytes]

theorem KeyAgreementKeypair.importSecret_exportSecret (hx : x.SignsLawfully)
    (k : KeyAgreementKeypair) : KeyAgreementKeypair.importSecret x (k.exportSecret x) = .ok k := by
  rw [KeyAgreementKeypair.importSecret_eq_ok]
  unfold parseX25519Bytes KeyAgreementKeypair.exportSecret
  rw [Texts.stripPrefix_append]
  refine bind_eq_ok.mpr ⟨k.secret, mapError_eq_ok.mpr (hx.base64 _), ?_⟩
  refine bind_eq_ok.mpr ⟨(), failWhen_eq_ok.mpr ?_, rfl⟩
  simp [k.secretLength]

theorem BundleSecrets.fromValue_toDocument {s : BundleSecrets} (h : s.version < 256) :
    BundleSecrets.fromValue s.toDocument = some s := by
  have hversion : (ofU64 (UInt64.ofNat s.version)).asBelow 256 = some s.version := by
    have hnat : (UInt64.ofNat s.version).toNat = s.version := by
      rw [UInt64.toNat_ofNat', Nat.mod_eq_of_lt (by omega)]
    rw [asBelow_ofU64 (by omega), hnat]
  simp [BundleSecrets.fromValue, BundleSecrets.toDocument, JsonValue.asStruct, StructDoc.required,
    hversion, asStr]

theorem printable_bundleSecrets (s : BundleSecrets) : Printable maxNesting s.toDocument := by
  refine .object _ ?_
  simp [Printable.posInt, Printable.string, ofU64]

theorem DeviceBundle.fromPlaintext_toPlaintext (hx : x.SignsLawfully) (hjs : js.Lossless)
    (b : DeviceBundle) : DeviceBundle.fromPlaintext x js (b.toPlaintext x js) = .ok b := by
  unfold DeviceBundle.fromPlaintext DeviceBundle.toPlaintext
  rw [hjs.reads (printable_bundleSecrets _), Option.bind_some,
    BundleSecrets.fromValue_toDocument (show 2 < 256 by decide)]
  refine bind_eq_ok.mpr ⟨_, rfl, bind_eq_ok.mpr ⟨(), rfl, ?_⟩⟩
  refine bind_eq_ok.mpr ⟨_, DeviceKeypair.importSecret_exportSecret hx _, ?_⟩
  exact bind_eq_ok.mpr ⟨_, KeyAgreementKeypair.importSecret_exportSecret hx _, rfl⟩

theorem splitLine_eq_some {data line rest : Bytes} :
    splitLine data = some (line, rest) ↔ data = line ++ 10 :: rest ∧ (10 : UInt8) ∉ line := by
  constructor
  · intro h
    unfold splitLine at h
    split at h
    next b tail hdrop =>
      obtain ⟨rfl, rfl⟩ := Prod.mk.inj (Option.some.inj h)
      have hb : (b != 10) = false := by
        have hhead := List.head?_dropWhile_not (fun b : UInt8 => b != 10) data
        rw [hdrop] at hhead
        simpa using hhead
      have hb : b = 10 := by simpa using hb
      subst hb
      refine ⟨?_, fun hmem => ?_⟩
      · rw [← hdrop, List.takeWhile_append_dropWhile]
      · have := List.mem_takeWhile_imp hmem
        simp at this
    next => cases h
  · rintro ⟨rfl, hline⟩
    exact splitLine_append hline

/-- What a key file consists of. -/
structure KeyParts where
  line : Bytes
  ciphertext : Bytes
  metadata : JsonValue
  saltText : String
  nonceText : String
  salt : Bytes
  nonce : Fixed 12
  iterations : UInt64

/-- An opened key file is a header line, a metadata line with an iteration count within the bounds,
and a ciphertext that the key of the passphrase authenticates. -/
structure KeyLayout.Opened (l : KeyLayout) (x : Crates) (sc : SecretCrates) (js : JsonCrate)
    (data : Bytes) (passphrase : String) (plaintext : Bytes) (p : KeyParts) : Prop where
  layout : data = intoBytes l.header ++ 10 :: (p.line ++ 10 :: p.ciphertext)
  oneLine : (10 : UInt8) ∉ p.line
  text : ∃ s, intoBytes s = p.line
  json : js.parse p.line = some p.metadata
  saltField : l.field p.metadata "salt" = .ok p.saltText
  salt : x.base64Decode p.saltText = .ok p.salt
  nonceField : l.field p.metadata "nonce" = .ok p.nonceText
  nonce : x.base64Decode p.nonceText = .ok p.nonce.val
  stretched : (p.metadata.get "iterations").bind JsonValue.asU64 = some p.iterations
  enough : pbkdf2MinIterations ≤ p.iterations
  bounded : p.iterations ≤ pbkdf2MaxIterations
  opens : sc.aes256GcmDecrypt (sc.pbkdf2HmacSha256 (intoBytes passphrase) p.salt
    p.iterations.toNat) p.nonce p.ciphertext = some plaintext

theorem orInvalid_eq_ok {α : Type} {v : Option α} {reason : String} {a : α} :
    orInvalid v reason = .ok a ↔ v = some a :=
  elim_eq_ok

theorem KeyLayout.unseal_eq_ok {l : KeyLayout} (hheader : '\n' ∉ l.header.toList) {data : Bytes}
    {passphrase : String} {plaintext : Bytes} :
    l.unseal x sc js data passphrase = .ok plaintext ↔
      ∃ p, l.Opened x sc js data passphrase plaintext p := by
  unfold KeyLayout.unseal
  constructor
  · intro h
    obtain ⟨⟨first, tail⟩, hfirst, h⟩ := bind_eq_ok.mp h
    obtain ⟨header, hdecode, h⟩ := bind_eq_ok.mp h
    obtain ⟨_, hsame, h⟩ := bind_eq_ok.mp h
    obtain ⟨⟨line, ciphertext⟩, hsecond, h⟩ := bind_eq_ok.mp h
    obtain ⟨text, htext, h⟩ := bind_eq_ok.mp h
    obtain ⟨metadata, hjson, h⟩ := bind_eq_ok.mp h
    obtain ⟨saltText, hsaltField, h⟩ := bind_eq_ok.mp h
    obtain ⟨salt, hsalt, h⟩ := bind_eq_ok.mp h
    obtain ⟨nonceText, hnonceField, h⟩ := bind_eq_ok.mp h
    obtain ⟨nonce, hnonce, h⟩ := bind_eq_ok.mp h
    obtain ⟨iterations, hiterations, h⟩ := bind_eq_ok.mp h
    obtain ⟨_, henough, h⟩ := bind_eq_ok.mp h
    obtain ⟨_, hbounded, h⟩ := bind_eq_ok.mp h
    split at h
    next hlength =>
      obtain ⟨hdata, -⟩ := splitLine_eq_some.mp (orInvalid_eq_ok.mp hfirst)
      obtain ⟨htail, hline⟩ := splitLine_eq_some.mp (orInvalid_eq_ok.mp hsecond)
      have hname : header = l.header := by simpa using failWhen_eq_ok.mp hsame
      refine ⟨⟨line, ciphertext, metadata, saltText, nonceText, salt, ⟨nonce, hlength⟩, iterations⟩,
        ?_, hline, ⟨text, intoBytes_of_utf8Decode (orInvalid_eq_ok.mp htext)⟩,
        orInvalid_eq_ok.mp hjson, hsaltField, mapError_eq_ok.mp hsalt, hnonceField,
        mapError_eq_ok.mp hnonce, orInvalid_eq_ok.mp hiterations, ?_, ?_, elim_eq_ok.mp h⟩
      · rw [hdata, htail, ← hname, intoBytes_of_utf8Decode (orInvalid_eq_ok.mp hdecode)]
      · simpa using failWhen_eq_ok.mp henough
      · simpa using failWhen_eq_ok.mp hbounded
    next => cases h
  · rintro ⟨p, h⟩
    rw [h.layout, splitLine_append (newline_not_mem_intoBytes hheader)]
    refine bind_eq_ok.mpr ⟨_, rfl, ?_⟩
    simp only [utf8Decode_intoBytes]
    refine bind_eq_ok.mpr ⟨_, rfl, bind_eq_ok.mpr ⟨(), failWhen_eq_ok.mpr (by simp), ?_⟩⟩
    rw [splitLine_append h.oneLine]
    refine bind_eq_ok.mpr ⟨_, rfl, ?_⟩
    obtain ⟨s, hs⟩ := h.text
    simp only [← hs, utf8Decode_intoBytes]
    refine bind_eq_ok.mpr ⟨_, rfl, bind_eq_ok.mpr ⟨p.metadata, ?_, ?_⟩⟩
    · rw [hs]
      exact orInvalid_eq_ok.mpr h.json
    refine bind_eq_ok.mpr ⟨_, h.saltField, bind_eq_ok.mpr ⟨_, mapError_eq_ok.mpr h.salt, ?_⟩⟩
    refine bind_eq_ok.mpr ⟨_, h.nonceField, bind_eq_ok.mpr ⟨_, mapError_eq_ok.mpr h.nonce, ?_⟩⟩
    refine bind_eq_ok.mpr ⟨_, orInvalid_eq_ok.mpr h.stretched, ?_⟩
    refine bind_eq_ok.mpr ⟨(), failWhen_eq_ok.mpr (by simpa using h.enough), ?_⟩
    refine bind_eq_ok.mpr ⟨(), failWhen_eq_ok.mpr (by simpa using h.bounded), ?_⟩
    rw [dif_pos p.nonce.property]
    exact elim_eq_ok.mpr h.opens

theorem KeyLayout.printable_metadata (l : KeyLayout) (salt : Fixed 32) (nonce : Fixed 12) :
    Printable maxNesting (l.metadata x salt nonce) := by
  refine .object _ ?_
  simp [Printable.posInt, Printable.string]

/-- A layout reads the two texts that its own metadata has. -/
def KeyLayout.ReadsOwn (l : KeyLayout) : Prop :=
  ∀ metadata name text, metadata.getStr name = some text → l.field metadata name = .ok text

theorem keyLayoutV2_readsOwn : keyLayoutV2.ReadsOwn := by
  intro metadata name text h
  simp [keyLayoutV2, h]

/-- What is sealed is opened with its passphrase, and it begins with its header line. -/
theorem KeyLayout.unseal_seal (hx : x.SignsLawfully) (hsc : sc.Opens) (hjs : js.Lossless)
    {l : KeyLayout} (hheader : '\n' ∉ l.header.toList) (hown : l.ReadsOwn) {salt : Fixed 32}
    {nonce : Fixed 12} {secret blob : Bytes} {passphrase : String}
    (h : l.seal x sc js salt nonce secret passphrase = .ok blob) :
    intoBytes l.header ++ [10] <+: blob ∧ l.unseal x sc js blob passphrase = .ok secret := by
  unfold KeyLayout.seal at h
  simp only at h
  split at h
  next => cases h
  next ciphertext hencrypt =>
    cases Except.ok.inj h
    have hprintable := l.printable_metadata (x := x) salt nonce
    have hsalt : l.field (l.metadata x salt nonce) "salt" = .ok (x.base64Encode salt.val) :=
      hown _ _ _ (by simp [KeyLayout.metadata, JsonValue.getStr, JsonValue.get, asStr])
    have hnonce : l.field (l.metadata x salt nonce) "nonce" = .ok (x.base64Encode nonce.val) :=
      hown _ _ _ (by simp [KeyLayout.metadata, JsonValue.getStr, JsonValue.get, asStr])
    have hjson := hjs.reads hprintable none
    have hline : (10 : UInt8) ∉
        intoBytes (String.ofList (render js none (l.metadata x salt nonce))) := by
      apply newline_not_mem_intoBytes
      rw [String.toList_ofList]
      exact newline_not_mem_render hjs hprintable
    generalize htext : intoBytes (String.ofList (render js none (l.metadata x salt nonce))) = line
      at hjson hline
    refine ⟨⟨_, List.append_assoc _ _ _⟩, (KeyLayout.unseal_eq_ok hheader).mpr
      ⟨⟨line, ciphertext, l.metadata x salt nonce, x.base64Encode salt.val,
        x.base64Encode nonce.val, salt.val, nonce, pbkdf2MinIterations⟩, ?_⟩⟩
    exact {
      layout := rfl
      oneLine := hline
      text := ⟨_, htext⟩
      json := hjson
      saltField := hsalt
      salt := hx.base64 _
      nonceField := hnonce
      nonce := hx.base64 _
      stretched := by simp [KeyLayout.metadata, JsonValue.get, asU64]
      enough := UInt64.le_refl _
      bounded := show pbkdf2MinIterations ≤ pbkdf2MaxIterations by decide
      opens := hsc _ _ _ _ hencrypt }

theorem DeviceBundle.importEncrypted_exportEncrypted (hx : x.SignsLawfully) (hsc : sc.Opens)
    (hjs : js.Lossless) {b : DeviceBundle} {salt : Fixed 32} {nonce : Fixed 12} {blob : Bytes}
    {passphrase : String} (h : b.exportEncrypted x sc js salt nonce passphrase = .ok blob) :
    intoBytes keyLayoutV2.header ++ [10] <+: blob ∧
      DeviceBundle.importEncrypted x sc js blob passphrase = .ok b := by
  obtain ⟨hstarts, hopen⟩ :=
    KeyLayout.unseal_seal hx hsc hjs (by decide) keyLayoutV2_readsOwn h
  refine ⟨hstarts, bind_eq_ok.mpr ⟨_, hopen, ?_⟩⟩
  rw [utf8Decode_intoBytes]
  exact bind_eq_ok.mpr ⟨_, rfl, DeviceBundle.fromPlaintext_toPlaintext hx hjs b⟩

end Reading

end Sealedge
