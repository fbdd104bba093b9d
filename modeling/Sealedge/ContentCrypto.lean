import Sealedge.DeviceCrypto

namespace Sealedge

open Fallible

/-- A content-encryption key of one archive. -/
abbrev ContentKey := { bytes : Bytes // bytes.length = 32 }

abbrev Nonce24 := { bytes : Bytes // bytes.length = 24 }

/-- The functions of other crates that content encryption rests on. The parsers of keys only say
whether the bytes are well formed, and the randomness of an encapsulation is an argument. -/
structure ContentCrates where
  x25519Public : Bytes → Bytes
  hpkePublicKey : Bytes → Except String Unit
  hpkePrivateKey : Bytes → Except String Unit
  hpkeEncappedKey : Bytes → Except String Unit
  hpkeSeal (random publicKey info plaintext aad : Bytes) : Except String (Bytes × Bytes)
  hpkeOpen (secret enc info ciphertext aad : Bytes) : Except String Bytes
  xchachaEncrypt (key nonce plaintext aad : Bytes) : Except String Bytes
  xchachaDecrypt (key nonce ciphertext aad : Bytes) : Except String Bytes

/-- Documented behaviour of both ciphers: opening what was sealed gives the plaintext back. -/
structure ContentCrates.Correct (c : ContentCrates) : Prop where
  hpke : ∀ {random secret info plaintext aad enc ciphertext},
    c.hpkeSeal random (c.x25519Public secret) info plaintext aad = .ok (enc, ciphertext) →
    c.hpkeOpen secret enc info ciphertext aad = .ok plaintext
  xchacha : ∀ {key nonce plaintext aad ciphertext},
    c.xchachaEncrypt key nonce plaintext aad = .ok ciphertext →
    c.xchachaDecrypt key nonce ciphertext aad = .ok plaintext

/-- What both ciphers do on the forms they make and take themselves: keys of the right length and
encapsulations are well formed, and a ciphertext is its plaintext with a tag of 16 bytes. -/
structure ContentCrates.WellFormed (c : ContentCrates) : Prop where
  privateKey : ∀ secret, secret.length = 32 → c.hpkePrivateKey secret = .ok ()
  encapped : ∀ {random pk info plaintext aad enc ciphertext},
    c.hpkeSeal random pk info plaintext aad = .ok (enc, ciphertext) → c.hpkeEncappedKey enc = .ok ()
  tagged : ∀ {key nonce plaintext aad ciphertext},
    c.xchachaEncrypt key nonce plaintext aad = .ok ciphertext →
    ciphertext.length = plaintext.length + 16

/-- An X25519 key-agreement pair; the public half is computed from the secret. -/
structure KeyAgreementKeypair where
  secret : Bytes
  secretLength : secret.length = 32

/-- A device's signing key and its independent key-agreement key. -/
structure DeviceBundle where
  signing : DeviceKeypair
  keyAgreement : KeyAgreementKeypair

def hpkeKemId : String := "DHKEM(X25519,HKDF-SHA256)"
def hpkeKdfId : String := "HKDF-SHA256"
def hpkeAeadId : String := "ChaCha20Poly1305"
def contentAeadId : String := "XChaCha20Poly1305"

/-- `cek_wrap_info`. -/
def cekWrapInfo (devicePublicKey trstVersion : String) : Bytes :=
  intoBytes "sealedge/cek-wrap/v1" ++ intoBytes devicePublicKey ++ intoBytes trstVersion

section Content

variable (x : Crates) (c : ContentCrates)

/-- The public key in its `x25519:BASE64` form. -/
def KeyAgreementKeypair.publicString (k : KeyAgreementKeypair) : String :=
  "x25519:" ++ x.base64Encode (c.x25519Public k.secret)

def parseX25519Bytes (value : String) : Except CryptoError Bytes :=
  match Texts.stripPrefix "x25519:" value with
  | none => .error (.invalidKeyFormat "Key-agreement key must start with 'x25519:'")
  | some b64 => do
    let bytes ← (x.base64Decode b64).mapError
      (fun e => .invalidKeyFormat ("Invalid base64: " ++ e))
    failWhen (bytes.length != 32) (.invalidKeyFormat "X25519 key must be 32 bytes")
    pure bytes

/-- `recipient_id`: a hint, the first 8 bytes of the hash of the key. -/
def recipientId (recipientPublic : String) : Except CryptoError String := do
  let bytes ← parseX25519Bytes x recipientPublic
  pure ("b3:" ++ Numerals.hexEncode ((x.blake3 bytes).val.take 8))

/-- `hpke_seal_cek_with_rng`: the encapsulated key and the sealed content key. -/
def hpkeSealCek (random : Bytes) (recipientPublic : String) (info aad : Bytes) (cek : ContentKey) :
    Except CryptoError (String × String) := do
  let pk ← parseX25519Bytes x recipientPublic
  (c.hpkePublicKey pk).mapError (fun e => .encryptionFailed ("HPKE recipient key: " ++ e))
  let (enc, ciphertext) ← (c.hpkeSeal random pk info cek.val aad).mapError
    (fun e => .encryptionFailed ("HPKE seal: " ++ e))
  pure (x.base64Encode enc, x.base64Encode ciphertext)

/-- `hpke_open_raw`. -/
def hpkeOpenRaw (secret : Bytes) (encB64 : String) (info aad : Bytes) (wrappedB64 : String) :
    Except CryptoError Bytes := do
  (c.hpkePrivateKey secret).mapError (fun e => .decryptionFailed ("HPKE recipient secret: " ++ e))
  let enc ← (x.base64Decode encB64).mapError
    (fun e => .decryptionFailed ("Invalid enc base64: " ++ e))
  (c.hpkeEncappedKey enc).mapError (fun e => .decryptionFailed ("HPKE encapped key: " ++ e))
  let ciphertext ← (x.base64Decode wrappedB64).mapError
    (fun e => .decryptionFailed ("Invalid wrapped_cek base64: " ++ e))
  (c.hpkeOpen secret enc info ciphertext aad).mapError
    (fun e => .decryptionFailed ("HPKE open: " ++ e))

def hpkeOpenCek (recipient : KeyAgreementKeypair) (encB64 : String) (info aad : Bytes)
    (wrappedCekB64 : String) : Except CryptoError ContentKey := do
  let cek ← hpkeOpenRaw x c recipient.secret encB64 info aad wrappedCekB64
  if h : cek.length = 32 then .ok ⟨cek, h⟩
  else .error (.decryptionFailed "unwrapped CEK is not 32 bytes")

/-- `chunk_aad_v2`: the hash of the parts one after the other. -/
def chunkAadV2 (devicePublicKey profile startedAt : String) : Digest :=
  x.blake3 (intoBytes "sealedge/aad/v1" ++ intoBytes devicePublicKey ++ intoBytes profile ++
    intoBytes startedAt)

def encryptSegment (key : ContentKey) (nonce24 : Nonce24) (plaintext aad : Bytes) :
    Except CryptoError Bytes :=
  (c.xchachaEncrypt key.val nonce24.val plaintext aad).mapError
    (fun e => .encryptionFailed ("XChaCha20Poly1305 encryption failed: " ++ e))

def decryptSegment (key : ContentKey) (nonce24 : Nonce24) (ciphertext aad : Bytes) :
    Except CryptoError Bytes :=
  (c.xchachaDecrypt key.val nonce24.val ciphertext aad).mapError
    (fun e => .decryptionFailed ("XChaCha20Poly1305 decryption failed: " ++ e))

end Content

section Correctness

variable {x : Crates} {c : ContentCrates}

theorem parseX25519Bytes_publicString (hbase : ∀ bytes, x.base64Decode (x.base64Encode bytes) = .ok bytes)
    {k : KeyAgreementKeypair} {bytes : Bytes}
    (h : parseX25519Bytes x (k.publicString x c) = .ok bytes) : bytes = c.x25519Public k.secret := by
  unfold parseX25519Bytes KeyAgreementKeypair.publicString at h
  rw [Texts.stripPrefix_append] at h
  obtain ⟨decoded, hdecode, h⟩ := bind_eq_ok.mp h
  obtain ⟨_, -, h⟩ := bind_eq_ok.mp h
  have hdecode := mapError_eq_ok.mp hdecode
  rw [hbase] at hdecode
  rw [← Except.ok.inj h, ← Except.ok.inj hdecode]

theorem hpkeSealCek_eq_ok {random info aad : Bytes} {pub : String} {cek : ContentKey}
    {enc wrapped : String} (h : hpkeSealCek x c random pub info aad cek = .ok (enc, wrapped)) :
    ∃ pk encBytes ciphertext, parseX25519Bytes x pub = .ok pk ∧
      c.hpkeSeal random pk info cek.val aad = .ok (encBytes, ciphertext) ∧
      enc = x.base64Encode encBytes ∧ wrapped = x.base64Encode ciphertext := by
  obtain ⟨pk, hpk, h⟩ := bind_eq_ok.mp h
  obtain ⟨_, -, h⟩ := bind_eq_ok.mp h
  obtain ⟨⟨encBytes, ciphertext⟩, hsealed, h⟩ := bind_eq_ok.mp h
  obtain ⟨rfl, rfl⟩ := Prod.mk.inj (Except.ok.inj h)
  exact ⟨pk, encBytes, ciphertext, hpk, mapError_eq_ok.mp hsealed, rfl, rfl⟩

theorem hpkeSealCek_sealed (hbase : ∀ bytes, x.base64Decode (x.base64Encode bytes) = .ok bytes)
    {random info aad : Bytes} {k : KeyAgreementKeypair} {cek : ContentKey} {enc wrapped : String}
    (h : hpkeSealCek x c random (k.publicString x c) info aad cek = .ok (enc, wrapped)) :
    ∃ encBytes ciphertext,
      c.hpkeSeal random (c.x25519Public k.secret) info cek.val aad = .ok (encBytes, ciphertext) ∧
      enc = x.base64Encode encBytes ∧ wrapped = x.base64Encode ciphertext := by
  obtain ⟨pk, encBytes, ciphertext, hpk, hsealed, henc, hwrapped⟩ := hpkeSealCek_eq_ok h
  rw [parseX25519Bytes_publicString hbase hpk] at hsealed
  exact ⟨encBytes, ciphertext, hsealed, henc, hwrapped⟩

theorem hpkeOpen_of_hpkeOpenCek
    (hbase : ∀ bytes, x.base64Decode (x.base64Encode bytes) = .ok bytes)
    {k : KeyAgreementKeypair} {encBytes info aad ciphertext : Bytes} {opened : ContentKey}
    (h : hpkeOpenCek x c k (x.base64Encode encBytes) info aad (x.base64Encode ciphertext) =
      .ok opened) : c.hpkeOpen k.secret encBytes info ciphertext aad = .ok opened.val := by
  obtain ⟨bytes, hraw, hopen⟩ := bind_eq_ok.mp h
  unfold hpkeOpenRaw at hraw
  obtain ⟨_, -, hraw⟩ := bind_eq_ok.mp hraw
  obtain ⟨enc', henc', hraw⟩ := bind_eq_ok.mp hraw
  obtain ⟨_, -, hraw⟩ := bind_eq_ok.mp hraw
  obtain ⟨ct', hct', hraw⟩ := bind_eq_ok.mp hraw
  have henc' := mapError_eq_ok.mp henc'
  have hct' := mapError_eq_ok.mp hct'
  have hraw := mapError_eq_ok.mp hraw
  rw [hbase] at henc'
  rw [hbase] at hct'
  rw [← Except.ok.inj henc', ← Except.ok.inj hct'] at hraw
  split at hopen
  next hlen =>
    rw [hraw, ← Except.ok.inj hopen]
  next => cases hopen

/-- A content key that was sealed to a recipient is the one its holder opens. -/
theorem hpkeOpenCek_of_hpkeSealCek
    (hbase : ∀ bytes, x.base64Decode (x.base64Encode bytes) = .ok bytes) (hc : c.Correct)
    {random info aad : Bytes} {k : KeyAgreementKeypair} {cek opened : ContentKey}
    {enc wrapped : String}
    (hseal : hpkeSealCek x c random (k.publicString x c) info aad cek = .ok (enc, wrapped))
    (hopen : hpkeOpenCek x c k enc info aad wrapped = .ok opened) : opened = cek := by
  obtain ⟨encBytes, ciphertext, hsealed, rfl, rfl⟩ := hpkeSealCek_sealed hbase hseal
  have hraw := hpkeOpen_of_hpkeOpenCek hbase hopen
  rw [hc.hpke hsealed] at hraw
  exact Subtype.ext (Except.ok.inj hraw).symm

theorem hpkeOpenCek_ok_of_hpkeSealCek
    (hbase : ∀ bytes, x.base64Decode (x.base64Encode bytes) = .ok bytes) (hc : c.Correct)
    (hform : c.WellFormed) {random info aad : Bytes} {k : KeyAgreementKeypair} {cek : ContentKey}
    {enc wrapped : String}
    (hseal : hpkeSealCek x c random (k.publicString x c) info aad cek = .ok (enc, wrapped)) :
    hpkeOpenCek x c k enc info aad wrapped = .ok cek := by
  obtain ⟨encBytes, ciphertext, hsealed, rfl, rfl⟩ := hpkeSealCek_sealed hbase hseal
  have hraw : hpkeOpenRaw x c k.secret (x.base64Encode encBytes) info aad
      (x.base64Encode ciphertext) = .ok cek.val := by
    refine bind_eq_ok.mpr ⟨(), mapError_eq_ok.mpr (hform.privateKey _ k.secretLength), ?_⟩
    refine bind_eq_ok.mpr ⟨encBytes, mapError_eq_ok.mpr (hbase _), ?_⟩
    refine bind_eq_ok.mpr ⟨(), mapError_eq_ok.mpr (hform.encapped hsealed), ?_⟩
    refine bind_eq_ok.mpr ⟨ciphertext, mapError_eq_ok.mpr (hbase _), ?_⟩
    exact mapError_eq_ok.mpr (hc.hpke hsealed)
  refine bind_eq_ok.mpr ⟨cek.val, hraw, ?_⟩
  rw [dif_pos cek.property]

theorem decryptSegment_of_encryptSegment (hc : c.Correct) {key : ContentKey} {nonce : Nonce24}
    {plaintext aad ciphertext : Bytes}
    (h : encryptSegment c key nonce plaintext aad = .ok ciphertext) :
    decryptSegment c key nonce ciphertext aad = .ok plaintext :=
  mapError_eq_ok.mpr (hc.xchacha (mapError_eq_ok.mp h))

end Correctness

end Sealedge
