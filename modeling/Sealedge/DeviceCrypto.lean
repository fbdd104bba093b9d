import Sealedge.ManifestText

namespace Sealedge

open Fallible

/-- A 32-byte digest. -/
abbrev Digest := { bytes : Bytes // bytes.length = 32 }

/-- The functions of other crates that hashing, signing and encoding rest on. The parsers of keys
and signatures only say whether the bytes are well formed. -/
structure Crates where
  text : TextCodec
  blake3 : Bytes → Digest
  base64Encode : Bytes → String
  base64Decode : String → Except String Bytes
  ed25519Public : Bytes → Bytes
  ed25519Key : Bytes → Except String Unit
  ed25519Sign : Bytes → Bytes → Bytes
  ed25519Verify : Bytes → Bytes → Bytes → Bool
  p256Key : Bytes → Except String Unit
  p256Signature : Bytes → Except String Unit
  p256Verify : Bytes → Bytes → Bytes → Bool

/-- Documented behaviour of the signature scheme and of base64: what a key signs verifies under
its public half, and decoding inverts encoding. -/
structure Crates.SignsLawfully (x : Crates) : Prop where
  base64 : ∀ bytes, x.base64Decode (x.base64Encode bytes) = .ok bytes
  publicLength : ∀ secret, (x.ed25519Public secret).length = 32
  publicKey : ∀ secret, x.ed25519Key (x.ed25519Public secret) = .ok ()
  signatureLength : ∀ secret msg, (x.ed25519Sign secret msg).length = 64
  verifies : ∀ secret msg,
    x.ed25519Verify (x.ed25519Public secret) msg (x.ed25519Sign secret msg) = true

inductive CryptoError
  | invalidKeyFormat (reason : String)
  | invalidSignatureFormat (reason : String)
  | encryptionFailed (reason : String)
  | decryptionFailed (reason : String)
  deriving DecidableEq, Repr

def CryptoError.display : CryptoError → String
  | invalidKeyFormat reason => "Invalid key format: " ++ reason
  | invalidSignatureFormat reason => "Invalid signature format: " ++ reason
  | encryptionFailed reason => "Encryption failed: " ++ reason
  | decryptionFailed reason => "Decryption failed: " ++ reason

/-- A device key pair; the public half is computed from the secret. -/
structure DeviceKeypair where
  secret : Bytes
  secretLength : secret.length = 32
  deriving DecidableEq

section Signing

variable (x : Crates)

/-- The public key in its `ed25519:BASE64` form. -/
def DeviceKeypair.public (k : DeviceKeypair) : String :=
  "ed25519:" ++ x.base64Encode (x.ed25519Public k.secret)

/-- `DeviceKeypair::from_public`. -/
def fromPublic (publicStr : String) : Except CryptoError Bytes :=
  match Texts.stripPrefix "ed25519:" publicStr with
  | none => .error (.invalidKeyFormat "Public key must start with 'ed25519:'")
  | some b64 => do
    let bytes ← (x.base64Decode b64).mapError
      (fun e => .invalidKeyFormat ("Invalid base64: " ++ e))
    failWhen (bytes.length != 32) (.invalidKeyFormat "Public key must be 32 bytes")
    (x.ed25519Key bytes).mapError (fun e => .invalidKeyFormat ("Invalid public key: " ++ e))
    pure bytes

/-- `sign_manifest`; it cannot fail. -/
def signManifest (k : DeviceKeypair) (canonicalBytes : Bytes) : String :=
  "ed25519:" ++ x.base64Encode (x.ed25519Sign k.secret canonicalBytes)

def verifyManifestEcdsaP256 (devicePublic : String) (canonicalBytes : Bytes)
    (sigB64 : String) : Except CryptoError Bool :=
  match Texts.stripPrefix "ecdsa-p256:" devicePublic with
  | none => .error (.invalidKeyFormat "ECDSA P-256 public key must start with 'ecdsa-p256:'")
  | some pubB64 => do
    let pubBytes ← (x.base64Decode pubB64).mapError
      (fun e => .invalidKeyFormat ("Invalid base64 in public key: " ++ e))
    (x.p256Key pubBytes).mapError (fun e => .invalidKeyFormat ("Invalid P-256 public key: " ++ e))
    let sigBytes ← (x.base64Decode sigB64).mapError
      (fun e => .invalidSignatureFormat ("Invalid base64 in signature: " ++ e))
    (x.p256Signature sigBytes).mapError
      (fun e => .invalidSignatureFormat ("Invalid P-256 DER signature: " ++ e))
    pure (x.p256Verify pubBytes canonicalBytes sigBytes)

/-- `verify_manifest`: the prefix of the signature selects the algorithm. -/
def verifyManifest (devicePublic : String) (canonicalBytes : Bytes) (signatureStr : String) :
    Except CryptoError Bool :=
  match Texts.stripPrefix "ed25519:" signatureStr with
  | some b64 => do
    let key ← fromPublic x devicePublic
    let sigBytes ← (x.base64Decode b64).mapError
      (fun e => .invalidSignatureFormat ("Invalid base64: " ++ e))
    failWhen (sigBytes.length != 64)
      (.invalidSignatureFormat "Ed25519 signature must be 64 bytes")
    pure (x.ed25519Verify key canonicalBytes sigBytes)
  | none =>
    match Texts.stripPrefix "ecdsa-p256:" signatureStr with
    | some sigB64 => verifyManifestEcdsaP256 x devicePublic canonicalBytes sigB64
    | none => .error (.invalidSignatureFormat
        "Unsupported signature algorithm. Expected ed25519: or ecdsa-p256: prefix")

/-- `verify_manifest(..).unwrap_or(false)`. -/
def verifies (devicePublic : String) (canonicalBytes : Bytes) (signatureStr : String) : Bool :=
  match verifyManifest x devicePublic canonicalBytes signatureStr with
  | .ok valid => valid
  | .error _ => false

def segmentHash (bytes : Bytes) : Digest := x.blake3 bytes

end Signing

theorem verifies_iff {x : Crates} {devicePublic sig : String} {bytes : Bytes} :
    verifies x devicePublic bytes sig = true ↔ verifyManifest x devicePublic bytes sig = .ok true := by
  unfold verifies
  cases verifyManifest x devicePublic bytes sig with
  | error e => simp
  | ok valid => simp

theorem fromPublic_public {x : Crates} (hx : x.SignsLawfully) (k : DeviceKeypair) :
    fromPublic x (k.public x) = .ok (x.ed25519Public k.secret) := by
  simp [fromPublic, DeviceKeypair.public, hx.base64, hx.publicLength, hx.publicKey, failWhen,
    Except.mapError, bind, Except.bind, pure, Except.pure]

theorem verifyManifest_signManifest {x : Crates} (hx : x.SignsLawfully) (k : DeviceKeypair)
    (bytes : Bytes) : verifyManifest x (k.public x) bytes (signManifest x k bytes) = .ok true := by
  simp [verifyManifest, signManifest, fromPublic_public hx, hx.base64, hx.signatureLength,
    hx.verifies, failWhen, Except.mapError, bind, Except.bind, pure, Except.pure]

theorem DeviceKeypair.public_ne_empty (x : Crates) (k : DeviceKeypair) : k.public x ≠ "" := by
  intro h
  have hlist := congrArg String.toList h
  simp [DeviceKeypair.public] at hlist

theorem hexEncode_digest_ne_empty (d : Digest) : Numerals.hexEncode d.val ≠ "" := by
  intro h
  have hdecode := Numerals.hexDecode_hexEncode d.val
  rw [h] at hdecode
  have hnil : d.val = [] := (Option.some.inj hdecode).symm
  have hlen := d.property
  rw [hnil] at hlen
  simp at hlen

/-- `format_archive_id`. -/
def formatArchiveId (digest : Digest) : String :=
  "b3:" ++ Numerals.hexEncode digest.val

theorem formatArchiveId_injective : Function.Injective formatArchiveId := by
  intro a b h
  apply Subtype.ext
  apply Numerals.hexEncode_injective
  exact (String.append_right_inj "b3:").mp h

/-- `archive_digest` of a manifest. -/
def TrstManifest.archiveDigest (x : Crates) (m : TrstManifest) : Digest :=
  segmentHash x (m.toCanonicalBytes x.text)

end Sealedge
