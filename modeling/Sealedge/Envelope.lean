import Mathlib.Data.List.Sort
import Sealedge.Bincode
import Sealedge.Fallible
import Sealedge.DeviceCrypto
import Sealedge.WitnessJws

namespace Sealedge

open Fallible Bincode

/-- A byte array of fixed length. -/
abbrev Fixed (n : Nat) := { bytes : Bytes // bytes.length = n }

/-- Outside functions of an envelope: X25519 on converted Ed25519 keys, HKDF-SHA256 by salt, key
material, info and output length, and AES-256-GCM by key, nonce, associated data and text. -/
structure EnvelopeCrates where
  x25519 : DeviceKeypair → Bytes → Fixed 32
  hkdfSha256 : Fixed 32 → Bytes → Bytes → (length : Nat) → Option (Fixed length)
  aes256GcmEncrypt : Fixed 32 → Fixed 12 → Bytes → Bytes → Option Bytes
  aes256GcmDecrypt : Fixed 32 → Fixed 12 → Bytes → Bytes → Option Bytes

def defaultChunkSize : Nat := 64 * 1024

def maxChunkIndex : UInt64 := 16777215

def envelopeVersionV2 : UInt8 := 2

structure ChunkManifest where
  sequence : UInt64
  chunkSize : UInt32
  timestamp : UInt64
  formatHint : String
  keyDerivationSalt : Fixed 32
  pbkdf2Iterations : UInt32
  deriving DecidableEq

structure SignedManifest where
  manifest : Bytes
  sig : Bytes
  pubkey : Bytes
  deriving DecidableEq

structure NetworkChunk where
  sequence : UInt64
  data : Bytes
  manifest : Bytes
  nonce : Fixed 12
  timestamp : UInt64
  deriving DecidableEq

structure EnvelopeMetadata where
  createdAt : UInt64
  payloadSize : UInt64
  chunkCount : UInt32
  aeadAlgorithm : UInt8
  signatureAlgorithm : UInt8
  hashAlgorithm : UInt8
  deriving DecidableEq

structure Envelope where
  version : UInt8
  hkdfSalt : Fixed 32
  chunks : List NetworkChunk
  verifyingKeyBytes : Bytes
  beneficiaryKeyBytes : Bytes
  metadata : EnvelopeMetadata
  deriving DecidableEq

namespace ChunkManifest

/-- `bincode::serialize`. -/
def bincode (m : ChunkManifest) : Bytes :=
  leBytes 8 m.sequence.toNat ++ (leBytes 4 m.chunkSize.toNat ++ (leBytes 8 m.timestamp.toNat ++
    (putVec (intoBytes m.formatHint) ++ (m.keyDerivationSalt.val ++
      leBytes 4 m.pbkdf2Iterations.toNat))))

def get : Get ChunkManifest := do
  let sequence ← getNat 8
  let chunkSize ← getNat 4
  let timestamp ← getNat 8
  let hint ← getVec
  let formatHint ← check (utf8Decode hint)
  let keyDerivationSalt ← getArray 32
  let pbkdf2Iterations ← getNat 4
  pure {
    sequence := UInt64.ofNat sequence
    chunkSize := UInt32.ofNat chunkSize
    timestamp := UInt64.ofNat timestamp
    formatHint
    keyDerivationSalt
    pbkdf2Iterations := UInt32.ofNat pbkdf2Iterations }

end ChunkManifest

namespace SignedManifest

/-- `bincode::serialize`. -/
def bincode (s : SignedManifest) : Bytes :=
  putVec s.manifest ++ (putVec s.sig ++ putVec s.pubkey)

def get : Get SignedManifest := do
  let manifest ← getVec
  let sig ← getVec
  let pubkey ← getVec
  pure { manifest, sig, pubkey }

end SignedManifest

/-- `bincode::serialize`. -/
def NetworkChunk.bincode (c : NetworkChunk) : Bytes :=
  leBytes 8 c.sequence.toNat ++ (putVec c.data ++ (putVec c.manifest ++
    (c.nonce.val ++ leBytes 8 c.timestamp.toNat)))

/-- `bincode::serialize`. -/
def EnvelopeMetadata.bincode (m : EnvelopeMetadata) : Bytes :=
  leBytes 8 m.createdAt.toNat ++ (leBytes 8 m.payloadSize.toNat ++
    (leBytes 4 m.chunkCount.toNat ++ [m.aeadAlgorithm, m.signatureAlgorithm, m.hashAlgorithm]))

/-- `bincode::serialize`. -/
def Envelope.bincode (e : Envelope) : Bytes :=
  e.version :: (e.hkdfSalt.val ++ (leBytes 8 e.chunks.length ++
    (e.chunks.flatMap NetworkChunk.bincode ++ (e.verifyingKeyBytes ++
      (e.beneficiaryKeyBytes ++ e.metadata.bincode)))))

def NetworkChunk.get : Get NetworkChunk := do
  let sequence ← getNat 8
  let data ← getVec
  let manifest ← getVec
  let nonce ← getArray 12
  let timestamp ← getNat 8
  pure {
    sequence := UInt64.ofNat sequence
    data
    manifest
    nonce
    timestamp := UInt64.ofNat timestamp }

def EnvelopeMetadata.get : Get EnvelopeMetadata := do
  let createdAt ← getNat 8
  let payloadSize ← getNat 8
  let chunkCount ← getNat 4
  let aeadAlgorithm ← getByte
  let signatureAlgorithm ← getByte
  let hashAlgorithm ← getByte
  pure {
    createdAt := UInt64.ofNat createdAt
    payloadSize := UInt64.ofNat payloadSize
    chunkCount := UInt32.ofNat chunkCount
    aeadAlgorithm
    signatureAlgorithm
    hashAlgorithm }

def Envelope.get : Get Envelope := do
  let version ← getByte
  let hkdfSalt ← getArray 32
  let count ← getNat 8
  let chunks ← getMany NetworkChunk.get count
  let verifyingKeyBytes ← getBytes 32
  let beneficiaryKeyBytes ← getBytes 32
  let metadata ← EnvelopeMetadata.get
  pure { version, hkdfSalt, chunks, verifyingKeyBytes, beneficiaryKeyBytes, metadata }

/-- What a call of `seal` takes from the clock and from the random source. -/
structure SealDraws where
  createdAt : UInt64
  hkdfSalt : Fixed 32
  chunkTimes : Nat → UInt64

/-- `payload.chunks(DEFAULT_CHUNK_SIZE)`. -/
def payloadChunks (payload : Bytes) : List Bytes :=
  if payload = [] then []
  else payload.take defaultChunkSize :: payloadChunks (payload.drop defaultChunkSize)
termination_by payload.length
decreasing_by
  have hpos : 0 < payload.length := List.length_pos_iff.mpr ‹_›
  simp only [List.length_drop, defaultChunkSize]
  omega

section Sealing

variable (x : Crates) (ec : EnvelopeCrates)

/-- `SigningKey::verifying_key`, as bytes. -/
def DeviceKeypair.verifyingKey (k : DeviceKeypair) : Bytes :=
  x.ed25519Public k.secret

/-- The key and the nonce prefix, taken from forty bytes of output. -/
def splitOkm (okm : Fixed 40) : Fixed 32 × Fixed 8 :=
  (⟨okm.val.take 32, by simp [okm.property]⟩, ⟨okm.val.drop 32, by simp [okm.property]⟩)

def deriveSharedEncryptionKey (myPrivateKey : DeviceKeypair) (theirPublicKey : Bytes)
    (salt : Fixed 32) : Except String (Fixed 32 × Fixed 8) := do
  let sharedSecret := ec.x25519 myPrivateKey theirPublicKey
  failWhen (sharedSecret.val.all (· == 0)) "ECDH produced zero shared secret"
  match ec.hkdfSha256 salt sharedSecret.val (intoBytes "SEALEDGE_ENVELOPE_V1") 40 with
  | none => .error "HKDF expand failed"
  | some okm => .ok (splitOkm okm)

/-- The nonce prefix, the low three bytes of the chunk index, and the last-chunk flag. -/
def chunkNonce (noncePrefix : Fixed 8) (sequence : UInt64) (isLastChunk : Bool) : Fixed 12 :=
  ⟨noncePrefix.val ++ ((beBytes 4 sequence.toUInt32.toNat).drop 1 ++
    [if isLastChunk then 0xFF else 0x00]), by simp [noncePrefix.property]⟩

def buildAad (headerHash : Digest) (seq : UInt64) (nonce : Fixed 12) (manifestHash : Digest)
    (chunkLen : UInt32) : Bytes :=
  headerHash.val ++ beBytes 8 seq.toNat ++ nonce.val ++ manifestHash.val ++
    beBytes 4 chunkLen.toNat

/-- The manifest that `create_encrypted_chunk` signs; the fields of the older key derivation stay
zero. -/
def chunkManifest (sequence : UInt64) (chunkData : Bytes) (createdAt : UInt64) : ChunkManifest where
  sequence
  chunkSize := UInt32.ofNat chunkData.length
  timestamp := createdAt
  formatHint := "application/octet-stream"
  keyDerivationSalt := ⟨List.replicate 32 0, by simp⟩
  pbkdf2Iterations := 0

/-- The manifest bytes together with the signature of their hash. -/
def signChunkManifest (k : DeviceKeypair) (manifestBytes : Bytes) : SignedManifest where
  manifest := manifestBytes
  sig := x.ed25519Sign k.secret (x.blake3 manifestBytes).val
  pubkey := k.verifyingKey x

def createEncryptedChunk (sequence : UInt64) (chunkData : Bytes) (signingKey : DeviceKeypair)
    (encryptionKey : Fixed 32) (noncePrefix : Fixed 8) (isLastChunk : Bool)
    (metadata : EnvelopeMetadata) (now : UInt64) : Except String NetworkChunk := do
  failWhen (maxChunkIndex < sequence)
    "Chunk index exceeds maximum (16,777,215) — envelope too large for current nonce format"
  let nonce := chunkNonce noncePrefix sequence isLastChunk
  let manifestBytes := (chunkManifest sequence chunkData metadata.createdAt).bincode
  let manifestHash := x.blake3 manifestBytes
  let signedManifest := signChunkManifest x signingKey manifestBytes
  let aad := buildAad (x.blake3 (intoBytes "ENVELOPE_V1")) sequence nonce manifestHash
    (UInt32.ofNat chunkData.length)
  match ec.aes256GcmEncrypt encryptionKey nonce aad chunkData with
  | none => .error "Encryption failed: Error"
  | some ciphertext => .ok ⟨sequence, ciphertext, signedManifest.bincode, nonce, now⟩

/-- The discriminants of AES-256-GCM, Ed25519 and BLAKE3. -/
def sealMetadata (payload : Bytes) (createdAt : UInt64) : EnvelopeMetadata where
  createdAt
  payloadSize := UInt64.ofNat payload.length
  chunkCount := UInt32.ofNat ((payload.length + (defaultChunkSize - 1)) / defaultChunkSize)
  aeadAlgorithm := 1
  signatureAlgorithm := 1
  hashAlgorithm := 1

/-- `Envelope::seal`. -/
def Envelope.seal (payload : Bytes) (signingKey : DeviceKeypair) (beneficiaryKey : Bytes)
    (draws : SealDraws) : Except String Envelope := do
  let metadata := sealMetadata payload draws.createdAt
  let (encryptionKey, noncePrefix) ←
    deriveSharedEncryptionKey ec signingKey beneficiaryKey draws.hkdfSalt
  let pieces := payloadChunks payload
  let chunks ← pieces.zipIdx.mapM fun (chunkData, i) =>
    createEncryptedChunk x ec (UInt64.ofNat i) chunkData signingKey encryptionKey noncePrefix
      (i == pieces.length - 1) metadata (draws.chunkTimes i)
  pure {
    version := envelopeVersionV2
    hkdfSalt := draws.hkdfSalt
    chunks
    verifyingKeyBytes := signingKey.verifyingKey x
    beneficiaryKeyBytes := beneficiaryKey
    metadata }

def Envelope.verifyChunkSignature (e : Envelope) (chunk : NetworkChunk) : Bool :=
  match deserialize SignedManifest.get chunk.manifest with
  | none => false
  | some signedManifest =>
    signedManifest.sig.length == 64 && (x.ed25519Key e.verifyingKeyBytes).isOk &&
      x.ed25519Verify e.verifyingKeyBytes (x.blake3 signedManifest.manifest).val signedManifest.sig

def Envelope.verifyChunkSequence (e : Envelope) : Bool :=
  let sequences := (e.chunks.map NetworkChunk.sequence).insertionSort (· ≤ ·)
  e.chunks.length == e.metadata.chunkCount.toNat &&
    ((List.range e.metadata.chunkCount.toNat).zip sequences).all
      fun (expected, actual) => UInt64.ofNat expected == actual

/-- `Envelope::verify`. -/
def Envelope.verify (e : Envelope) : Bool :=
  e.version == envelopeVersionV2 && e.chunks.all (e.verifyChunkSignature x) &&
    e.verifyChunkSequence

def decryptChunkV2 (chunk : NetworkChunk) (encryptionKey : Fixed 32) (noncePrefix : Fixed 8)
    (isLastChunk : Bool) : Except String Bytes := do
  let signedManifest ← (deserialize SignedManifest.get chunk.manifest).elim
    (.error "Failed to deserialize signed manifest") .ok
  let manifest ← (deserialize ChunkManifest.get signedManifest.manifest).elim
    (.error "Failed to deserialize chunk manifest") .ok
  failWhen (maxChunkIndex < manifest.sequence)
    "Chunk index exceeds maximum (16,777,215) — envelope too large for current nonce format"
  let nonce := chunkNonce noncePrefix manifest.sequence isLastChunk
  let aad := buildAad (x.blake3 (intoBytes "ENVELOPE_V1")) manifest.sequence nonce
    (x.blake3 signedManifest.manifest) manifest.chunkSize
  (ec.aes256GcmDecrypt encryptionKey nonce aad chunk.data).elim
    (.error "V2 decryption failed: Error") .ok

/-- The chunks in the order of their own, unsigned sequence numbers. -/
def Envelope.sortedChunks (e : Envelope) : List NetworkChunk :=
  e.chunks.insertionSort (fun a b => a.sequence ≤ b.sequence)

/-- `Envelope::unseal`. -/
def Envelope.unseal (e : Envelope) (decryptionKey : DeviceKeypair) : Except String Bytes := do
  failWhen (e.version != envelopeVersionV2) ("Unsupported envelope version " ++
    e.version.toNat.repr ++ ": this build understands only v" ++ envelopeVersionV2.toNat.repr)
  failWhen (!e.verify x) "Envelope verification failed"
  (x.ed25519Key e.verifyingKeyBytes).mapError fun _ => "Invalid sender public key in envelope"
  let (encryptionKey, noncePrefix) ←
    deriveSharedEncryptionKey ec decryptionKey e.verifyingKeyBytes e.hkdfSalt
  let pieces ← e.sortedChunks.zipIdx.mapM fun (chunk, i) =>
    decryptChunkV2 x ec chunk encryptionKey noncePrefix (i == e.sortedChunks.length - 1)
  let payload := pieces.flatten
  failWhen (payload.length != e.metadata.payloadSize.toNat)
    ("Payload size mismatch: expected " ++ e.metadata.payloadSize.toNat.repr ++ ", got " ++
      payload.length.repr)
  pure payload

/-- `Envelope::hash`. -/
def Envelope.hash (e : Envelope) : Digest :=
  x.blake3 e.bincode

/-- `Envelope::beneficiary`. -/
def Envelope.beneficiary (e : Envelope) : Except String Bytes := do
  (x.ed25519Key e.beneficiaryKeyBytes).mapError fun err => "Invalid beneficiary key bytes: " ++ err
  pure e.beneficiaryKeyBytes

/-- `Envelope::issuer`. -/
def Envelope.issuer (e : Envelope) : Except String Bytes := do
  (x.ed25519Key e.verifyingKeyBytes).mapError fun err => "Invalid issuer key bytes: " ++ err
  pure e.verifyingKeyBytes

end Sealing

end Sealedge
