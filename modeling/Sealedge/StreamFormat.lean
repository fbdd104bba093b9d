import Sealedge.EnvelopeSpec

namespace Sealedge

open Fallible Bincode

def magic : Bytes := intoBytes "SEAL"

def streamVersion : UInt8 := 2

def maxChunkSize : UInt32 := 128 * 1024 * 1024

def maxRecordsPerStream : Nat := 1000000

def maxStreamSizeBytes : Nat := 10 * 1024 * 1024 * 1024

def aesGcmTagSize : Nat := 16

inductive AeadAlgorithm
  | aes256Gcm
  | chaCha20Poly1305
  | aes256Siv

inductive SignatureAlgorithm
  | ed25519
  | ecdsaP256
  | ecdsaP384
  | rsaPss2048
  | rsaPss4096
  | dilithium3
  | falcon512

inductive HashAlgorithm
  | blake3
  | sha256
  | sha384
  | sha512
  | sha3With256
  | sha3With512

inductive KdfAlgorithm
  | pbkdf2Sha256
  | argon2id
  | scrypt
  | hkdf

def AeadAlgorithm.tryFrom : UInt8 → Except String AeadAlgorithm
  | 1 => .ok aes256Gcm
  | 2 => .ok chaCha20Poly1305
  | 3 => .ok aes256Siv
  | value => .error ("Unsupported AEAD algorithm: " ++ value.toNat.repr)

def SignatureAlgorithm.tryFrom : UInt8 → Except String SignatureAlgorithm
  | 1 => .ok ed25519
  | 2 => .ok ecdsaP256
  | 3 => .ok ecdsaP384
  | 4 => .ok rsaPss2048
  | 5 => .ok rsaPss4096
  | 6 => .ok dilithium3
  | 7 => .ok falcon512
  | value => .error ("Unsupported signature algorithm: " ++ value.toNat.repr)

def HashAlgorithm.tryFrom : UInt8 → Except String HashAlgorithm
  | 1 => .ok blake3
  | 2 => .ok sha256
  | 3 => .ok sha384
  | 4 => .ok sha512
  | 5 => .ok sha3With256
  | 6 => .ok sha3With512
  | value => .error ("Unsupported hash algorithm: " ++ value.toNat.repr)

def KdfAlgorithm.tryFrom : UInt8 → Except String KdfAlgorithm
  | 1 => .ok pbkdf2Sha256
  | 2 => .ok argon2id
  | 3 => .ok scrypt
  | 4 => .ok hkdf
  | value => .error ("Unsupported KDF algorithm: " ++ value.toNat.repr)

structure FileHeader where
  version : UInt8
  aeadAlg : UInt8
  sigAlg : UInt8
  hashAlg : UInt8
  kdfAlg : UInt8
  reserved : Fixed 3
  keyId : Fixed 16
  deviceIdHash : Fixed 32
  noncePrefix : Fixed 4
  chunkSize : UInt32
  deriving DecidableEq

/-- The bytes `start..start + width` of an array. -/
def Fixed.slice {n : Nat} (bytes : Fixed n) (start width : Nat) (h : start + width ≤ n) :
    Fixed width :=
  ⟨(bytes.val.drop start).take width, by
    rw [List.length_take, List.length_drop, bytes.property]
    omega⟩

namespace FileHeader

/-- The last two of the 66 bytes stay zero. -/
def toBytes (h : FileHeader) : Fixed 66 :=
  ⟨h.version :: h.aeadAlg :: h.sigAlg :: h.hashAlg :: h.kdfAlg ::
    (h.reserved.val ++ (h.keyId.val ++ (h.deviceIdHash.val ++ (h.noncePrefix.val ++
      (beBytes 4 h.chunkSize.toNat ++ [0, 0]))))), by
    simp [h.reserved.property, h.keyId.property, h.deviceIdHash.property, h.noncePrefix.property]⟩

def fromBytes (bytes : Fixed 66) : Except String FileHeader := do
  let byte (i : Nat) := bytes.val.getD i 0
  let _ ← (AeadAlgorithm.tryFrom (byte 1)).mapError fun _ => "Invalid AEAD algorithm"
  let _ ← (SignatureAlgorithm.tryFrom (byte 2)).mapError fun _ => "Invalid signature algorithm"
  let _ ← (HashAlgorithm.tryFrom (byte 3)).mapError fun _ => "Invalid hash algorithm"
  let _ ← (KdfAlgorithm.tryFrom (byte 4)).mapError fun _ => "Invalid KDF algorithm"
  pure {
    version := byte 0
    aeadAlg := byte 1
    sigAlg := byte 2
    hashAlg := byte 3
    kdfAlg := byte 4
    reserved := bytes.slice 5 3 (by omega)
    keyId := bytes.slice 8 16 (by omega)
    deviceIdHash := bytes.slice 24 32 (by omega)
    noncePrefix := bytes.slice 56 4 (by omega)
    chunkSize := UInt32.ofNat (ofLe (bytes.slice 60 4 (by omega)).val.reverse) }

end FileHeader

inductive AudioFormat
  | f32Le
  | i16Le
  | i24Le
  | other (name : String)
  deriving DecidableEq

/-- The frame rate of a video is kept as the bits of its `f32`. -/
inductive DataType
  | unknown
  | file (mimeType : Option String)
  | audio (sampleRate : UInt32) (channels : UInt16) (format : AudioFormat)
  | video (width height fps : UInt32) (format : String)
  | sensor (sensorType : String)
  deriving DecidableEq

structure Manifest where
  v : UInt8
  tsMs : UInt64
  seq : UInt64
  headerHash : Digest
  ptHash : Digest
  keyId : Fixed 16
  aiUsed : Bool
  modelIds : List String
  dataType : DataType
  chunkLen : UInt32
  deriving DecidableEq

structure StreamHeader where
  v : UInt8
  header : Bytes
  headerHash : Digest
  deriving DecidableEq

structure Record where
  seq : UInt64
  nonce : Fixed 12
  sm : SignedManifest
  ct : Bytes
  deriving DecidableEq

/-- A `String` stands as its bytes do. -/
def putString (s : String) : Bytes :=
  putVec (intoBytes s)

def getString : Get String := do
  let bytes ← getVec
  check (utf8Decode bytes)

def putOption {α : Type} (put : α → Bytes) : Option α → Bytes
  | none => [0]
  | some a => 1 :: put a

def getOption {α : Type} (get : Get α) : Get (Option α) := do
  let tag ← getByte
  match tag with
  | 0 => pure none
  | 1 => do
    let a ← get
    pure (some a)
  | _ => check none

def putBool (b : Bool) : Bytes :=
  [if b then 1 else 0]

def getBool : Get Bool := do
  let byte ← getByte
  match byte with
  | 0 => pure false
  | 1 => pure true
  | _ => check none

/-- `bincode::serialize`. -/
def AudioFormat.bincode : AudioFormat → Bytes
  | f32Le => leBytes 4 0
  | i16Le => leBytes 4 1
  | i24Le => leBytes 4 2
  | other name => leBytes 4 3 ++ putString name

def AudioFormat.get : Get AudioFormat := do
  let variant ← getNat 4
  match variant with
  | 0 => pure .f32Le
  | 1 => pure .i16Le
  | 2 => pure .i24Le
  | 3 => do
    let name ← getString
    pure (.other name)
  | _ => check none

/-- `bincode::serialize`. -/
def DataType.bincode : DataType → Bytes
  | unknown => leBytes 4 0
  | file mimeType => leBytes 4 1 ++ putOption putString mimeType
  | audio sampleRate channels format =>
    leBytes 4 2 ++ (leBytes 4 sampleRate.toNat ++ (leBytes 2 channels.toNat ++ format.bincode))
  | video width height fps format =>
    leBytes 4 3 ++ (leBytes 4 width.toNat ++ (leBytes 4 height.toNat ++
      (leBytes 4 fps.toNat ++ putString format)))
  | sensor sensorType => leBytes 4 4 ++ putString sensorType

def DataType.get : Get DataType := do
  let variant ← getNat 4
  match variant with
  | 0 => pure .unknown
  | 1 => do
    let mimeType ← getOption getString
    pure (.file mimeType)
  | 2 => do
    let sampleRate ← getNat 4
    let channels ← getNat 2
    let format ← AudioFormat.get
    pure (.audio (UInt32.ofNat sampleRate) (UInt16.ofNat channels) format)
  | 3 => do
    let width ← getNat 4
    let height ← getNat 4
    let fps ← getNat 4
    let format ← getString
    pure (.video (UInt32.ofNat width) (UInt32.ofNat height) (UInt32.ofNat fps) format)
  | 4 => do
    let sensorType ← getString
    pure (.sensor sensorType)
  | _ => check none

/-- `bincode::serialize`. -/
def Manifest.bincode (m : Manifest) : Bytes :=
  m.v :: (leBytes 8 m.tsMs.toNat ++ (leBytes 8 m.seq.toNat ++ (m.headerHash.val ++
    (m.ptHash.val ++ (m.keyId.val ++ (putBool m.aiUsed ++ (leBytes 8 m.modelIds.length ++
      (m.modelIds.flatMap putString ++ (m.dataType.bincode ++ leBytes 4 m.chunkLen.toNat)))))))))

def Manifest.get : Get Manifest := do
  let v ← getByte
  let tsMs ← getNat 8
  let seq ← getNat 8
  let headerHash ← getArray 32
  let ptHash ← getArray 32
  let keyId ← getArray 16
  let aiUsed ← getBool
  let count ← getNat 8
  let modelIds ← getMany getString count
  let dataType ← DataType.get
  let chunkLen ← getNat 4
  pure {
    v
    tsMs := UInt64.ofNat tsMs
    seq := UInt64.ofNat seq
    headerHash
    ptHash
    keyId
    aiUsed
    modelIds
    dataType
    chunkLen := UInt32.ofNat chunkLen }

/-- `bincode::serialize`. -/
def StreamHeader.bincode (sh : StreamHeader) : Bytes :=
  sh.v :: (putVec sh.header ++ sh.headerHash.val)

def StreamHeader.get : Get StreamHeader := do
  let v ← getByte
  let header ← getVec
  let headerHash ← getArray 32
  pure { v, header, headerHash }

/-- `bincode::serialize`. -/
def Record.bincode (r : Record) : Bytes :=
  leBytes 8 r.seq.toNat ++ (r.nonce.val ++ (r.sm.bincode ++ putVec r.ct))

def Record.get : Get Record := do
  let seq ← getNat 8
  let nonce ← getArray 12
  let sm ← SignedManifest.get
  let ct ← getVec
  pure { seq := UInt64.ofNat seq, nonce, sm, ct }

section Domain

variable (x : Crates)

def manifestDomainSep : Bytes := intoBytes "sealedge.manifest.v1"

def signManifestWithDomain (signingKey : DeviceKeypair) (manifestBytes : Bytes) : Bytes :=
  x.ed25519Sign signingKey.secret (manifestDomainSep ++ manifestBytes)

def verifyManifestWithDomain (verifyingKey manifestBytes signature : Bytes) : Bool :=
  x.ed25519Verify verifyingKey (manifestDomainSep ++ manifestBytes) signature

/-- The signature check that both directions make, under the key that the record itself names. -/
def SignedManifest.checkSignature (sm : SignedManifest) : Except String Unit := do
  failWhen (sm.pubkey.length != 32) "pubkey length != 32"
  failWhen (sm.sig.length != 64) "sig len != 64"
  (x.ed25519Key sm.pubkey).mapError fun _ => "bad pubkey"
  failWhen (!verifyManifestWithDomain x sm.pubkey sm.manifest sm.sig)
    "manifest signature verify failed"

end Domain

theorem Fixed.slice_eq {n start width : Nat} {bytes : Fixed n} {part : Fixed width} {back : Bytes}
    (h : start + width ≤ n) (hdrop : bytes.val.drop start = part.val ++ back) :
    bytes.slice start width h = part := by
  apply Subtype.ext
  show (bytes.val.drop start).take width = part.val
  rw [hdrop, List.take_left' part.property]

theorem drop_next {start width : Nat} {bytes back : Bytes} (part : Fixed width)
    (h : bytes.drop start = part.val ++ back) : bytes.drop (start + width) = back := by
  rw [← List.drop_drop, h, List.drop_left' part.property]

theorem FileHeader.fromBytes_toBytes {h : FileHeader}
    (haead : ∃ alg, AeadAlgorithm.tryFrom h.aeadAlg = .ok alg)
    (hsig : ∃ alg, SignatureAlgorithm.tryFrom h.sigAlg = .ok alg)
    (hhash : ∃ alg, HashAlgorithm.tryFrom h.hashAlg = .ok alg)
    (hkdf : ∃ alg, KdfAlgorithm.tryFrom h.kdfAlg = .ok alg) : fromBytes h.toBytes = .ok h := by
  obtain ⟨aead, haead⟩ := haead
  obtain ⟨sig, hsig⟩ := hsig
  obtain ⟨hash, hhash⟩ := hhash
  obtain ⟨kdf, hkdf⟩ := hkdf
  let size : Fixed 4 := ⟨beBytes 4 h.chunkSize.toNat, beBytes_length 4 _⟩
  -- each field stands where the ones before it end
  have h5 : h.toBytes.val.drop 5 = h.reserved.val ++ (h.keyId.val ++ (h.deviceIdHash.val ++
      (h.noncePrefix.val ++ (size.val ++ [0, 0])))) := rfl
  have h8 := drop_next h.reserved h5
  have h24 := drop_next h.keyId h8
  have h56 := drop_next h.deviceIdHash h24
  have h60 := drop_next h.noncePrefix h56
  have hsize : UInt32.ofNat (ofLe size.val.reverse) = h.chunkSize := by
    show UInt32.ofNat (ofLe (beBytes 4 h.chunkSize.toNat).reverse) = h.chunkSize
    rw [beBytes, List.reverse_reverse, ofLe_leBytes h.chunkSize.toNat_lt, UInt32.ofNat_toNat]
  refine bind_eq_ok.mpr ⟨aead, mapError_eq_ok.mpr haead, ?_⟩
  refine bind_eq_ok.mpr ⟨sig, mapError_eq_ok.mpr hsig, ?_⟩
  refine bind_eq_ok.mpr ⟨hash, mapError_eq_ok.mpr hhash, ?_⟩
  refine bind_eq_ok.mpr ⟨kdf, mapError_eq_ok.mpr hkdf, ?_⟩
  rw [Fixed.slice_eq _ h5, Fixed.slice_eq _ h8, Fixed.slice_eq _ h24, Fixed.slice_eq _ h56,
    Fixed.slice_eq _ h60, hsize]
  rfl

/-- Strings whose lengths fit eight bytes. -/
def AudioFormat.Sized : AudioFormat → Prop
  | other name => (intoBytes name).length < 256 ^ 8
  | _ => True

def DataType.Sized : DataType → Prop
  | unknown => True
  | file mimeType => ∀ s ∈ mimeType, (intoBytes s).length < 256 ^ 8
  | audio _ _ format => format.Sized
  | video _ _ _ format => (intoBytes format).length < 256 ^ 8
  | sensor sensorType => (intoBytes sensorType).length < 256 ^ 8

structure Manifest.Sized (m : Manifest) : Prop where
  count : m.modelIds.length < 256 ^ 8
  modelIds : ∀ s ∈ m.modelIds, (intoBytes s).length < 256 ^ 8
  dataType : m.dataType.Sized

theorem reads_getString {s : String} (h : (intoBytes s).length < 256 ^ 8) :
    Reads getString (putString s) s := by
  have hread : Reads getString (putString s ++ []) s :=
    (reads_getVec h).bind (reads_check (utf8Decode_intoBytes s))
  rwa [List.append_nil] at hread

theorem reads_getOption {α : Type} {get : Get α} {put : α → Bytes} {o : Option α}
    (h : ∀ a ∈ o, Reads get (put a) a) : Reads (getOption get) (putOption put o) o := by
  cases o with
  | none => exact (reads_getByte 0).bind (reads_pure none)
  | some a => exact (reads_getByte 1).bind (h a rfl).map

theorem reads_getBool (b : Bool) : Reads getBool (putBool b) b := by
  cases b with
  | false => exact (reads_getByte 0).bind (reads_pure false)
  | true => exact (reads_getByte 1).bind (reads_pure true)

theorem AudioFormat.reads (f : AudioFormat) (h : f.Sized) : Reads AudioFormat.get f.bincode f := by
  cases f with
  | f32Le => exact (reads_getNat (by omega)).bind (reads_pure f32Le)
  | i16Le => exact (reads_getNat (by omega)).bind (reads_pure i16Le)
  | i24Le => exact (reads_getNat (by omega)).bind (reads_pure i24Le)
  | other name => exact (reads_getNat (by omega)).bind (reads_getString h).map

theorem DataType.reads (d : DataType) (h : d.Sized) : Reads DataType.get d.bincode d := by
  cases d with
  | unknown => exact (reads_getNat (by omega)).bind (reads_pure unknown)
  | file mimeType =>
    have hmime : Reads (getOption getString) (putOption putString mimeType) mimeType :=
      reads_getOption fun s hs => reads_getString (h s hs)
    exact (reads_getNat (by omega)).bind hmime.map
  | audio sampleRate channels format =>
    have hread : Reads DataType.get (audio sampleRate channels format).bincode
        (audio (UInt32.ofNat sampleRate.toNat) (UInt16.ofNat channels.toNat) format) := by
      refine (reads_getNat (by omega)).bind ?_
      refine (reads_getNat sampleRate.toNat_lt).bind ?_
      refine (reads_getNat channels.toNat_lt).bind ?_
      exact (format.reads h).map
    simpa only [UInt32.ofNat_toNat, UInt16.ofNat_toNat] using hread
  | video width height fps format =>
    have hread : Reads DataType.get (video width height fps format).bincode
        (video (UInt32.ofNat width.toNat) (UInt32.ofNat height.toNat) (UInt32.ofNat fps.toNat)
          format) := by
      refine (reads_getNat (by omega)).bind ?_
      refine (reads_getNat width.toNat_lt).bind ?_
      refine (reads_getNat height.toNat_lt).bind ?_
      refine (reads_getNat fps.toNat_lt).bind ?_
      exact (reads_getString h).map
    simpa only [UInt32.ofNat_toNat] using hread
  | sensor sensorType => exact (reads_getNat (by omega)).bind (reads_getString h).map

theorem Manifest.Sized.reads {m : Manifest} (h : m.Sized) : Reads Manifest.get m.bincode m := by
  have hmodels : ∀ s ∈ m.modelIds, Reads getString (putString s) s := by
    intro s hs
    exact reads_getString (h.modelIds s hs)
  have hread : Reads Manifest.get m.bincode { m with
      tsMs := UInt64.ofNat m.tsMs.toNat
      seq := UInt64.ofNat m.seq.toNat
      chunkLen := UInt32.ofNat m.chunkLen.toNat } := by
    refine (reads_getByte m.v).bind ?_
    refine (reads_getNat m.tsMs.toNat_lt).bind ?_
    refine (reads_getNat m.seq.toNat_lt).bind ?_
    refine (reads_getArray m.headerHash).bind ?_
    refine (reads_getArray m.ptHash).bind ?_
    refine (reads_getArray m.keyId).bind ?_
    refine (reads_getBool m.aiUsed).bind ?_
    refine (reads_getNat h.count).bind ?_
    refine (reads_getMany hmodels).bind ?_
    refine (m.dataType.reads h.dataType).bind ?_
    exact (reads_getNat m.chunkLen.toNat_lt).map
  simpa only [UInt64.ofNat_toNat, UInt32.ofNat_toNat] using hread

theorem StreamHeader.reads (sh : StreamHeader) (h : sh.header.length < 256 ^ 8) :
    Reads StreamHeader.get sh.bincode sh :=
  (reads_getByte sh.v).bind ((reads_getVec h).bind (reads_getArray sh.headerHash).map)

/-- Lengths that fit eight bytes, as those of vectors in memory do. -/
structure Record.Sized (r : Record) : Prop where
  manifest : r.sm.manifest.length < 256 ^ 8
  sig : r.sm.sig.length < 256 ^ 8
  pubkey : r.sm.pubkey.length < 256 ^ 8
  ct : r.ct.length < 256 ^ 8

theorem Record.Sized.reads {r : Record} (h : r.Sized) : Reads Record.get r.bincode r := by
  have hread : Reads Record.get r.bincode { r with seq := UInt64.ofNat r.seq.toNat } := by
    refine (reads_getNat r.seq.toNat_lt).bind ?_
    refine (reads_getArray r.nonce).bind ?_
    refine (r.sm.reads h.manifest h.sig h.pubkey).bind ?_
    exact (reads_getVec h.ct).map
  simpa only [UInt64.ofNat_toNat] using hread

theorem StreamHeader.get_local : Local StreamHeader.get := by
  refine local_getByte.bind fun v => ?_
  refine local_getVec.bind fun header => ?_
  exact (local_getArray 32).bind fun headerHash => local_pure _

theorem SignedManifest.get_local : Local SignedManifest.get := by
  refine local_getVec.bind fun manifest => ?_
  refine local_getVec.bind fun sig => ?_
  exact local_getVec.bind fun pubkey => local_pure _

theorem Record.get_local : Local Record.get := by
  refine (local_getNat 8).bind fun seq => ?_
  refine (local_getArray 12).bind fun nonce => ?_
  refine SignedManifest.get_local.bind fun sm => ?_
  exact local_getVec.bind fun ct => local_pure _

end Sealedge
