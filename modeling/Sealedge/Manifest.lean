import Sealedge.Fallible
import Sealedge.Texts
import Sealedge.Numerals

namespace Sealedge

abbrev Bytes := List UInt8

/-- An `f64` by its bit pattern. -/
structure F64 where
  bits : UInt64
  deriving DecidableEq, Repr

namespace F64

def isNan (x : F64) : Bool :=
  decide ((x.bits >>> 52) &&& 0x7ff = 0x7ff ∧ x.bits &&& 0xfffffffffffff ≠ 0)

def isFinite (x : F64) : Bool :=
  decide ((x.bits >>> 52) &&& 0x7ff ≠ 0x7ff)

def isZero (x : F64) : Bool :=
  decide (x.bits &&& 0x7fffffffffffffff = 0)

def isNegative (x : F64) : Bool :=
  decide (x.bits >>> 63 = 1)

/-- The `==` of `f64`: a NaN equals nothing and the two zeros are equal. -/
def eq (x y : F64) : Bool :=
  !x.isNan && !y.isNan && (decide (x.bits = y.bits) || (x.isZero && y.isZero))

/-- The comparison `x <= 0.0`, false of a NaN. -/
def leZero (x : F64) : Bool :=
  !x.isNan && (x.isNegative || x.isZero)

end F64

/-- A `BTreeMap<String, String>` as the entries it iterates over. -/
structure Labels where
  entries : List (String × String)
  sorted : entries.Pairwise (fun a b => a.1 < b.1)
  deriving DecidableEq

namespace Labels

def empty : Labels := ⟨[], List.Pairwise.nil⟩

def isEmpty (l : Labels) : Bool := l.entries.isEmpty

end Labels

structure GenericMetadata where
  startedAt : String
  endedAt : String
  dataType : Option String
  source : Option String
  description : Option String
  mimeType : Option String
  labels : Labels
  deriving DecidableEq

structure CamVideoMetadata where
  startedAt : String
  endedAt : String
  timezone : String
  fps : F64
  resolution : String
  codec : String
  deriving DecidableEq

structure SensorMetadata where
  startedAt : String
  endedAt : String
  sampleRateHz : F64
  unit : String
  sensorModel : String
  latitude : Option F64
  longitude : Option F64
  altitude : Option F64
  labels : Labels
  deriving DecidableEq

structure AudioMetadata where
  startedAt : String
  endedAt : String
  sampleRateHz : UInt32
  bitDepth : UInt16
  channels : UInt8
  codec : String
  deriving DecidableEq

structure LogMetadata where
  startedAt : String
  endedAt : String
  application : String
  host : String
  logLevel : String
  logFormat : String
  deriving DecidableEq

inductive ProfileMetadata
  | camVideo (m : CamVideoMetadata)
  | sensor (m : SensorMetadata)
  | audio (m : AudioMetadata)
  | log (m : LogMetadata)
  | generic (m : GenericMetadata)
  deriving DecidableEq

structure DeviceInfo where
  id : String
  model : String
  firmwareVersion : String
  publicKey : String
  keyAgreementPublic : Option String
  keyEpoch : Option UInt32
  deriving DecidableEq

structure ChunkInfo where
  sizeBytes : UInt64
  durationSeconds : F64
  deriving DecidableEq

structure SegmentInfo where
  chunkFile : String
  blake3Hash : String
  startTime : String
  durationSeconds : F64
  continuityHash : String
  deriving DecidableEq

structure HpkeSuite where
  kem : String
  kdf : String
  aead : String
  deriving DecidableEq

structure RecipientEntry where
  recipientId : String
  recipientPub : String
  enc : String
  wrappedCek : String
  deriving DecidableEq

structure EncryptionBlock where
  contentAead : String
  hpke : HpkeSuite
  recipients : List RecipientEntry
  deriving DecidableEq

structure TrstManifest where
  trstVersion : String
  profile : String
  device : DeviceInfo
  metadata : ProfileMetadata
  chunk : ChunkInfo
  segments : List SegmentInfo
  claims : List String
  encryption : Option EncryptionBlock
  sequence : Option UInt64
  prevArchiveHash : Option String
  signature : Option String
  deriving DecidableEq

/-- `ManifestFormatError`. Serializing a string cannot fail, so only the field error is raised. -/
inductive ManifestFormatError
  | invalidField (reason : String)
  deriving DecidableEq, Repr

def ManifestFormatError.display : ManifestFormatError → String
  | invalidField reason => "Invalid field value: " ++ reason

/-- The error return shared by the checks of `validate`. -/
def invalidWhen (bad : Bool) (reason : String) : Except ManifestFormatError Unit :=
  Fallible.failWhen bad (.invalidField reason)

def requireText (field value : String) : Except ManifestFormatError Unit :=
  invalidWhen (value == "") (field ++ " cannot be empty")

def ProfileMetadata.validate : ProfileMetadata → Except ManifestFormatError Unit
  | camVideo m => do
    requireText "metadata.started_at" m.startedAt
    requireText "metadata.ended_at" m.endedAt
  | sensor m => do
    requireText "metadata.started_at" m.startedAt
    requireText "metadata.ended_at" m.endedAt
    invalidWhen m.sampleRateHz.leZero "metadata.sample_rate_hz must be > 0"
    requireText "metadata.unit" m.unit
    requireText "metadata.sensor_model" m.sensorModel
  | audio m => do
    requireText "metadata.started_at" m.startedAt
    requireText "metadata.ended_at" m.endedAt
    invalidWhen (m.sampleRateHz == 0) "metadata.sample_rate_hz must be > 0"
    invalidWhen (m.bitDepth == 0) "metadata.bit_depth must be > 0"
    invalidWhen (m.channels == 0) "metadata.channels must be > 0"
    requireText "metadata.codec" m.codec
  | log m => do
    requireText "metadata.started_at" m.startedAt
    requireText "metadata.ended_at" m.endedAt
    requireText "metadata.application" m.application
    requireText "metadata.host" m.host
    requireText "metadata.log_level" m.logLevel
    requireText "metadata.log_format" m.logFormat
  | generic m => do
    requireText "metadata.started_at" m.startedAt
    requireText "metadata.ended_at" m.endedAt

def validateSegments : Nat → List SegmentInfo → Except ManifestFormatError Unit
  | _, [] => .ok ()
  | i, segment :: rest => do
    requireText ("segment[" ++ i.repr ++ "].chunk_file") segment.chunkFile
    requireText ("segment[" ++ i.repr ++ "].blake3_hash") segment.blake3Hash
    requireText ("segment[" ++ i.repr ++ "].continuity_hash") segment.continuityHash
    validateSegments (i + 1) rest

/-- The text is `b3:` followed by 64 hexadecimal digits of either case. -/
def wellFormedDigest (prev : String) : Bool :=
  match Texts.stripPrefix "b3:" prev with
  | some h => h.toList.length == 64 && h.toList.all (fun c => (Numerals.hexValue c).isSome)
  | none => false

def validateEncryption : Option EncryptionBlock → Except ManifestFormatError Unit
  | some enc =>
    invalidWhen enc.recipients.isEmpty
      "encryption.recipients cannot be empty (use sign-only mode for no encryption)"
  | none => .ok ()

def validateChronicle : Option UInt64 → Option String → Except ManifestFormatError Unit
  | none, none => .ok ()
  | none, some _ => .error (.invalidField "prev_archive_hash requires a sequence")
  | some seq, none =>
    if seq = 0 then .ok ()
    else .error (.invalidField "sequence > 0 requires prev_archive_hash")
  | some seq, some prev =>
    if seq = 0 then
      .error (.invalidField "genesis archive (sequence 0) must not set prev_archive_hash")
    else invalidWhen (!wellFormedDigest prev) "prev_archive_hash must be 'b3:<64 hex>'"

def knownProfiles : List String := ["generic", "cam.video", "sensor", "audio", "log"]

def TrstManifest.validate (m : TrstManifest) : Except ManifestFormatError Unit := do
  requireText "trst_version" m.trstVersion
  invalidWhen (!knownProfiles.contains m.profile)
    ("profile must be 'generic', 'cam.video', 'sensor', 'audio', or 'log', got '" ++
      m.profile ++ "'")
  requireText "device.id" m.device.id
  requireText "device.public_key" m.device.publicKey
  m.metadata.validate
  invalidWhen m.segments.isEmpty "segments cannot be empty"
  validateSegments 0 m.segments
  validateEncryption m.encryption
  validateChronicle m.sequence m.prevArchiveHash
  -- Epoch 0 is represented by absence, so the canonical form drops it.
  invalidWhen (m.device.keyEpoch == some 0)
    "device.key_epoch must be >= 1 when present (epoch 0 is represented by absence)"

theorem requireText_eq_ok {field value : String} {u : Unit} :
    requireText field value = .ok u ↔ value ≠ "" := by
  unfold requireText invalidWhen
  rw [Fallible.failWhen_eq_ok]
  simp

/-- What a manifest that passes `validate` satisfies. -/
structure TrstManifest.Valid (m : TrstManifest) : Prop where
  version : m.trstVersion ≠ ""
  profile : m.profile ∈ knownProfiles
  id : m.device.id ≠ ""
  publicKey : m.device.publicKey ≠ ""
  metadata : m.metadata.validate = .ok ()
  segments : m.segments ≠ []
  described : validateSegments 0 m.segments = .ok ()
  encryption : validateEncryption m.encryption = .ok ()
  chronicle : validateChronicle m.sequence m.prevArchiveHash = .ok ()
  epoch : m.device.keyEpoch ≠ some 0

theorem TrstManifest.validate_eq_ok {m : TrstManifest} : m.validate = .ok () ↔ m.Valid := by
  unfold TrstManifest.validate
  constructor
  · intro h
    obtain ⟨_, hversion, h⟩ := Fallible.bind_eq_ok.mp h
    obtain ⟨_, hprofile, h⟩ := Fallible.bind_eq_ok.mp h
    obtain ⟨_, hid, h⟩ := Fallible.bind_eq_ok.mp h
    obtain ⟨_, hkey, h⟩ := Fallible.bind_eq_ok.mp h
    obtain ⟨_, hmetadata, h⟩ := Fallible.bind_eq_ok.mp h
    obtain ⟨_, hsegments, h⟩ := Fallible.bind_eq_ok.mp h
    obtain ⟨_, hdescribed, h⟩ := Fallible.bind_eq_ok.mp h
    obtain ⟨_, hencryption, h⟩ := Fallible.bind_eq_ok.mp h
    obtain ⟨_, hchronicle, h⟩ := Fallible.bind_eq_ok.mp h
    have hprofile := Fallible.failWhen_eq_ok.mp hprofile
    have hsegments := Fallible.failWhen_eq_ok.mp hsegments
    have hepoch := Fallible.failWhen_eq_ok.mp h
    exact ⟨requireText_eq_ok.mp hversion, by simpa using hprofile, requireText_eq_ok.mp hid,
      requireText_eq_ok.mp hkey, hmetadata, by simpa using hsegments, hdescribed, hencryption,
      hchronicle, by simpa using hepoch⟩
  · intro h
    have hprofile : (!knownProfiles.contains m.profile) = false := by simpa using h.profile
    have hsegments : m.segments.isEmpty = false := by simpa using h.segments
    have hepoch : (m.device.keyEpoch == some 0) = false := by simpa using h.epoch
    refine Fallible.bind_eq_ok.mpr ⟨(), requireText_eq_ok.mpr h.version, ?_⟩
    refine Fallible.bind_eq_ok.mpr ⟨(), Fallible.failWhen_eq_ok.mpr hprofile, ?_⟩
    refine Fallible.bind_eq_ok.mpr ⟨(), requireText_eq_ok.mpr h.id, ?_⟩
    refine Fallible.bind_eq_ok.mpr ⟨(), requireText_eq_ok.mpr h.publicKey, ?_⟩
    refine Fallible.bind_eq_ok.mpr ⟨(), h.metadata, ?_⟩
    refine Fallible.bind_eq_ok.mpr ⟨(), Fallible.failWhen_eq_ok.mpr hsegments, ?_⟩
    refine Fallible.bind_eq_ok.mpr ⟨(), h.described, Fallible.bind_eq_ok.mpr ⟨(), h.encryption, ?_⟩⟩
    exact Fallible.bind_eq_ok.mpr ⟨(), h.chronicle, Fallible.failWhen_eq_ok.mpr hepoch⟩

/-- The `started_at` timestamp of any profile's metadata. -/
def manifestStartedAt (m : TrstManifest) : String :=
  match m.metadata with
  | .camVideo d => d.startedAt
  | .sensor d => d.startedAt
  | .audio d => d.startedAt
  | .log d => d.startedAt
  | .generic d => d.startedAt

end Sealedge
