import Sealedge.VerifyEngine
import Sealedge.WitnessDb

namespace Sealedge

open Fallible

structure VerifyOptions where
  returnReceipt : Bool
  deviceId : Option String
  deriving DecidableEq

structure VerifyRequest where
  devicePub : String
  manifest : JsonValue
  segments : List SegmentDigest
  options : VerifyOptions

structure ValidationError where
  error : String
  detail : String
  deriving DecidableEq

/-- An error answer with its status code. -/
structure HttpError where
  status : Nat
  body : ValidationError
  deriving DecidableEq

def isLowerHex (c : Char) : Bool :=
  ('0' ≤ c && c ≤ '9') || ('a' ≤ c && c ≤ 'f')

/-- A match of `^b3:[0-9a-f]\x7b64\x7d$`. -/
def matchesHashRegex (hash : String) : Bool :=
  match Texts.stripPrefix "b3:" hash with
  | none => false
  | some rest => rest.toList.length == 64 && rest.toList.all isLowerHex

def validateSegmentHashes : Nat → List SegmentDigest → Except ValidationError Unit
  | _, [] => .ok ()
  | i, segment :: rest =>
    if !matchesHashRegex segment.hash then
      .error ⟨"invalid_segments", "segments[" ++ i.repr ++
        "].hash must match ^b3:[0-9a-f]\x7b64\x7d$, got '" ++ segment.hash ++ "'"⟩
    else validateSegmentHashes (i + 1) rest

def JsonValue.isEmptyManifest : JsonValue → Bool
  | null => true
  | object [] => true
  | string s => s == ""
  | _ => false

def validateVerifyRequestFull (request : VerifyRequest) : Except ValidationError Unit := do
  failWhen request.segments.isEmpty ⟨"invalid_segments", "segments array cannot be empty"⟩
  failWhen (request.devicePub == "") ⟨"invalid_device_pub", "device_pub cannot be empty"⟩
  failWhen request.manifest.isEmptyManifest ⟨"invalid_manifest", "manifest cannot be empty"⟩
  validateSegmentHashes 0 request.segments

structure ReceiptClaims where
  verificationId : String
  signerPub : String
  deviceId : String
  deviceRegistered : Bool
  manifestDigest : String
  chainTip : String
  timestamp : String
  kid : String
  result : VerifyReport
  deriving DecidableEq

/-- The payload of a receipt token. -/
structure JwsPayload where
  iss : String
  sub : String
  iat : Int64
  exp : Int64
  receipt : ReceiptClaims

/-- The platform's signing key: its identifier, and the token that `jsonwebtoken` makes with it. -/
structure KeyManager where
  currentKid : String
  encode : JwsPayload → Except String String

/-- What a request finds outside the handler: the signing key, the clock and fresh identifiers. -/
structure PlatformEnv where
  keys : KeyManager
  receiptTtlSecs : UInt64
  nowRfc3339 : String
  nowUnix : Int64
  requestUuid : String
  receiptUuid : String

structure VerifyResponse where
  verificationId : String
  result : VerifyReport
  receipt : Option String
  deriving DecidableEq

/-- A row of `devices`. -/
structure DeviceRecord where
  id : String
  orgId : String
  deviceId : String
  devicePub : String
  revokedAt : Option String
  minEpoch : Option Int32
  deriving DecidableEq

/-- The table `devices` with its unique indices. -/
structure DeviceRegistry where
  rows : List DeviceRecord
  uniqueId : (rows.map (fun r => (r.orgId, r.deviceId))).Nodup
  uniquePub : (rows.map DeviceRecord.devicePub).Nodup

namespace DeviceRegistry

def getDeviceWithPub (registry : DeviceRegistry) (orgId deviceId : String) :
    Option (String × String) :=
  (registry.rows.find? (fun r => r.orgId == orgId && r.deviceId == deviceId)).map
    (fun r => (r.id, r.devicePub))

def getDeviceRevocationByPub (registry : DeviceRegistry) (devicePub : String) :
    Option RevocationState :=
  (registry.rows.find? (fun r => r.devicePub == devicePub)).map
    (fun r => ⟨r.revokedAt, r.minEpoch.map Int32.toUInt32⟩)

end DeviceRegistry

/-- The database as a request finds it: the registry, the queries that fail, and what the two
inserts return. -/
structure PlatformDb where
  registry : DeviceRegistry
  deviceFault : Option DbError
  revocationFault : Option DbError
  createVerification : Except DbError String
  createReceipt : Except DbError String

/-- The answer of a query that may fail. -/
def answer {α : Type} (fault : Option DbError) (value : α) : Except DbError α :=
  match fault with
  | some e => .error e
  | none => .ok value

section Handlers

variable (x : Crates) (sv : ManifestSerde) (env : PlatformEnv)

def receiptFromReport (report : VerifyReport) (manifestDigest signerPub deviceId : String)
    (deviceRegistered : Bool) (kid chainTip : String) : ReceiptClaims where
  verificationId := "v_" ++ env.receiptUuid
  signerPub := signerPub
  deviceId := deviceId
  deviceRegistered := deviceRegistered
  manifestDigest := manifestDigest
  chainTip := chainTip
  timestamp := env.nowRfc3339
  kid := kid
  result := report

def signReceiptJws (receipt : ReceiptClaims) : Except String String :=
  (env.keys.encode
    { iss := "sealedge-verify-service"
      sub := receipt.signerPub
      iat := env.nowUnix
      exp := env.nowUnix + env.receiptTtlSecs.toInt64
      receipt := receipt }).mapError (fun e => "Failed to encode JWT: " ++ e)

def computeManifestDigestBlake3 (manifest : JsonValue) : String :=
  "b3:" ++ x.base64Encode (segmentHash x (intoBytes (sv.toText manifest))).val

/-- The claims that both handlers put in a receipt. -/
def receiptClaims (request : VerifyRequest) (report : VerifyReport) (deviceRegistered : Bool) :
    ReceiptClaims :=
  receiptFromReport env report (computeManifestDigestBlake3 x sv request.manifest) request.devicePub
    (request.options.deviceId.getD "unknown_device") deviceRegistered env.keys.currentKid
    report.metadata.chainTip

def buildReceiptIfRequested (request : VerifyRequest) (report : VerifyReport) :
    Except ValidationError (Option String) :=
  if !request.options.returnReceipt || !report.signatureVerification.passed ||
      !report.continuityVerification.passed then .ok none
  else
    match signReceiptJws env (receiptClaims x sv env request report false) with
    | .ok jws => .ok (some jws)
    | .error _ => .error ⟨"receipt_signing_failed", "Receipt generation failed"⟩

/-- `verify_handler` without the feature `postgres`. -/
def verifyHandlerStateless (request : VerifyRequest) : Except HttpError VerifyResponse := do
  (validateVerifyRequestFull request).mapError (fun e => ⟨400, e⟩)
  let report ← (verifyToReport x sv request.manifest request.segments request.devicePub).mapError
    (fun _ => ⟨400, "verification_failed", "Cryptographic verification failed"⟩)
  let receipt ← (buildReceiptIfRequested x sv env request report).mapError (fun e => ⟨500, e⟩)
  pure ⟨"v_" ++ env.requestUuid, report, receipt⟩

/-- The registry binding: whether the claimed device is registered with the key. -/
def bindDevice (db : PlatformDb) (orgCtx : Option String) (request : VerifyRequest) :
    Except HttpError Bool :=
  match request.options.deviceId, orgCtx with
  | some deviceId, some orgId => do
    let record ← (answer db.deviceFault (db.registry.getDeviceWithPub orgId deviceId)).mapError
      (fun _ => ⟨500, "database_error", "Failed to query device"⟩)
    match record with
    | none =>
      .error ⟨403, "unknown_device", "device_id is not registered for this organization"⟩
    | some (_, storedPub) =>
      if storedPub ≠ request.devicePub then
        .error ⟨403, "device_key_mismatch",
          "device_pub does not match the registered key for device_id"⟩
      else .ok true
  | _, _ => .ok false

/-- The epoch that the gate reads, before the manifest is parsed. What is no integer counts as
the first epoch, and a long one is cut to 32 bits. -/
def archiveEpoch (manifest : JsonValue) : UInt32 :=
  (manifest.keyEpoch.getD 0).toUInt32

def checkEpoch (db : PlatformDb) (request : VerifyRequest) : Except HttpError Unit := do
  let found ← (answer db.revocationFault
      (db.registry.getDeviceRevocationByPub request.devicePub)).mapError
    (fun _ => ⟨500, "database_error", "Failed to query device revocation"⟩)
  match found with
  | none => .ok ()
  | some rev =>
    failWhen (!epochAllowed rev.minEpoch (archiveEpoch request.manifest))
      ⟨403, "epoch_below_min", "archive key_epoch is below the device's min_epoch floor"⟩

/-- The token and, when it could be stored, its identifier. -/
def storeReceipt (db : PlatformDb) (request : VerifyRequest) (report : VerifyReport)
    (deviceRegistered : Bool) : Except HttpError (Option String × Option String) :=
  if request.options.returnReceipt && report.signatureVerification.passed &&
      report.continuityVerification.passed then
    match signReceiptJws env (receiptClaims x sv env request report deviceRegistered) with
    | .ok jws =>
      match db.createReceipt with
      | .ok rid => .ok (some jws, some rid)
      | .error _ => .ok (some jws, none)
    | .error _ => .error ⟨500, "receipt_signing_failed", "Receipt generation failed"⟩
  else .ok (none, none)

/-- `verify_handler` with the feature `postgres`. -/
def verifyHandlerPostgres (db : PlatformDb) (orgCtx : Option String) (request : VerifyRequest) :
    Except HttpError VerifyResponse := do
  (validateVerifyRequestFull request).mapError (fun e => ⟨400, e⟩)
  let deviceRegistered ← bindDevice db orgCtx request
  checkEpoch db request
  let report ← (verifyToReport x sv request.manifest request.segments request.devicePub).mapError
    (fun _ => ⟨400, "verification_failed", "Cryptographic verification failed"⟩)
  let verificationId ← db.createVerification.mapError
    (fun _ => ⟨500, "database_error", "Failed to create verification record"⟩)
  let (receipt, receiptId) ← storeReceipt x sv env db request report deviceRegistered
  pure ⟨(receiptId.map (fun rid => verificationId ++ "/" ++ rid)).getD verificationId, report,
    receipt⟩

/-- The two ways the platform is built. -/
inductive Deployment
  | stateless
  | postgres (db : PlatformDb) (orgCtx : Option String)

def verifyHandler : Deployment → VerifyRequest → Except HttpError VerifyResponse
  | .stateless, request => verifyHandlerStateless x sv env request
  | .postgres db orgCtx, request => verifyHandlerPostgres x sv env db orgCtx request

end Handlers

theorem isLowerHex_toLower {c : Char} (h : isLowerHex c = true) : c.toLower = c := by
  unfold isLowerHex at h
  refine dif_neg ?_
  rintro ⟨hlow, hhigh⟩
  have hlow : 65 ≤ c.toNat := UInt32.le_iff_toNat_le.mp hlow
  have hhigh : c.toNat ≤ 90 := UInt32.le_iff_toNat_le.mp hhigh
  rw [Bool.or_eq_true, Bool.and_eq_true, Bool.and_eq_true, decide_eq_true_eq, decide_eq_true_eq,
    decide_eq_true_eq, decide_eq_true_eq] at h
  rcases h with ⟨-, hnine⟩ | ⟨ha, -⟩
  · have hnine : c.toNat ≤ 57 := UInt32.le_iff_toNat_le.mp (Char.le_def.mp hnine)
    omega
  · have ha : 97 ≤ c.toNat := UInt32.le_iff_toNat_le.mp (Char.le_def.mp ha)
    omega

theorem asciiLower_of_lowerHex {s : String} (h : ∀ c ∈ s.toList, isLowerHex c = true) :
    Texts.asciiLower s = s := by
  have hmap : s.toList.map Char.toLower = s.toList := by
    rw [List.map_congr_left (fun c hc => isLowerHex_toLower (h c hc)), List.map_id']
  rw [Texts.asciiLower, hmap, String.ofList_toList]

theorem isLowerHex_hexEncode {bytes : Bytes} :
    ∀ c ∈ (Numerals.hexEncode bytes).toList, isLowerHex c = true := by
  have hdigit : ∀ d < 16, isLowerHex (Nat.digitChar d) = true := by decide
  intro c hc
  rw [Numerals.hexEncode, String.toList_ofList, List.mem_flatMap] at hc
  obtain ⟨b, -, hc⟩ := hc
  have hb := b.toNat_lt
  rcases List.mem_cons.mp hc with rfl | hc
  · exact hdigit _ (by omega)
  · rw [List.mem_singleton] at hc
    rw [hc]
    exact hdigit _ (by omega)

theorem asciiLower_hexEncode (bytes : Bytes) :
    Texts.asciiLower (Numerals.hexEncode bytes) = Numerals.hexEncode bytes :=
  asciiLower_of_lowerHex isLowerHex_hexEncode

theorem stripPrefix_of_lowerHex {value : String}
    (h : ∀ c ∈ (Texts.asciiLower value).toList, isLowerHex c = true) :
    Texts.stripPrefix "b3:" value = none := by
  cases hstrip : Texts.stripPrefix "b3:" value with
  | none => rfl
  | some rest =>
    have hcolon : ':' ∈ (Texts.asciiLower value).toList := by
      rw [Texts.stripPrefix_eq_some hstrip, Texts.asciiLower, String.toList_ofList,
        String.toList_append, List.map_append]
      exact List.mem_append_left _ (by decide)
    exact absurd (h ':' hcolon) (by decide)

end Sealedge
