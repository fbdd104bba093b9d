import Sealedge.PlatformStore
import Sealedge.JsonText

namespace Sealedge

open AtomicProgram

structure DeviceRequest where
  deviceId : String
  devicePub : String
  label : Option String

structure DeviceResponse where
  id : String
  deviceId : String
  devicePub : String
  label : Option String
  status : String
  deriving DecidableEq

structure ReceiptResponse where
  id : String
  jws : String
  kid : String
  claims : JsonValue

/-- The body of an answer with status 200. -/
inductive RouteReply
  | verified (response : VerifyResponse)
  | witnessed (issued : IssuedReceipt)
  | registered (response : DeviceResponse)
  | revoked (response : RevokeResponse)
  | receipt (response : ReceiptResponse)

/-- Any other answer: a bare status, or one with a text or an error object. -/
inductive RouteFailure
  | status (code : Nat)
  | witness (refusal : Refusal)
  | revoke (refusal : RevokeRefusal)
  | verify (error : HttpError)

abbrev RouteProg := Prog PlatformOp PlatformOp.Resp (Except RouteFailure RouteReply)

/-- The crates that the server calls. -/
structure ServerCrates where
  crates : Crates
  serde : ManifestSerde
  json : JsonCrate
  sha256 : Bytes → Digest
  instants : InstantReader

/-- The organization that a migration seeds, for requests without one. -/
def nilUuid : String := "00000000-0000-0000-0000-000000000000"

/-- The revocation columns as they are filed with a verification. -/
def RevocationState.annotate (rev : RevocationState) : JsonValue :=
  .object [("min_epoch", rev.minEpoch.elim .null (fun e => .number (.posInt e.toUInt64))),
    ("revoked_at", rev.revokedAt.elim .null .string)]

def VerificationResult.forDb (result : VerificationResult) : JsonValue :=
  .object [("error", result.error.elim .null .string), ("passed", .bool result.passed)]

/-- The report as it is filed. -/
def VerifyReport.forDb (report : VerifyReport) (revocation : JsonValue) : JsonValue :=
  .object [("continuity_verification", report.continuityVerification.forDb),
    ("metadata", .object [("chain_tip", .string report.metadata.chainTip),
      ("genesis_hash", .string report.metadata.genesisHash),
      ("total_segments", .number (.posInt report.metadata.totalSegments.toUInt64)),
      ("verified_segments", .number (.posInt report.metadata.verifiedSegments.toUInt64))]),
    ("revocation", revocation),
    ("signature_verification", report.signatureVerification.forDb)]

namespace ServerCrates

variable (w : ServerCrates)

/-- SHA-256 in lowercase hexadecimal. -/
def hashToken (token : String) : String :=
  Numerals.hexEncode (w.sha256 (intoBytes token)).val

def computeManifestDigestSha256 (manifest : JsonValue) : String :=
  Numerals.hexEncode (w.sha256 (intoBytes (w.serde.toText manifest))).val

/-- The claims in the middle part of a token. -/
def parseJwsClaims (jws : String) : Option JsonValue :=
  match (jws.toList.splitOn '.').map String.ofList with
  | [_, payload, _] => (Base64.urlDecode payload).bind w.json.parse
  | _ => none

/-- The token of a header, which is `none` when it is absent or not text. -/
def bearerToken (authorization : Option String) : Option String :=
  authorization.bind (Texts.stripPrefix "Bearer ")

def authMiddleware (authorization : Option String) (next : String → RouteProg) : RouteProg :=
  match bearerToken authorization with
  | none => .ret (.error (.status 401))
  | some token =>
    .op (.getOrgByTokenHash (w.hashToken token)) fun found =>
      match (found : Except DbError (Option String)) with
      | .error _ => .ret (.error (.status 500))
      | .ok none => .ret (.error (.status 401))
      | .ok (some orgId) => next orgId

def registerDeviceHandler (req : DeviceRequest) (orgId : String) : RouteProg :=
  .op (.createDevice orgId req.deviceId req.devicePub) fun created =>
    match (created : Except DbError String) with
    | .error _ => .ret (.error (.status 500))
    | .ok id => .ret (.ok (.registered ⟨id, req.deviceId, req.devicePub, req.label, "active"⟩))

def getReceiptHandler (receiptId orgId : String) : RouteProg :=
  .op (.getReceipt orgId receiptId) fun found =>
    match (found : Except DbError (Option (String × String))) with
    | .error _ => .ret (.error (.status 500))
    | .ok none => .ret (.error (.status 404))
    | .ok (some (jws, kid)) =>
      .ret (.ok (.receipt ⟨receiptId, jws, kid, (w.parseJwsClaims jws).getD .null⟩))

section VerifyRoute

variable (env : PlatformEnv) (orgCtx : Option String) (request : VerifyRequest)

/-- The end of the verify endpoint: sign the receipt and file it. -/
def fileReceipt (deviceRegistered : Bool) (report : VerifyReport) (verificationId : String) :
    RouteProg :=
  if request.options.returnReceipt && report.signatureVerification.passed &&
      report.continuityVerification.passed then
    match signReceiptJws env
      (receiptClaims w.crates w.serde env request report deviceRegistered) with
    | .error _ =>
      .ret (.error (.verify ⟨500, "receipt_signing_failed", "Receipt generation failed"⟩))
    | .ok jws =>
      .op (.createReceipt verificationId jws env.keys.currentKid) fun stored =>
        match (stored : Except DbError String) with
        | .ok rid => .ret (.ok (.verified ⟨verificationId ++ "/" ++ rid, report, some jws⟩))
        | .error _ => .ret (.ok (.verified ⟨verificationId, report, some jws⟩))
  else .ret (.ok (.verified ⟨verificationId, report, none⟩))

/-- Verify the archive and file the result. -/
def fileVerification (deviceId : Option String) (deviceRegistered : Bool)
    (revocation : JsonValue) : RouteProg :=
  match verifyToReport w.crates w.serde request.manifest request.segments request.devicePub with
  | .error _ =>
    .ret (.error (.verify ⟨400, "verification_failed", "Cryptographic verification failed"⟩))
  | .ok report =>
    .op (.createVerification (orgCtx.getD nilUuid) deviceId
        (w.computeManifestDigestSha256 request.manifest) (report.forDb revocation)) fun created =>
      match (created : Except DbError String) with
      | .error _ =>
        .ret (.error (.verify ⟨500, "database_error", "Failed to create verification record"⟩))
      | .ok id => w.fileReceipt env request deviceRegistered report id

/-- The gate on the epoch of the archive. -/
def gateEpoch (deviceId : Option String) (deviceRegistered : Bool) : RouteProg :=
  .op (.query (.getDeviceRevocationByPub request.devicePub)) fun found =>
    match (found : Except DbError (Option RevocationState)) with
    | .error _ =>
      .ret (.error (.verify ⟨500, "database_error", "Failed to query device revocation"⟩))
    | .ok none => w.fileVerification env orgCtx request deviceId deviceRegistered .null
    | .ok (some rev) =>
      if !epochAllowed rev.minEpoch (archiveEpoch request.manifest) then
        .ret (.error (.verify ⟨403, "epoch_below_min",
          "archive key_epoch is below the device's min_epoch floor"⟩))
      else w.fileVerification env orgCtx request deviceId deviceRegistered rev.annotate

/-- `verify_handler` with the feature `postgres`, one atomic operation at a time. -/
def verifyRoute : RouteProg :=
  match validateVerifyRequestFull request with
  | .error e => .ret (.error (.verify ⟨400, e⟩))
  | .ok _ =>
    match request.options.deviceId, orgCtx with
    | some deviceId, some orgId =>
      .op (.getDeviceWithPub orgId deviceId) fun record =>
        match (record : Except DbError (Option (String × String))) with
        | .error _ => .ret (.error (.verify ⟨500, "database_error", "Failed to query device"⟩))
        | .ok none =>
          .ret (.error (.verify ⟨403, "unknown_device",
            "device_id is not registered for this organization"⟩))
        | .ok (some (id, storedPub)) =>
          if storedPub ≠ request.devicePub then
            .ret (.error (.verify ⟨403, "device_key_mismatch",
              "device_pub does not match the registered key for device_id"⟩))
          else w.gateEpoch env orgCtx request (some id) true
    | _, _ => w.gateEpoch env orgCtx request none false

end VerifyRoute

end ServerCrates

/-- A request that the extractors have read. What the verify endpoint finds outside, such as the
clock, comes with it. -/
inductive RouteRequest
  | verify (env : PlatformEnv) (request : VerifyRequest)
  | witness (req : WitnessRequest)
  | registerDevice (authorization : Option String) (req : DeviceRequest)
  | revokeDevice (authorization : Option String) (id : String) (req : RevokeRequest)
  | getReceipt (authorization : Option String) (receiptId : String)

/-- The header that the middleware reads; the public routes have no middleware. -/
def RouteRequest.authorization : RouteRequest → Option String
  | verify _ _ => none
  | witness _ => none
  | registerDevice authorization _ => authorization
  | revokeDevice authorization _ _ => authorization
  | getReceipt authorization _ => authorization

/-- `create_router`: only the routes behind the middleware have an organization. -/
def ServerCrates.createRouter (w : ServerCrates) : RouteRequest → RouteProg
  | .verify env request => w.verifyRoute env none request
  | .witness req =>
    (witnessHandler w.crates req).within PlatformOp.query
      (fun answer => (answer.mapError RouteFailure.witness).map RouteReply.witnessed)
  | .registerDevice authorization req =>
    w.authMiddleware authorization (registerDeviceHandler req)
  | .revokeDevice authorization id req =>
    w.authMiddleware authorization fun orgId =>
      (revokeDeviceHandler w.instants ⟨orgId, id, req⟩).within PlatformOp.revoke
        (fun answer => (answer.mapError RouteFailure.revoke).map RouteReply.revoked)
  | .getReceipt authorization receiptId =>
    w.authMiddleware authorization (w.getReceiptHandler receiptId)

end Sealedge
