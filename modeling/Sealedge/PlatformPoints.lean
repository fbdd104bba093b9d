import Sealedge.PlatformRoutes

namespace Sealedge

open AtomicProgram

abbrev RouteExchange := Exchange PlatformOp PlatformOp.Resp

namespace ServerCrates

variable {w : ServerCrates}

/-- The middleware found the organization of the token. -/
def authenticated (w : ServerCrates) (token orgId : String) : RouteExchange :=
  ⟨.getOrgByTokenHash (w.hashToken token), .ok (some orgId)⟩

theorem follows_ret {a : Except RouteFailure RouteReply} {log : List RouteExchange} {q : RouteProg}
    (h : Follows (.ret a) log q) : log = [] ∧ q = .ret a := by
  cases log with
  | nil => exact ⟨rfl, (follows_nil.mp h).symm⟩
  | cons e log => exact absurd h follows_ret_cons

/-- A request behind the middleware asks for the organization, is refused, or goes on with one. -/
theorem follows_authMiddleware {authorization : Option String} {next : String → RouteProg}
    {log : List RouteExchange} {q : RouteProg}
    (h : Follows (w.authMiddleware authorization next) log q) :
    (∃ tokenHash k, q = .op (.getOrgByTokenHash tokenHash) k) ∨ (∃ e, q = .ret (.error e)) ∨
    ∃ token orgId rest, bearerToken authorization = some token ∧
      log = w.authenticated token orgId :: rest ∧ Follows (next orgId) rest q := by
  unfold authMiddleware at h
  split at h
  next => exact .inr (.inl ⟨_, (follows_ret h).2⟩)
  next token htoken =>
    cases log with
    | nil => exact .inl ⟨_, _, (follows_nil.mp h).symm⟩
    | cons e log =>
      replace h := follows_op_cons.mp h
      obtain ⟨found, rfl, h⟩ := h
      rcases found with error | (_ | orgId)
      · exact .inr (.inl ⟨_, (follows_ret h).2⟩)
      · exact .inr (.inl ⟨_, (follows_ret h).2⟩)
      · exact .inr (.inr ⟨token, orgId, log, htoken, rfl, h⟩)

section VerifyPoints

variable (w) (env : PlatformEnv) (request : VerifyRequest)

/-- The lookup of the signing key and its answer. -/
def lookedUp (found : Option RevocationState) : RouteExchange :=
  ⟨.query (.getDeviceRevocationByPub request.devicePub), .ok found⟩

/-- The statement that files the result. -/
def filing (found : Option RevocationState) (report : VerifyReport) : PlatformOp :=
  .createVerification nilUuid none (w.computeManifestDigestSha256 request.manifest)
    (report.forDb (found.elim .null RevocationState.annotate))

def filed (found : Option RevocationState) (report : VerifyReport) (id : String) : RouteExchange :=
  ⟨w.filing request found report, (.ok id : Except DbError String)⟩

/-- The statement that files the receipt, and its answer. -/
def receiptFiled (verificationId jws : String) (stored : Except DbError String) : RouteExchange :=
  ⟨.createReceipt verificationId jws env.keys.currentKid, stored⟩

/-- The request is in the required form, clears the floor that was looked up and gives this
report. -/
structure Reported (found : Option RevocationState) (report : VerifyReport) : Prop where
  valid : validateVerifyRequestFull request = .ok ()
  epoch : ∀ rev, found = some rev → epochAllowed rev.minEpoch (archiveEpoch request.manifest) = true
  report : verifyToReport w.crates w.serde request.manifest request.segments request.devicePub =
    .ok report

/-- The report calls for a receipt, and this is its token. -/
structure Signed (report : VerifyReport) (jws : String) : Prop where
  requested : request.options.returnReceipt = true
  signature : report.signatureVerification.passed = true
  continuity : report.continuityVerification.passed = true
  token : signReceiptJws env (receiptClaims w.crates w.serde env request report false) = .ok jws

/-- The points that a verify request goes through, each with the exchanges before it. -/
inductive VerifyPoint : List RouteExchange → RouteProg → Prop
  | refused {log : List RouteExchange} {e : RouteFailure} : VerifyPoint log (.ret (.error e))
  | lookingUp {k : Except DbError (Option RevocationState) → RouteProg} :
      VerifyPoint [] (.op (.query (.getDeviceRevocationByPub request.devicePub)) k)
  | filing {found : Option RevocationState} {report : VerifyReport}
      {k : Except DbError String → RouteProg} (reported : w.Reported request found report) :
      VerifyPoint [lookedUp request found] (.op (w.filing request found report) k)
  | filingReceipt {found : Option RevocationState} {report : VerifyReport} {id jws : String}
      {k : Except DbError String → RouteProg} (reported : w.Reported request found report)
      (signed : w.Signed env request report jws) :
      VerifyPoint [lookedUp request found, w.filed request found report id]
        (.op (.createReceipt id jws env.keys.currentKid) k)
  | unsigned {found : Option RevocationState} {report : VerifyReport} {id : String}
      (reported : w.Reported request found report) :
      VerifyPoint [lookedUp request found, w.filed request found report id]
        (.ret (.ok (.verified ⟨id, report, none⟩)))
  | answered {found : Option RevocationState} {report : VerifyReport} {id jws : String}
      (stored : Except DbError String) (reported : w.Reported request found report)
      (signed : w.Signed env request report jws) :
      VerifyPoint [lookedUp request found, w.filed request found report id,
          receiptFiled env id jws stored]
        (.ret (.ok (.verified ⟨(stored.toOption.map (fun rid => id ++ "/" ++ rid)).getD id, report,
          some jws⟩)))

variable {w env request}

theorem follows_fileReceipt {found : Option RevocationState} {report : VerifyReport} {id : String}
    {log : List RouteExchange} {q : RouteProg} (reported : w.Reported request found report)
    (h : Follows (w.fileReceipt env request false report id) log q) :
    w.VerifyPoint env request (lookedUp request found :: w.filed request found report id :: log)
      q := by
  unfold fileReceipt at h
  split at h
  next hpassed =>
    obtain ⟨hboth, hcontinuity⟩ := Bool.and_eq_true_iff.mp hpassed
    obtain ⟨hrequested, hsignature⟩ := Bool.and_eq_true_iff.mp hboth
    split at h
    next =>
      obtain ⟨-, rfl⟩ := follows_ret h
      exact .refused
    next jws hjws =>
      have hsigned : w.Signed env request report jws :=
        ⟨hrequested, hsignature, hcontinuity, hjws⟩
      cases log with
      | nil =>
        cases follows_nil.mp h
        exact .filingReceipt reported hsigned
      | cons e log =>
        replace h := follows_op_cons.mp h
        obtain ⟨stored, rfl, h⟩ := h
        rcases stored with e | rid
        · obtain ⟨rfl, rfl⟩ := follows_ret h
          exact .answered (.error e) reported hsigned
        · obtain ⟨rfl, rfl⟩ := follows_ret h
          exact .answered (.ok rid) reported hsigned
  next =>
    obtain ⟨rfl, rfl⟩ := follows_ret h
    exact .unsigned reported

theorem follows_fileVerification (found : Option RevocationState) {log : List RouteExchange}
    {q : RouteProg} (hvalid : validateVerifyRequestFull request = .ok ())
    (hepoch : ∀ rev, found = some rev →
      epochAllowed rev.minEpoch (archiveEpoch request.manifest) = true)
    (h : Follows (w.fileVerification env none request none false
      (found.elim .null RevocationState.annotate)) log q) :
    w.VerifyPoint env request (lookedUp request found :: log) q := by
  unfold fileVerification at h
  split at h
  next =>
    obtain ⟨-, rfl⟩ := follows_ret h
    exact .refused
  next report hreport =>
    have reported : w.Reported request found report := ⟨hvalid, hepoch, hreport⟩
    cases log with
    | nil =>
      cases follows_nil.mp h
      exact .filing reported
    | cons e log =>
      replace h := follows_op_cons.mp h
      obtain ⟨created, rfl, h⟩ := h
      rcases created with error | id
      · obtain ⟨-, rfl⟩ := follows_ret h
        exact .refused
      · exact follows_fileReceipt reported h

theorem follows_gateEpoch {log : List RouteExchange} {q : RouteProg}
    (hvalid : validateVerifyRequestFull request = .ok ())
    (h : Follows (w.gateEpoch env none request none false) log q) :
    w.VerifyPoint env request log q := by
  unfold gateEpoch at h
  cases log with
  | nil =>
    cases follows_nil.mp h
    exact .lookingUp
  | cons e log =>
    replace h := follows_op_cons.mp h
    obtain ⟨found, rfl, h⟩ := h
    rcases found with error | (_ | rev)
    · obtain ⟨-, rfl⟩ := follows_ret h
      exact .refused
    · exact follows_fileVerification none hvalid (fun rev hrev => by cases hrev) h
    · dsimp only at h
      split at h
      next =>
        obtain ⟨-, rfl⟩ := follows_ret h
        exact .refused
      next hallowed =>
        refine follows_fileVerification (some rev) hvalid ?_ h
        intro rev' hrev
        cases hrev
        simpa using hallowed

/-- The router gives the verify endpoint no organization, so a request goes through these points
only. -/
theorem follows_verifyRoute {log : List RouteExchange} {q : RouteProg}
    (h : Follows (w.verifyRoute env none request) log q) : w.VerifyPoint env request log q := by
  unfold verifyRoute at h
  split at h
  next =>
    obtain ⟨-, rfl⟩ := follows_ret h
    exact .refused
  next hvalid =>
    split at h
    next hctx => cases hctx
    next => exact follows_gateEpoch hvalid h

end VerifyPoints

section RouterPoints

variable (w)

/-- The points that a request goes through. Behind the middleware the first exchange gives the
organization of its token. -/
inductive RoutePoint : RouteRequest → List RouteExchange → RouteProg → Prop
  | refused {req : RouteRequest} {log : List RouteExchange} {e : RouteFailure} :
      RoutePoint req log (.ret (.error e))
  | verify {env : PlatformEnv} {request : VerifyRequest} {log : List RouteExchange} {q : RouteProg}
      (point : w.VerifyPoint env request log q) : RoutePoint (.verify env request) log q
  | witnessing {req : WitnessRequest} {log : List RouteExchange} {o : DbOp}
      {k : o.Resp → RouteProg} : RoutePoint (.witness req) log (.op (.query o) k)
  | witnessed {req : WitnessRequest} {log : List RouteExchange} {issued : IssuedReceipt} :
      RoutePoint (.witness req) log (.ret (.ok (.witnessed issued)))
  | authenticating {req : RouteRequest} {log : List RouteExchange} {tokenHash : String}
      {k : Except DbError (Option String) → RouteProg} :
      RoutePoint req log (.op (.getOrgByTokenHash tokenHash) k)
  | registering {authorization : Option String} {req : DeviceRequest} {token orgId : String}
      {k : Except DbError String → RouteProg} (bearer : bearerToken authorization = some token) :
      RoutePoint (.registerDevice authorization req) [w.authenticated token orgId]
        (.op (.createDevice orgId req.deviceId req.devicePub) k)
  | registered {authorization : Option String} {req : DeviceRequest} {log : List RouteExchange}
      {response : DeviceResponse} :
      RoutePoint (.registerDevice authorization req) log (.ret (.ok (.registered response)))
  | revoking {authorization : Option String} {id token orgId : String} {req : RevokeRequest}
      {log : List RevokeExchange} {o : RevokeOp} {k : o.Resp → RouteProg} {k' : o.Resp → RevokeProg}
      (bearer : bearerToken authorization = some token)
      (at' : Follows (revokeDeviceHandler w.instants ⟨orgId, id, req⟩) log (.op o k')) :
      RoutePoint (.revokeDevice authorization id req)
        (w.authenticated token orgId :: log.map (Exchange.within PlatformOp.revoke))
        (.op (.revoke o) k)
  | revoked {authorization : Option String} {id : String} {req : RevokeRequest}
      {log : List RouteExchange} {response : RevokeResponse} :
      RoutePoint (.revokeDevice authorization id req) log (.ret (.ok (.revoked response)))
  | fetching {authorization : Option String} {receiptId token orgId : String}
      {k : Except DbError (Option (String × String)) → RouteProg}
      (bearer : bearerToken authorization = some token) :
      RoutePoint (.getReceipt authorization receiptId) [w.authenticated token orgId]
        (.op (.getReceipt orgId receiptId) k)
  | fetched {authorization : Option String} {receiptId token orgId jws kid : String}
      (bearer : bearerToken authorization = some token) :
      RoutePoint (.getReceipt authorization receiptId)
        [w.authenticated token orgId, ⟨.getReceipt orgId receiptId, .ok (some (jws, kid))⟩]
        (.ret (.ok (.receipt ⟨receiptId, jws, kid, (w.parseJwsClaims jws).getD .null⟩)))

variable {w} {log : List RouteExchange} {q : RouteProg}

theorem follows_witness {req : WitnessRequest}
    (h : Follows (w.createRouter (.witness req)) log q) : w.RoutePoint (.witness req) log q := by
  obtain ⟨log', q', -, rfl, -⟩ := follows_within h
  cases q' with
  | op o k => exact .witnessing
  | ret answer =>
    rcases answer with refusal | issued
    · exact .refused
    · exact .witnessed

theorem follows_registerDevice {authorization : Option String} {req : DeviceRequest}
    (h : Follows (w.createRouter (.registerDevice authorization req)) log q) :
    w.RoutePoint (.registerDevice authorization req) log q := by
  rcases follows_authMiddleware h with ⟨_, _, rfl⟩ | ⟨_, rfl⟩ |
    ⟨token, org, rest, htoken, rfl, hnext⟩
  · exact .authenticating
  · exact .refused
  · cases rest with
    | nil =>
      cases follows_nil.mp hnext
      exact .registering htoken
    | cons e rest =>
      replace hnext := follows_op_cons.mp hnext
      obtain ⟨created, rfl, hnext⟩ := hnext
      rcases created with e | id
      · obtain ⟨-, rfl⟩ := follows_ret hnext
        exact .refused
      · obtain ⟨-, rfl⟩ := follows_ret hnext
        exact .registered

theorem follows_revokeDevice {authorization : Option String} {id : String} {req : RevokeRequest}
    (h : Follows (w.createRouter (.revokeDevice authorization id req)) log q) :
    w.RoutePoint (.revokeDevice authorization id req) log q := by
  rcases follows_authMiddleware h with ⟨_, _, rfl⟩ | ⟨_, rfl⟩ |
    ⟨token, org, rest, htoken, rfl, hnext⟩
  · exact .authenticating
  · exact .refused
  · obtain ⟨log', q', rfl, rfl, hfollows⟩ := follows_within hnext
    cases q' with
    | op o k => exact .revoking htoken hfollows
    | ret answer =>
      rcases answer with refusal | response
      · exact .refused
      · exact .revoked

theorem follows_getReceipt {authorization : Option String} {receiptId : String}
    (h : Follows (w.createRouter (.getReceipt authorization receiptId)) log q) :
    w.RoutePoint (.getReceipt authorization receiptId) log q := by
  rcases follows_authMiddleware h with ⟨_, _, rfl⟩ | ⟨_, rfl⟩ |
    ⟨token, org, rest, htoken, rfl, hnext⟩
  · exact .authenticating
  · exact .refused
  · cases rest with
    | nil =>
      cases follows_nil.mp hnext
      exact .fetching htoken
    | cons e rest =>
      replace hnext := follows_op_cons.mp hnext
      obtain ⟨found, rfl, hnext⟩ := hnext
      rcases found with error | (_ | ⟨jws, kid⟩)
      · obtain ⟨-, rfl⟩ := follows_ret hnext
        exact .refused
      · obtain ⟨-, rfl⟩ := follows_ret hnext
        exact .refused
      · obtain ⟨rfl, rfl⟩ := follows_ret hnext
        exact .fetched htoken

theorem follows_createRouter {req : RouteRequest} (h : Follows (w.createRouter req) log q) :
    w.RoutePoint req log q := by
  cases req with
  | verify env request => exact .verify (follows_verifyRoute h)
  | witness req => exact follows_witness h
  | registerDevice authorization req => exact follows_registerDevice h
  | revokeDevice authorization id req => exact follows_revokeDevice h
  | getReceipt authorization receiptId => exact follows_getReceipt h

end RouterPoints

end ServerCrates

end Sealedge
