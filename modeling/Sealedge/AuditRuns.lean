import Sealedge.PlatformRuns

namespace Sealedge

open AtomicProgram

namespace ServerCrates

variable {w : ServerCrates} {requests : List RouteRequest} {start : PlatformStore}
  {events : List PlatformEvent} {i : Nat}

/-- The answer to a verify request is on file: the report and, if the answer names one, the
receipt. -/
def OnFile (w : ServerCrates) (audit : AuditTrail) (request : VerifyRequest)
    (response : VerifyResponse) : Prop :=
  ∃ row ∈ audit.verifications, row.orgId = nilUuid ∧ row.deviceId = none ∧
    row.manifestDigest = w.computeManifestDigestSha256 request.manifest ∧
    (∃ revocation, row.resultJson = response.result.forDb revocation) ∧
    (response.verificationId = row.id ∨
      ∃ receipt ∈ audit.receipts, receipt.verificationId = row.id ∧
        response.verificationId = row.id ++ "/" ++ receipt.id ∧
        response.receipt = some receipt.jws)

/-- A stored receipt is the token of claims that bear out, for a device that is not registered. -/
def AttestedBy (w : ServerCrates) (requests : List RouteRequest) (receipt : ReceiptRow) : Prop :=
  ∃ env request claims m hashes, RouteRequest.verify env request ∈ requests ∧
    signReceiptJws env claims = .ok receipt.jws ∧ receipt.kid = env.keys.currentKid ∧
    claims.deviceRegistered = false ∧ Attested w.crates w.serde request claims m hashes

theorem IssuedBy.attestedBy {receipt : ReceiptRow}
    (h : w.IssuedBy requests receipt.jws receipt.kid) : w.AttestedBy requests receipt := by
  obtain ⟨env, request, found, report, hreq, reported, signed, hkid⟩ := h
  have hpasses : report.passes = true :=
    Bool.and_eq_true_iff.mpr ⟨signed.signature, signed.continuity⟩
  obtain ⟨m, hashes, hattested⟩ :=
    attested_of_report env false reported.valid reported.report hpasses
  exact ⟨env, request, _, m, hashes, hreq, signed.token, hkid, rfl, hattested⟩

section Filed

variable {prog : RouteProg} {log : List RouteExchange} {request : VerifyRequest}
  {found : Option RevocationState} {report : VerifyReport} {id jws rid : String}
  {env : PlatformEnv}

theorem mem_of_filed (ht : (w.serve requests start events).threads[i]? = some ⟨prog, log⟩)
    (hmem : w.filed request found report id ∈ log) :
    ⟨id, nilUuid, none, w.computeManifestDigestSha256 request.manifest,
      report.forDb (found.elim .null RevocationState.annotate)⟩ ∈
      (w.serve requests start events).store.audit.verifications := by
  obtain ⟨s, fate, -, hanswer, hdevelops⟩ :=
    (w.tracked_serve requests start events).seen ht hmem
  exact hdevelops.verifications (PlatformStore.mem_of_createVerification hanswer)

theorem mem_of_receiptFiled
    (ht : (w.serve requests start events).threads[i]? = some ⟨prog, log⟩)
    (hmem : receiptFiled env id jws (.ok rid) ∈ log) :
    ⟨rid, id, jws, env.keys.currentKid⟩ ∈
      (w.serve requests start events).store.audit.receipts := by
  obtain ⟨s, fate, -, hanswer, hdevelops⟩ :=
    (w.tracked_serve requests start events).seen ht hmem
  exact hdevelops.receipts (PlatformStore.mem_of_createReceipt hanswer)

end Filed

/-- In every interleaving the audit trail and the answers agree: what a verify request answers is
on file, and every receipt on file is one that a verify request of the run was due. -/
theorem audit_trail_agrees (w : ServerCrates) (requests : List RouteRequest)
    (start : PlatformStore) (events : List PlatformEvent) :
    (∀ (i : Nat) env request response, requests[i]? = some (.verify env request) →
      (w.serve requests start events).result i = some (.ok (.verified response)) →
      w.OnFile (w.serve requests start events).store.audit request response) ∧
    ∀ receipt ∈ (w.serve requests start events).store.audit.receipts,
      receipt ∈ start.audit.receipts ∨ w.AttestedBy requests receipt := by
  constructor
  · intro i env request response hreq hresult
    obtain ⟨req, log, hreq', ht, hpoint⟩ := point_of_result hresult
    obtain rfl := Option.some.inj (hreq.symm.trans hreq')
    cases hpoint with
    | verify point =>
      cases point with
      | unsigned reported =>
        have hrow := mem_of_filed ht (List.mem_cons_of_mem _ List.mem_cons_self)
        exact ⟨_, hrow, rfl, rfl, rfl, ⟨_, rfl⟩, .inl rfl⟩
      | answered stored reported signed =>
        have hrow := mem_of_filed ht (List.mem_cons_of_mem _ List.mem_cons_self)
        refine ⟨_, hrow, rfl, rfl, rfl, ⟨_, rfl⟩, ?_⟩
        cases stored with
        | error e => exact .inl rfl
        | ok rid =>
          have hreceipt := mem_of_receiptFiled ht
            (List.mem_cons_of_mem _ (List.mem_cons_of_mem _ List.mem_cons_self))
          exact .inr ⟨_, hreceipt, rfl, rfl, rfl⟩
  · intro receipt hreceipt
    exact ((w.tracked_serve requests start events).moved.issued receipt hreceipt).imp_right
      IssuedBy.attestedBy

/-- The sample database before any device is registered. -/
def noDevices : PlatformStore :=
  { twoTenants with
    devices := { rows := [], uniqueId := by simp, uniquePub := by simp, primaryKey := by simp } }

/-- Alone on a server, a request whose report passes gets its receipt in three steps. -/
theorem serve_receipt_sample {serde : ManifestSerde} {request : VerifyRequest}
    {report : VerifyReport} (hvalid : validateVerifyRequestFull request = .ok ())
    (hreport : verifyToReport sampleCrates serde request.manifest request.segments
      request.devicePub = .ok report)
    (hpasses : (request.options.returnReceipt && report.signatureVerification.passed &&
      report.continuityVerification.passed) = true) :
    ∃ store log, (samplePlatformServer serde).serve [.verify samplePlatform request] noDevices
        (platformTurns "row-2" [0, 0, 0]) =
      ⟨store, [⟨.ret (.ok (.verified
        ⟨"row-2/row-2", report, some "header.payload.signature"⟩)), log⟩]⟩ ∧
      (⟨"row-2", "row-2", "header.payload.signature", "platform-1"⟩ : ReceiptRow) ∈
        store.audit.receipts := by
  let w := samplePlatformServer serde
  have hreport : verifyToReport w.crates w.serde request.manifest request.segments
      request.devicePub = .ok report := hreport
  have hroute : w.createRouter (.verify samplePlatform request) =
      w.gateEpoch samplePlatform none request none false := by
    show w.verifyRoute samplePlatform none request = _
    unfold verifyRoute
    rw [hvalid]
    cases request.options.deviceId <;> rfl
  have hlookup : run platformStore
      (launch noDevices [w.gateEpoch samplePlatform none request none false])
      (platformTurns "row-2" [0, 0, 0]) =
      run platformStore ⟨noDevices, [⟨w.fileVerification samplePlatform none request none false .null,
        [lookedUp request none]⟩]⟩ (platformTurns "row-2" [0, 0]) := rfl
  have hfiled : run platformStore ⟨noDevices, [⟨w.fileVerification samplePlatform none request none
        false .null, [lookedUp request none]⟩]⟩ (platformTurns "row-2" [0, 0]) =
      run platformStore ⟨(platformStore.perform (w.filing request none report)
        (.ok "row-2" : Except DbError String) noDevices).2,
        [⟨w.fileReceipt samplePlatform request false report "row-2",
          [lookedUp request none, w.filed request none report "row-2"]⟩]⟩
        (platformTurns "row-2" [0]) := by
    rw [fileVerification, hreport]
    rfl
  unfold serve
  rw [List.map_cons, hroute, List.map_nil, hlookup, hfiled, fileReceipt, if_pos hpasses]
  exact ⟨_, _, rfl, List.mem_append_right noDevices.audit.receipts List.mem_cons_self⟩

theorem audit_trail_sample :
    ∃ (serde : ManifestSerde) (request : VerifyRequest) (response : VerifyResponse)
      (pool : PlatformPool) (receipt : ReceiptRow),
      pool = (samplePlatformServer serde).serve [.verify samplePlatform request] noDevices
        (platformTurns "row-2" [0, 0, 0]) ∧
      pool.result 0 = some (.ok (.verified response)) ∧
      (samplePlatformServer serde).OnFile pool.store.audit request response ∧
      receipt ∈ pool.store.audit.receipts ∧ response.receipt = some receipt.jws ∧
      (samplePlatformServer serde).AttestedBy [.verify samplePlatform request] receipt := by
  obtain ⟨a, request, report, hoptions, hvalid, hreport, hpasses⟩ := sample_emitted
  obtain ⟨hsignature, hcontinuity⟩ := Bool.and_eq_true_iff.mp hpasses
  obtain ⟨store, log, hrun, hmem⟩ := serve_receipt_sample hvalid hreport
    (by rw [hoptions, hsignature, hcontinuity]; rfl)
  obtain ⟨honFile, hattested⟩ := audit_trail_agrees (samplePlatformServer (sampleSerde a.manifest))
    [.verify samplePlatform request] noDevices (platformTurns "row-2" [0, 0, 0])
  rw [hrun] at honFile hattested
  exact ⟨_, request, _, _, _, hrun.symm, rfl, honFile 0 _ _ _ rfl rfl, hmem, rfl,
    (hattested _ hmem).resolve_left (by decide)⟩

/-- No tenant is ever served a receipt: the verify endpoint files every verification under the
organization of the unauthenticated, so only a key of that one finds any. -/
theorem receipts_only_for_anonymous
    (hstart : ∀ row ∈ start.audit.verifications, row.orgId = nilUuid)
    {response : ReceiptResponse}
    (h : (w.serve requests start events).result i = some (.ok (.receipt response))) :
    ∃ req token, requests[i]? = some req ∧ ServerCrates.bearerToken req.authorization = some token ∧
      (⟨nilUuid, w.hashToken token⟩ : ApiKey) ∈
        (w.serve requests start events).store.tenants.apiKeys := by
  obtain ⟨req, log, hreq, ht, hpoint⟩ := point_of_result h
  cases hpoint with
  | verify point => cases point
  | @fetched authorization receiptId token orgId jws kid bearer =>
    have hkey := key_of_authenticated (w.tracked_serve requests start events) ht List.mem_cons_self
    obtain ⟨s, fault, hdevelops, hanswer, -⟩ := (w.tracked_serve requests start events).seen ht
      (List.mem_cons_of_mem _ List.mem_cons_self)
    have hfound : s.audit.getReceipt orgId receiptId = some (jws, kid) := by
      cases (fault : Option DbError) with
      | some e => cases hanswer
      | none => exact (Except.ok.inj hanswer).symm
    obtain ⟨-, -, row, hrow, -, -, -, -, horg⟩ := AuditTrail.getReceipt_eq_some hfound
    have hnil : orgId = nilUuid := by
      rcases hdevelops.anonymous row hrow with hold | hnew
      · exact horg.symm.trans (hstart row hold)
      · exact horg.symm.trans hnew.1
    exact ⟨_, token, hreq, bearer, hnil ▸ hkey⟩

/-- A server whose only request asks for the receipt on file, with the key named `beta`. -/
def receiptServer : PlatformPool :=
  (samplePlatformServer noSerde).serve [.getReceipt (some "Bearer beta") "receipt-1"] twoTenants
    (platformTurns "" [0, 0])

theorem receipt_served_to_anonymous :
    ∃ response, receiptServer.result 0 = some (.ok (.receipt response)) ∧
      ∃ req token, [RouteRequest.getReceipt (some "Bearer beta") "receipt-1"][0]? = some req ∧
        bearerToken req.authorization = some token ∧
        (⟨nilUuid, (samplePlatformServer noSerde).hashToken token⟩ : ApiKey) ∈
          receiptServer.store.tenants.apiKeys := by
  have hstart : ∀ row ∈ twoTenants.audit.verifications, row.orgId = nilUuid := by
    intro row hrow
    rw [List.mem_singleton.mp hrow]
  have hserved : receiptServer.result 0 = some (.ok (.receipt ⟨"receipt-1",
      "header.payload.signature", "platform-1",
      ((samplePlatformServer noSerde).parseJwsClaims "header.payload.signature").getD .null⟩)) :=
    rfl
  exact ⟨_, hserved, receipts_only_for_anonymous hstart hserved⟩

end ServerCrates

end Sealedge
