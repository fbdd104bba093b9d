import Sealedge.PlatformRuns

namespace Sealedge

open AtomicProgram

/-- The rows of an organization. -/
def Devices.ofOrg (devices : Devices) (orgId : String) : List DeviceRecord :=
  devices.rows.filter (fun row => row.orgId == orgId)

def AuditTrail.ofOrg (audit : AuditTrail) (orgId : String) : List VerificationRow :=
  audit.verifications.filter (fun row => row.orgId == orgId)

/-- Nothing that belongs to the organization has changed. -/
structure PlatformStore.SameFor (orgId : String) (s t : PlatformStore) : Prop where
  devices : t.devices.ofOrg orgId = s.devices.ofOrg orgId
  verifications : orgId ≠ nilUuid → t.audit.ofOrg orgId = s.audit.ofOrg orgId

theorem Devices.createDevice_ofOrg {devices devices' : Devices} {row : DeviceRecord}
    {orgId : String} (h : devices.createDevice row = some devices') (horg : row.orgId ≠ orgId) :
    devices'.ofOrg orgId = devices.ofOrg orgId := by
  unfold Devices.createDevice at h
  split at h
  next =>
    cases h
    show (devices.rows ++ [row]).filter _ = _
    rw [List.filter_append, List.filter_cons_of_neg (by simpa using horg), List.filter_nil,
      List.append_nil]
    rfl
  next => cases h

theorem Devices.setDeviceRevocation_ofOrg (devices : Devices) {org orgId : String}
    (id revokedAt : String) (minEpoch : Option UInt32) (horg : org ≠ orgId) :
    (devices.setDeviceRevocation org id revokedAt minEpoch).ofOrg orgId = devices.ofOrg orgId := by
  show (devices.rows.map (updated org id revokedAt minEpoch)).filter _ = devices.rows.filter _
  induction devices.rows with
  | nil => rfl
  | cons row rows ih =>
    have hkeeps := (updated_keeps org id revokedAt minEpoch row).2.1
    rw [List.map_cons]
    by_cases hrow : row.orgId = orgId
    · have hsame : updated org id revokedAt minEpoch row = row :=
        if_neg fun hmatch => horg (hmatch.2.symm.trans hrow)
      rw [hsame, List.filter_cons_of_pos (by simpa using hrow),
        List.filter_cons_of_pos (by simpa using hrow), ih]
    · rw [List.filter_cons_of_neg (by simpa [hkeeps] using hrow),
        List.filter_cons_of_neg (by simpa using hrow), ih]

theorem AuditTrail.ofOrg_createVerification {audit audit' : AuditTrail} {row : VerificationRow}
    {orgId : String} (h : audit.createVerification row = some audit') (horg : row.orgId ≠ orgId) :
    audit'.ofOrg orgId = audit.ofOrg orgId := by
  unfold AuditTrail.ofOrg
  rw [(createVerification_eq_some h).1, List.filter_append,
    List.filter_cons_of_neg (by simpa using horg), List.filter_nil, List.append_nil]

/-- A revoke request updates the device in its path, for the organization it acts for. -/
theorem revokeDeviceHandler_target {parse : InstantReader} {call : RevokeCall}
    {log : List RevokeExchange} {orgId id revokedAt : String} {minEpoch : Option UInt32}
    {k : Except DbError Bool → RevokeProg}
    (h : Follows (revokeDeviceHandler parse call) log
      (.op (.setDeviceRevocation orgId id revokedAt minEpoch) k)) :
    call.orgId = orgId ∧ call.id = id := by
  unfold revokeDeviceHandler at h
  rcases log with _ | ⟨e₁, log⟩
  · cases follows_nil.mp h
  replace h := follows_op_cons.mp h
  obtain ⟨found, rfl, h⟩ := h
  rcases found with e | (_ | ⟨devicePub, current⟩)
  · exact absurd h not_follows_ret_op
  · exact absurd h not_follows_ret_op
  rcases log with _ | ⟨e₂, log⟩
  · cases follows_nil.mp h
  replace h := follows_op_cons.mp h
  obtain ⟨now, rfl, h⟩ := h
  split at h
  next => exact absurd h not_follows_ret_op
  next =>
    rcases log with _ | ⟨e₃, log⟩
    · cases follows_nil.mp h
      exact ⟨rfl, rfl⟩
    · replace h := follows_op_cons.mp h
      obtain ⟨updated, rfl, h⟩ := h
      rcases updated with e | (_ | _)
      · exact absurd h not_follows_ret_op
      · exact absurd h not_follows_ret_op
      · exact absurd h not_follows_ret_op

namespace ServerCrates

variable {w : ServerCrates} {requests : List RouteRequest} {start : PlatformStore}
  {events : List PlatformEvent} {orgId : String}

/-- What the middleware told a request is so. -/
def TruthfulLog (w : ServerCrates) (s : PlatformStore) (log : List RouteExchange) : Prop :=
  ∀ token org, w.authenticated token org ∈ log →
    (⟨org, w.hashToken token⟩ : ApiKey) ∈ s.tenants.apiKeys

/-- No request carries a key of the organization. -/
def NoKeyOf (w : ServerCrates) (requests : List RouteRequest) (orgId : String)
    (s : PlatformStore) : Prop :=
  ∀ req ∈ requests, ∀ token, bearerToken req.authorization = some token →
    (⟨orgId, w.hashToken token⟩ : ApiKey) ∉ s.tenants.apiKeys

/-- One operation of a request leaves every organization alone but that of its token. -/
theorem RoutePoint.sameFor {req : RouteRequest} {log : List RouteExchange} {o : PlatformOp}
    {k : o.Resp → RouteProg} {r : o.Resp} {s t : PlatformStore}
    (hpoint : w.RoutePoint req log (.op o k)) (hreq : req ∈ requests)
    (htruth : w.TruthfulLog s log) (hforeign : w.NoKeyOf requests orgId s)
    (heffect : PlatformStore.Effect s o r t) : s.SameFor orgId t := by
  cases heffect with
  | ledger witnessLog deviceLineage => exact ⟨rfl, fun _ => rfl⟩
  | receipt inserted =>
    refine ⟨rfl, fun _ => ?_⟩
    show List.filter _ _ = List.filter _ _
    rw [(AuditTrail.createReceipt_eq_some inserted).1]
  | verification inserted =>
    refine ⟨rfl, fun hne => ?_⟩
    cases hpoint with
    | verify point =>
      cases point with
      | filing reported => exact AuditTrail.ofOrg_createVerification inserted hne.symm
  | @device id org deviceId devicePub devices inserted =>
    cases hpoint with
    | verify point => cases point
    | @registering _ _ token _ _ bearer =>
      have hkey := htruth token org List.mem_cons_self
      have hne : org ≠ orgId := fun he => hforeign _ hreq token bearer (he ▸ hkey)
      exact ⟨Devices.createDevice_ofOrg inserted hne, fun _ => rfl⟩
  | @revocation org id revokedAt minEpoch r =>
    cases hpoint with
    | verify point => cases point
    | @revoking _ _ token _ _ _ _ _ _ bearer hat =>
      obtain ⟨rfl, -⟩ := revokeDeviceHandler_target hat
      have hkey := htruth token _ List.mem_cons_self
      have hne : _ ≠ orgId := fun he => hforeign _ hreq token bearer (he ▸ hkey)
      exact ⟨s.devices.setDeviceRevocation_ofOrg id revokedAt minEpoch hne, fun _ => rfl⟩

/-- The condition under which an operation is judged: the log is truthful, and the keys are among
those of the end. -/
def Foreseen (w : ServerCrates) (last s : PlatformStore) (log : List RouteExchange)
    (_ : PlatformOp) : Prop :=
  w.TruthfulLog s log ∧ s.tenants.apiKeys ⊆ last.tenants.apiKeys

theorem foreseen_run (last : PlatformStore)
    (hlast : (w.serve requests start events).store = last) :
    AllowedRun platformStore (w.Foreseen last) (launch start (requests.map w.createRouter))
      events := by
  refine allowedRun_of_tracked (respects_develops) ?_ (tracked_launch respects_develops)
    (allowedRun_of_always (fun _ _ _ => trivial) _ _) hlast
  intro p hp hahead i o k log ht _
  exact ⟨fun token org hmem => key_of_authenticated hp ht hmem, hahead.apiKeys⟩

theorem respects_sameFor {last : PlatformStore} (hforeign : w.NoKeyOf requests orgId last) :
    Respects platformStore (requests.map w.createRouter) (w.Foreseen last)
      (PlatformStore.SameFor orgId) where
  refl s := ⟨rfl, fun _ => rfl⟩
  trans hst htu := ⟨htu.devices.trans hst.devices,
    fun hne => (htu.verifications hne).trans (hst.verifications hne)⟩
  other a s := by
    obtain ⟨hdevices, haudit⟩ := a.keeps s
    exact ⟨congrArg (·.ofOrg orgId) hdevices, fun _ => congrArg (·.ofOrg orgId) haudit⟩
  own := by
    intro p hp log o k hf s fate hal
    obtain ⟨req, hreq, rfl⟩ := List.mem_map.mp hp
    have hnow : w.NoKeyOf requests orgId s := fun req hreq token htoken hkey =>
      hforeign req hreq token htoken (hal.2 hkey)
    exact (follows_createRouter hf).sameFor hreq hal.1 hnow (PlatformStore.perform_effect o fate s)

/-- In every interleaving an organization's devices and verifications change only through requests
that carry one of its keys. -/
theorem tenant_isolation
    (hforeign : w.NoKeyOf requests orgId (w.serve requests start events).store) :
    start.SameFor orgId (w.serve requests start events).store :=
  run_rel (respects_sameFor hforeign) events (tracked_launch (respects_sameFor hforeign))
    (foreseen_run _ rfl)

/-- The first tenant asks for a revocation of the other's device, and registers one. -/
def foreignRequests : List RouteRequest :=
  [.revokeDevice (some "Bearer alpha") "device-2" ⟨none, some 9⟩,
    .registerDevice (some "Bearer alpha") ⟨"cam-1", "ed25519:BBBB", none⟩]

theorem tenant_isolation_sample :
    ((samplePlatformServer noSerde).serve foreignRequests twoTenants
      (platformTurns "device-1" [0, 1, 0, 1])).store.devices.rows.length = 2 ∧
    twoTenants.SameFor "org-2" ((samplePlatformServer noSerde).serve foreignRequests twoTenants
      (platformTurns "device-1" [0, 1, 0, 1])).store := by
  have hkeys : ((samplePlatformServer noSerde).serve foreignRequests twoTenants
      (platformTurns "device-1" [0, 1, 0, 1])).store.tenants.apiKeys =
        twoTenants.tenants.apiKeys := rfl
  have htokens : ∀ req ∈ foreignRequests, bearerToken req.authorization = some "alpha" := by
    decide
  have hforeign : (samplePlatformServer noSerde).NoKeyOf foreignRequests "org-2"
      ((samplePlatformServer noSerde).serve foreignRequests twoTenants
        (platformTurns "device-1" [0, 1, 0, 1])).store := by
    intro req hreq token htoken
    obtain rfl := Option.some.inj ((htokens req hreq).symm.trans htoken)
    rw [hkeys]
    decide +kernel
  exact ⟨by decide +kernel, tenant_isolation hforeign⟩

end ServerCrates

end Sealedge
