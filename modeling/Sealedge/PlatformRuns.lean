import Sealedge.ManifestTransport
import Sealedge.PlatformPoints

namespace Sealedge

open AtomicProgram

abbrev PlatformEvent := Event PlatformOp PlatformOp.Fate Administration

abbrev PlatformPool :=
  Pool PlatformStore PlatformOp PlatformOp.Resp (Except RouteFailure RouteReply)

namespace ServerCrates

variable (w : ServerCrates) (requests : List RouteRequest)

/-- The server after these events: its requests interleave in any order, statements fail or not,
and an operator creates organizations and keys meanwhile. -/
def serve (start : PlatformStore) (events : List PlatformEvent) : PlatformPool :=
  run platformStore (launch start (requests.map w.createRouter)) events

/-- The token comes from a verify request of the run, whose report calls for it. -/
def IssuedBy (jws kid : String) : Prop :=
  ∃ env request found report, RouteRequest.verify env request ∈ requests ∧
    w.Reported request found report ∧ w.Signed env request report jws ∧
    kid = env.keys.currentKid

/-- How the database develops: rows of these tables stay, and new ones come from the verify
endpoint. -/
structure Develops (s t : PlatformStore) : Prop where
  apiKeys : s.tenants.apiKeys ⊆ t.tenants.apiKeys
  verifications : s.audit.verifications ⊆ t.audit.verifications
  receipts : s.audit.receipts ⊆ t.audit.receipts
  anonymous : ∀ v ∈ t.audit.verifications,
    v ∈ s.audit.verifications ∨ v.orgId = nilUuid ∧ v.deviceId = none
  issued : ∀ r ∈ t.audit.receipts, r ∈ s.audit.receipts ∨ w.IssuedBy requests r.jws r.kid

variable {w requests} {s t u start : PlatformStore} {events : List PlatformEvent}

theorem Develops.of_same (hkeys : s.tenants.apiKeys ⊆ t.tenants.apiKeys)
    (haudit : t.audit = s.audit) : w.Develops requests s t := by
  refine ⟨hkeys, ?_, ?_, ?_, ?_⟩
  · rw [haudit]
    exact List.Subset.refl _
  · rw [haudit]
    exact List.Subset.refl _
  · intro v hv
    rw [haudit] at hv
    exact .inl hv
  · intro r hr
    rw [haudit] at hr
    exact .inl hr

theorem Develops.trans (hst : w.Develops requests s t) (htu : w.Develops requests t u) :
    w.Develops requests s u := by
  refine ⟨List.Subset.trans hst.apiKeys htu.apiKeys,
    List.Subset.trans hst.verifications htu.verifications,
    List.Subset.trans hst.receipts htu.receipts, ?_, ?_⟩
  · intro v hv
    rcases htu.anonymous v hv with hold | hnew
    · exact hst.anonymous v hold
    · exact .inr hnew
  · intro r hr
    rcases htu.issued r hr with hold | hnew
    · exact hst.issued r hold
    · exact .inr hnew

/-- A new verification is filed under the organization that the router leaves it with. -/
theorem Develops.of_verification {row : VerificationRow} {audit : AuditTrail}
    (hinsert : s.audit.createVerification row = some audit) (horg : row.orgId = nilUuid)
    (hdevice : row.deviceId = none) : w.Develops requests s { s with audit := audit } := by
  obtain ⟨hverifications, hreceipts⟩ := AuditTrail.createVerification_eq_some hinsert
  refine ⟨List.Subset.refl _, ?_, ?_, ?_, ?_⟩
  · show s.audit.verifications ⊆ audit.verifications
    rw [hverifications]
    exact List.subset_append_left _ _
  · show s.audit.receipts ⊆ audit.receipts
    rw [hreceipts]
    exact List.Subset.refl _
  · intro v hv
    have hv : v ∈ audit.verifications := hv
    rw [hverifications] at hv
    rcases List.mem_append.mp hv with hold | hnew
    · exact .inl hold
    · rw [List.mem_singleton.mp hnew]
      exact .inr ⟨horg, hdevice⟩
  · intro r hr
    have hr : r ∈ audit.receipts := hr
    rw [hreceipts] at hr
    exact .inl hr

theorem Develops.of_receipt {row : ReceiptRow} {audit : AuditTrail}
    (hinsert : s.audit.createReceipt row = some audit)
    (hissued : w.IssuedBy requests row.jws row.kid) :
    w.Develops requests s { s with audit := audit } := by
  obtain ⟨hverifications, hreceipts⟩ := AuditTrail.createReceipt_eq_some hinsert
  refine ⟨List.Subset.refl _, ?_, ?_, ?_, ?_⟩
  · show s.audit.verifications ⊆ audit.verifications
    rw [hverifications]
    exact List.Subset.refl _
  · show s.audit.receipts ⊆ audit.receipts
    rw [hreceipts]
    exact List.subset_append_left _ _
  · intro v hv
    have hv : v ∈ audit.verifications := hv
    rw [hverifications] at hv
    exact .inl hv
  · intro r hr
    have hr : r ∈ audit.receipts := hr
    rw [hreceipts] at hr
    rcases List.mem_append.mp hr with hold | hnew
    · exact .inl hold
    · rw [List.mem_singleton.mp hnew]
      exact .inr hissued

theorem RoutePoint.develops {req : RouteRequest} {log : List RouteExchange} {o : PlatformOp}
    {k : o.Resp → RouteProg} {r : o.Resp} (hpoint : w.RoutePoint req log (.op o k))
    (hreq : req ∈ requests) (heffect : PlatformStore.Effect s o r t) :
    w.Develops requests s t := by
  cases heffect with
  | ledger witnessLog deviceLineage => exact .of_same (List.Subset.refl _) rfl
  | device inserted => exact .of_same (List.Subset.refl _) rfl
  | revocation => exact .of_same (List.Subset.refl _) rfl
  | verification inserted =>
    cases hpoint with
    | verify point =>
      cases point with
      | filing reported => exact .of_verification inserted rfl rfl
  | receipt inserted =>
    cases hpoint with
    | verify point =>
      cases point with
      | filingReceipt reported signed =>
        exact .of_receipt inserted ⟨_, _, _, _, hreq, reported, signed, rfl⟩

theorem respects_develops :
    Respects platformStore (requests.map w.createRouter) (fun _ _ _ => True)
      (w.Develops requests) where
  refl s := .of_same (List.Subset.refl _) rfl
  trans := .trans
  other a s := .of_same (a.apiKeys_subset s) (a.keeps s).2
  own := by
    intro p hp log o k hf s fate _
    obtain ⟨req, hreq, rfl⟩ := List.mem_map.mp hp
    exact (follows_createRouter hf).develops hreq (PlatformStore.perform_effect o fate s)

variable (w requests start events)

/-- What holds of the server after any events. -/
abbrev Traced (pool : PlatformPool) : Prop :=
  Tracked platformStore (requests.map w.createRouter) (fun _ _ _ => True) (w.Develops requests)
    start pool

theorem tracked_serve : w.Traced requests start (w.serve requests start events) :=
  tracked_run respects_develops events (tracked_launch respects_develops)
    (allowedRun_of_always (fun _ _ _ => trivial) _ _)

variable {w requests start events} {i : Nat}

/-- A request that has been answered with a reply has gone through its points. -/
theorem point_of_result {reply : Except RouteFailure RouteReply}
    (h : (w.serve requests start events).result i = some reply) :
    ∃ req log, requests[i]? = some req ∧
      (w.serve requests start events).threads[i]? = some ⟨.ret reply, log⟩ ∧
      w.RoutePoint req log (.ret reply) := by
  obtain ⟨log, ht⟩ := result_eq_some h
  obtain ⟨prog, hprog, hfollows⟩ := (w.tracked_serve requests start events).follows i _ ht
  rw [List.getElem?_map, Option.map_eq_some_iff] at hprog
  obtain ⟨req, hreq, rfl⟩ := hprog
  exact ⟨req, log, hreq, ht, follows_createRouter hfollows⟩

theorem key_of_authenticated {pool : PlatformPool} (hpool : w.Traced requests start pool)
    {log : List RouteExchange} {prog : RouteProg} {token orgId : String}
    (ht : pool.threads[i]? = some ⟨prog, log⟩) (hmem : w.authenticated token orgId ∈ log) :
    (⟨orgId, w.hashToken token⟩ : ApiKey) ∈ pool.store.tenants.apiKeys := by
  obtain ⟨s, fault, -, hanswer, hdevelops⟩ := hpool.seen ht hmem
  refine hdevelops.apiKeys ?_
  cases (fault : Option DbError) with
  | some e => cases hanswer
  | none => exact Tenants.mem_of_getOrgByTokenHash (Except.ok.inj hanswer).symm

end ServerCrates

/-- Nothing fails, and every insert draws this identifier. -/
def calmPlatform (drawn reading : String) : (o : PlatformOp) → o.Fate
  | .getOrgByTokenHash _ => (none : Option DbError)
  | .getDeviceWithPub _ _ => (none : Option DbError)
  | .createDevice _ _ _ => (.ok drawn : Except DbError String)
  | .createVerification _ _ _ _ => (.ok drawn : Except DbError String)
  | .createReceipt _ _ _ => (.ok drawn : Except DbError String)
  | .getReceipt _ _ => (none : Option DbError)
  | .query o => calmFates reading o
  | .revoke o => calmRegistry reading o

def samplePlatformServer (serde : ManifestSerde) : ServerCrates :=
  ⟨sampleCrates, serde, sampleJson, sampleHash, utcInstant⟩

/-- A reader that reads no manifest. -/
def noSerde : ManifestSerde := ⟨fun _ => .error "missing field", fun _ => "manifest"⟩

/-- A tenant with a key and one with a device, and a receipt of the verify endpoint on file; the
organization of the unauthenticated has been given a key, too. -/
def twoTenants : PlatformStore where
  devices :=
    { rows := [⟨"device-2", "org-2", "cam-2", "ed25519:AAAA", none, some 1⟩]
      uniqueId := by simp
      uniquePub := by simp
      primaryKey := by simp }
  witnessLog := .empty
  deviceLineage := .empty
  tenants :=
    { organizations := [nilUuid, "org-1", "org-2"]
      apiKeys := [⟨"org-1", (samplePlatformServer noSerde).hashToken "alpha"⟩,
        ⟨nilUuid, (samplePlatformServer noSerde).hashToken "beta"⟩]
      primaryKey := by decide +kernel
      uniqueHash := by decide +kernel
      foreignKey := by decide +kernel }
  audit :=
    { verifications := [⟨"verification-1", nilUuid, none, "digest", .null⟩]
      receipts := [⟨"receipt-1", "verification-1", "header.payload.signature", "platform-1"⟩]
      primaryKey := by simp
      receiptKey := by simp
      foreignKey := by simp }

/-- The requests take their steps in this order. -/
def platformTurns (drawn : String) (turns : List Nat) : List PlatformEvent :=
  turns.map (fun i => .thread i (calmPlatform drawn "2026-07-01T00:00:00Z"))

end Sealedge
