import Sealedge.PlatformRuns

namespace Sealedge

open AtomicProgram

/-- A revoke request updates a row only while it is still the one that the request has read. -/
def UpdatesCurrentRow (s : PlatformStore) (log : List RouteExchange) : PlatformOp → Prop
  | .revoke (.setDeviceRevocation orgId id _ _) => ∀ found,
      (⟨.revoke (.getDeviceRevocation orgId id), .ok (some found)⟩ : RouteExchange) ∈ log →
        s.devices.getDeviceRevocation orgId id = some found
  | _ => True

/-- Every registered device stays, and its revocation columns only tighten. -/
def PlatformStore.RegistryTightens (parse : InstantReader) (s t : PlatformStore) : Prop :=
  s.devices.Tightens parse t.devices

namespace ServerCrates

variable {w : ServerCrates} {requests : List RouteRequest} {start : PlatformStore}
  {before after : List PlatformEvent} {i : Nat}

theorem RoutePoint.tightens {req : RouteRequest} {log : List RouteExchange} {o : PlatformOp}
    {k : o.Resp → RouteProg} {r : o.Resp} {s t : PlatformStore}
    (hpoint : w.RoutePoint req log (.op o k)) (hcurrent : UpdatesCurrentRow s log o)
    (heffect : PlatformStore.Effect s o r t) : s.RegistryTightens w.instants t := by
  cases heffect with
  | ledger witnessLog deviceLineage => exact .refl w.instants _
  | verification inserted => exact .refl w.instants _
  | receipt inserted => exact .refl w.instants _
  | @device id orgId deviceId devicePub devices inserted =>
    have htightens : s.devices.Tightens w.instants ((s.devices.createDevice _).getD s.devices) :=
      Devices.createDevice_tightens (NewDevice.record ⟨id, orgId, deviceId, devicePub⟩)
    rwa [inserted, Option.getD_some] at htightens
  | revocation =>
    cases hpoint with
    | verify point => cases point
    | revoking bearer hat =>
      obtain ⟨devicePub, current, now, hread, happly⟩ := revokeDeviceHandler_update hat
      refine Devices.setDeviceRevocation_tightens ?_
      intro pub state hstate
      have hsame := hcurrent (devicePub, current)
        (List.mem_cons_of_mem _ (List.mem_map.mpr ⟨_, hread, rfl⟩))
      obtain ⟨-, rfl⟩ := Prod.mk.inj (Option.some.inj (hstate.symm.trans hsame))
      exact decideRevoke_tightens happly

theorem respects_tightens :
    Respects platformStore (requests.map w.createRouter) UpdatesCurrentRow
      (PlatformStore.RegistryTightens w.instants) where
  refl s := .refl w.instants s.devices
  trans := Devices.Tightens.trans
  other a s := by
    show s.devices.Tightens w.instants (a.apply s).devices
    rw [(a.keeps s).1]
    exact .refl w.instants s.devices
  own := by
    intro p hp log o k hf s fate hal
    obtain ⟨req, -, rfl⟩ := List.mem_map.mp hp
    exact (follows_createRouter hf).tightens hal (PlatformStore.perform_effect o fate s)

/-- What the gate looks up in a registry that has tightened is at least the old floor. -/
theorem floor_le_of_lookedUp {s t : PlatformStore} {request : VerifyRequest}
    {found : Option RevocationState} {report : VerifyReport} {row : DeviceRecord} {floor : Int32}
    {fate : PlatformOp.Fate (.query (.getDeviceRevocationByPub request.devicePub))}
    (htightens : s.RegistryTightens w.instants t) (hrow : row ∈ s.devices.rows)
    (hpub : row.devicePub = request.devicePub) (hfloor : row.minEpoch = some floor)
    (hanswer : (.ok found : Except DbError (Option RevocationState)) =
      (PlatformStore.perform (.query (.getDeviceRevocationByPub request.devicePub)) fate t).1)
    (hreported : w.Reported request found report) :
    floor.toUInt32 ≤ archiveEpoch request.manifest := by
  obtain ⟨row', hrow', -, -, hpub', htight⟩ := htightens row hrow
  have hlookup : found = some row'.revocation := by
    cases (fate : Option DbError) with
    | some e => cases hanswer
    | none =>
      have hfound := revocationOf_registered (s := t.toPlatformTables) hrow'
      rw [hpub', hpub] at hfound
      exact (Except.ok.inj hanswer).trans hfound
  obtain ⟨floor', hfloor', hle⟩ := htight.floor floor.toUInt32
    (by rw [DeviceRecord.revocation, hfloor, Option.map_some])
  have hallowed := hreported.epoch _ hlookup
  rw [hfloor', epochAllowed, decide_eq_true_eq] at hallowed
  exact UInt32.le_trans hle hallowed

/-- Once a key has a floor, no verify request that comes later reports on an archive below it,
whatever other requests do meanwhile, unless two revocations of one device race. -/
theorem epoch_floor_holds (hserde : w.serde.Lawful) {env : PlatformEnv} {request : VerifyRequest}
    {row : DeviceRecord} {floor : Int32} {response : VerifyResponse}
    (hrun : AllowedRun platformStore UpdatesCurrentRow
      (launch start (requests.map w.createRouter)) (before ++ after))
    (hlater : (w.serve requests start before).threads[i]? =
      some ⟨w.createRouter (.verify env request), []⟩)
    (hrow : row ∈ (w.serve requests start before).store.devices.rows)
    (hpub : row.devicePub = request.devicePub) (hfloor : row.minEpoch = some floor)
    (hresult : (w.serve requests start (before ++ after)).result i =
      some (.ok (.verified response))) :
    ∃ m, w.serde.fromValue request.manifest = .ok m ∧
      floor.toUInt32 ≤ m.device.keyEpoch.getD 0 := by
  obtain ⟨hbefore, hafter⟩ := allowedRun_append hrun
  have htracked := tracked_run respects_tightens before (tracked_launch respects_tightens) hbefore
  obtain ⟨log, ht⟩ := result_eq_some hresult
  obtain ⟨prog, hprog, hfollows⟩ :=
    (w.tracked_serve requests start (before ++ after)).follows i _ ht
  obtain ⟨prog', hprog', hidle⟩ := htracked.follows i _ hlater
  obtain rfl := Option.some.inj (hprog.symm.trans hprog')
  rw [follows_nil.mp hidle] at hfollows
  rw [serve, run_append] at ht
  have cleared : ∀ found report, lookedUp request found ∈ log →
      w.Reported request found report → floor.toUInt32 ≤ archiveEpoch request.manifest := by
    intro found report hmem hreported
    rcases seen_since respects_tightens htracked hlater after hafter ht hmem with hnone |
      ⟨s, fate, htightens, hanswer⟩
    · exact absurd hnone List.not_mem_nil
    · exact floor_le_of_lookedUp htightens hrow hpub hfloor hanswer hreported
  have hreported : ∃ found report, lookedUp request found ∈ log ∧
      w.Reported request found report := by
    cases follows_verifyRoute hfollows with
    | unsigned reported => exact ⟨_, _, List.mem_cons_self, reported⟩
    | answered stored reported signed => exact ⟨_, _, List.mem_cons_self, reported⟩
  obtain ⟨found, report, hmem, hreported⟩ := hreported
  obtain ⟨m, hparsed, -⟩ := Fallible.bind_eq_ok.mp hreported.report
  have hparsed := Fallible.mapError_eq_ok.mp hparsed
  exact ⟨m, hparsed, UInt32.le_trans (cleared found report hmem hreported)
    (archiveEpoch_le hserde hparsed)⟩

/-- A request for an archive of the first epoch, signed with another key. -/
def firstEpochRequest : VerifyRequest where
  devicePub := "ed25519:AAAA"
  manifest := .object [("device", .object [("key_epoch", .number (.posInt 1))]),
    ("trst_version", .string "0.2.0")]
  segments := [⟨0, "b3:0000000000000000000000000000000000000000000000000000000000000000"⟩]
  options := ⟨false, none⟩

theorem epoch_floor_sample :
    ∃ response, ((samplePlatformServer (sampleSerde sampleManifest)).serve
        [.verify samplePlatform firstEpochRequest] twoTenants
        ([] ++ platformTurns "verification-2" [0, 0])).result 0 =
          some (.ok (.verified response)) ∧
      ∃ m, (sampleSerde sampleManifest).fromValue firstEpochRequest.manifest = .ok m ∧
        Int32.toUInt32 1 ≤ m.device.keyEpoch.getD 0 := by
  have hresult : ((samplePlatformServer (sampleSerde sampleManifest)).serve
      [.verify samplePlatform firstEpochRequest] twoTenants
      ([] ++ platformTurns "verification-2" [0, 0])).result 0 =
        some (.ok (.verified ⟨"verification-2", _, none⟩)) := rfl
  have hrun : AllowedRun platformStore UpdatesCurrentRow
      (launch twoTenants ([RouteRequest.verify samplePlatform firstEpochRequest].map
        (samplePlatformServer (sampleSerde sampleManifest)).createRouter))
      ([] ++ platformTurns "verification-2" [0, 0]) := ⟨trivial, trivial, trivial⟩
  refine ⟨_, hresult, ?_⟩
  exact epoch_floor_holds (w := samplePlatformServer (sampleSerde sampleManifest))
    (sampleSerde_lawful sampleManifest) hrun rfl List.mem_cons_self rfl rfl hresult

end ServerCrates

end Sealedge
