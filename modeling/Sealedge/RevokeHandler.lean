import Sealedge.ReceiptSound

namespace Sealedge

open AtomicProgram

/-- The table `devices` with its primary key and its unique indices. -/
structure Devices extends DeviceRegistry where
  primaryKey : (rows.map DeviceRecord.id).Nodup

def DeviceRecord.revocation (row : DeviceRecord) : RevocationState :=
  ⟨row.revokedAt, row.minEpoch.map Int32.toUInt32⟩

/-- The revocation columns of a row set to new values. -/
def DeviceRecord.revoke (row : DeviceRecord) (revokedAt : String) (minEpoch : Option UInt32) :
    DeviceRecord :=
  { row with revokedAt := some revokedAt, minEpoch := minEpoch.map UInt32.toInt32 }

namespace Devices

/-- The row of an organization's device. -/
def rowOf (devices : Devices) (orgId id : String) : Option DeviceRecord :=
  devices.rows.find? (fun r => r.id == id && r.orgId == orgId)

def getDeviceRevocation (devices : Devices) (orgId id : String) :
    Option (String × RevocationState) :=
  (devices.rowOf orgId id).map (fun r => (r.devicePub, r.revocation))

/-- A row as the `UPDATE` leaves it. -/
def updated (orgId id revokedAt : String) (minEpoch : Option UInt32) (row : DeviceRecord) :
    DeviceRecord :=
  if row.id = id ∧ row.orgId = orgId then row.revoke revokedAt minEpoch else row

theorem updated_keeps (orgId id revokedAt : String) (minEpoch : Option UInt32)
    (row : DeviceRecord) :
    (updated orgId id revokedAt minEpoch row).id = row.id ∧
    (updated orgId id revokedAt minEpoch row).orgId = row.orgId ∧
    (updated orgId id revokedAt minEpoch row).deviceId = row.deviceId ∧
    (updated orgId id revokedAt minEpoch row).devicePub = row.devicePub := by
  unfold updated
  split
  next => exact ⟨rfl, rfl, rfl, rfl⟩
  next => exact ⟨rfl, rfl, rfl, rfl⟩

theorem map_updated {β : Type} {key : DeviceRecord → β} {orgId id revokedAt : String}
    {minEpoch : Option UInt32} {rows : List DeviceRecord}
    (h : ∀ row, key (updated orgId id revokedAt minEpoch row) = key row) :
    (rows.map (updated orgId id revokedAt minEpoch)).map key = rows.map key := by
  rw [List.map_map]
  exact List.map_congr_left (fun row _ => h row)

/-- `UPDATE devices SET revoked_at, min_epoch … WHERE id = $3 AND org_id = $4`. -/
def setDeviceRevocation (devices : Devices) (orgId id revokedAt : String)
    (minEpoch : Option UInt32) : Devices where
  rows := devices.rows.map (updated orgId id revokedAt minEpoch)
  uniqueId := by
    rw [map_updated (fun row => by
      rw [(updated_keeps orgId id revokedAt minEpoch row).2.1,
        (updated_keeps orgId id revokedAt minEpoch row).2.2.1])]
    exact devices.uniqueId
  uniquePub := by
    rw [map_updated (fun row => (updated_keeps orgId id revokedAt minEpoch row).2.2.2)]
    exact devices.uniquePub
  primaryKey := by
    rw [map_updated (fun row => (updated_keeps orgId id revokedAt minEpoch row).1)]
    exact devices.primaryKey

/-- `INSERT INTO devices`, refused by the primary key and the unique indices. -/
def createDevice (devices : Devices) (row : DeviceRecord) : Option Devices :=
  if h : row.id ∉ devices.rows.map DeviceRecord.id ∧
      (row.orgId, row.deviceId) ∉ devices.rows.map (fun r => (r.orgId, r.deviceId)) ∧
      row.devicePub ∉ devices.rows.map DeviceRecord.devicePub then
    some
      { rows := devices.rows ++ [row]
        uniqueId := nodup_map_snoc devices.uniqueId h.2.1
        uniquePub := nodup_map_snoc devices.uniquePub h.2.2
        primaryKey := nodup_map_snoc devices.primaryKey h.1 }
  else none

end Devices

/-- The columns that registering a device fills in; the revocation columns stay empty. -/
structure NewDevice where
  id : String
  orgId : String
  deviceId : String
  devicePub : String

def NewDevice.record (d : NewDevice) : DeviceRecord :=
  ⟨d.id, d.orgId, d.deviceId, d.devicePub, none, none⟩

/-- The steps of the revoke endpoint that leave the handler. -/
inductive RevokeOp
  | getDeviceRevocation (orgId id : String)
  | now
  | setDeviceRevocation (orgId id revokedAt : String) (minEpoch : Option UInt32)

def RevokeOp.Resp : RevokeOp → Type
  | getDeviceRevocation _ _ => Except DbError (Option (String × RevocationState))
  | now => String
  | setDeviceRevocation _ _ _ _ => Except DbError Bool

def RevokeOp.Fate : RevokeOp → Type
  | getDeviceRevocation _ _ => Option DbError
  | now => String
  | setDeviceRevocation _ _ _ _ => Option DbError

def performRevoke : (o : RevokeOp) → o.Fate → Devices → o.Resp × Devices
  | .getDeviceRevocation orgId id, fault, devices =>
    (faulty fault (devices.getDeviceRevocation orgId id), devices)
  | .now, reading, devices => (reading, devices)
  | .setDeviceRevocation orgId id revokedAt minEpoch, fault, devices =>
    match (fault : Option DbError) with
    | some e => (.error e, devices)
    | none => (.ok (devices.rowOf orgId id).isSome,
        devices.setDeviceRevocation orgId id revokedAt minEpoch)

/-- The registry. Other endpoints register devices; nothing else changes a row. -/
def registry : Machine Devices RevokeOp RevokeOp.Resp RevokeOp.Fate NewDevice where
  perform := performRevoke
  disturb d devices := (devices.createDevice d.record).getD devices

structure RevokeRequest where
  revokedAt : Option String
  minEpoch : Option UInt32

/-- A revoke request with the organization it is authenticated for and the device in its path. -/
structure RevokeCall where
  orgId : String
  id : String
  request : RevokeRequest

structure RevokeResponse where
  id : String
  revokedAt : String
  minEpoch : Option UInt32
  deriving DecidableEq

structure RevokeRefusal where
  status : Nat
  message : String
  deriving DecidableEq

abbrev RevokeProg := Prog RevokeOp RevokeOp.Resp (Except RevokeRefusal RevokeResponse)

/-- `POST /v1/devices/:id/revoke`, one atomic operation at a time. -/
def revokeDeviceHandler (parse : InstantReader) (call : RevokeCall) : RevokeProg :=
  .op (.getDeviceRevocation call.orgId call.id) fun found =>
    match (found : Except DbError (Option (String × RevocationState))) with
    | .error _ => .ret (.error ⟨500, "device lookup failed"⟩)
    | .ok none => .ret (.error ⟨404, "no such device in this organization"⟩)
    | .ok (some (_, current)) =>
      .op .now fun now =>
        match decideRevoke parse current call.request.revokedAt call.request.minEpoch now with
        | .reject msg => .ret (.error ⟨409, msg⟩)
        | .apply revokedAt minEpoch =>
          .op (.setDeviceRevocation call.orgId call.id revokedAt minEpoch) fun updated =>
            match (updated : Except DbError Bool) with
            | .error _ => .ret (.error ⟨500, "revoke update failed"⟩)
            | .ok false => .ret (.error ⟨404, "no such device in this organization"⟩)
            | .ok true => .ret (.ok ⟨call.id, revokedAt, minEpoch⟩)

abbrev RevokeExchange := Exchange RevokeOp RevokeOp.Resp

/-- A request that is about to write has read the row and decided on what it read. -/
theorem revokeDeviceHandler_update {parse : InstantReader} {call : RevokeCall}
    {log : List RevokeExchange} {orgId id revokedAt : String} {minEpoch : Option UInt32}
    {k : Except DbError Bool → RevokeProg}
    (h : Follows (revokeDeviceHandler parse call) log
      (.op (.setDeviceRevocation orgId id revokedAt minEpoch) k)) :
    ∃ devicePub current now,
      (⟨.getDeviceRevocation orgId id, .ok (some (devicePub, current))⟩ : RevokeExchange) ∈ log ∧
      decideRevoke parse current call.request.revokedAt call.request.minEpoch now =
        .apply revokedAt minEpoch := by
  unfold revokeDeviceHandler at h
  rcases log with _ | ⟨e₁, log⟩
  · cases follows_nil.mp h
  replace h := follows_op_cons.mp h
  obtain ⟨found, rfl, h⟩ := h
  rcases found with e | (_ | ⟨devicePub, current⟩)
  · exact absurd h not_follows_ret_op
  · exact absurd h not_follows_ret_op
  rcases log with _ | ⟨e₂, log⟩
  · cases follows_nil.mp h
  replace h := follows_op_cons.mp h
  obtain ⟨now, rfl, h⟩ := h
  split at h
  next => exact absurd h not_follows_ret_op
  next at' epoch happly =>
    rcases log with _ | ⟨e₃, log⟩
    · cases follows_nil.mp h
      exact ⟨devicePub, current, now, List.mem_cons_self, happly⟩
    · replace h := follows_op_cons.mp h
      obtain ⟨updated, rfl, h⟩ := h
      rcases updated with e | (_ | _)
      · exact absurd h not_follows_ret_op
      · exact absurd h not_follows_ret_op
      · exact absurd h not_follows_ret_op

end Sealedge
