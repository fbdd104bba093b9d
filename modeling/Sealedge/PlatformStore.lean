import Sealedge.ComposedProgram
import Sealedge.RevokedKeys

namespace Sealedge

open AtomicProgram

/-- A row of `api_keys`. -/
structure ApiKey where
  orgId : String
  tokenHash : String
  deriving DecidableEq

/-- The tables `organizations` and `api_keys` with their constraints. -/
structure Tenants where
  organizations : List String
  apiKeys : List ApiKey
  primaryKey : organizations.Nodup
  uniqueHash : (apiKeys.map ApiKey.tokenHash).Nodup
  foreignKey : ∀ key ∈ apiKeys, key.orgId ∈ organizations

namespace Tenants

def getOrgByTokenHash (tenants : Tenants) (tokenHash : String) : Option String :=
  (tenants.apiKeys.find? (fun key => key.tokenHash == tokenHash)).map ApiKey.orgId

/-- `INSERT INTO organizations`, with the identifier that the database draws. -/
def createOrganization (tenants : Tenants) (id : String) : Option Tenants :=
  if h : id ∈ tenants.organizations then none
  else some
    { organizations := id :: tenants.organizations
      apiKeys := tenants.apiKeys
      primaryKey := List.nodup_cons.mpr ⟨h, tenants.primaryKey⟩
      uniqueHash := tenants.uniqueHash
      foreignKey := fun key hkey => List.mem_cons_of_mem _ (tenants.foreignKey key hkey) }

/-- `INSERT INTO api_keys`, refused for an unknown organization and for a hash that is taken. -/
def createApiKey (tenants : Tenants) (key : ApiKey) : Option Tenants :=
  if h : key.orgId ∈ tenants.organizations ∧
      key.tokenHash ∉ tenants.apiKeys.map ApiKey.tokenHash then
    some
      { organizations := tenants.organizations
        apiKeys := tenants.apiKeys ++ [key]
        primaryKey := tenants.primaryKey
        uniqueHash := nodup_map_snoc tenants.uniqueHash h.2
        foreignKey := by
          intro k hk
          rcases List.mem_append.mp hk with hold | hnew
          · exact tenants.foreignKey k hold
          · rw [List.mem_singleton.mp hnew]
            exact h.1 }
  else none

theorem mem_of_getOrgByTokenHash {tenants : Tenants} {tokenHash orgId : String}
    (h : tenants.getOrgByTokenHash tokenHash = some orgId) :
    (⟨orgId, tokenHash⟩ : ApiKey) ∈ tenants.apiKeys := by
  obtain ⟨key, hfind, rfl⟩ := Option.map_eq_some_iff.mp h
  have hhash : key.tokenHash = tokenHash := by simpa using List.find?_some hfind
  rw [← hhash]
  exact List.mem_of_find?_eq_some hfind

theorem apiKeys_createOrganization (tenants : Tenants) (id : String) :
    ((tenants.createOrganization id).getD tenants).apiKeys = tenants.apiKeys := by
  unfold createOrganization
  split
  next => rfl
  next => rfl

theorem apiKeys_createApiKey (tenants : Tenants) (key : ApiKey) :
    tenants.apiKeys ⊆ ((tenants.createApiKey key).getD tenants).apiKeys := by
  unfold createApiKey
  split
  next => exact List.subset_append_left _ _
  next => exact List.Subset.refl _

end Tenants

/-- A row of `verifications`. -/
structure VerificationRow where
  id : String
  orgId : String
  deviceId : Option String
  manifestDigest : String
  resultJson : JsonValue

/-- A row of `receipts`. -/
structure ReceiptRow where
  id : String
  verificationId : String
  jws : String
  kid : String
  deriving DecidableEq

/-- The tables `verifications` and `receipts` with their keys. -/
structure AuditTrail where
  verifications : List VerificationRow
  receipts : List ReceiptRow
  primaryKey : (verifications.map VerificationRow.id).Nodup
  receiptKey : (receipts.map ReceiptRow.id).Nodup
  foreignKey : ∀ r ∈ receipts, r.verificationId ∈ verifications.map VerificationRow.id

namespace AuditTrail

/-- `INSERT INTO verifications`, but for the constraints on other tables. -/
def createVerification (audit : AuditTrail) (row : VerificationRow) : Option AuditTrail :=
  if h : row.id ∉ audit.verifications.map VerificationRow.id then
    some
      { verifications := audit.verifications ++ [row]
        receipts := audit.receipts
        primaryKey := nodup_map_snoc audit.primaryKey h
        receiptKey := audit.receiptKey
        foreignKey := by
          intro r hr
          rw [List.map_append]
          exact List.mem_append_left _ (audit.foreignKey r hr) }
  else none

/-- `INSERT INTO receipts`. -/
def createReceipt (audit : AuditTrail) (row : ReceiptRow) : Option AuditTrail :=
  if h : row.id ∉ audit.receipts.map ReceiptRow.id ∧
      row.verificationId ∈ audit.verifications.map VerificationRow.id then
    some
      { verifications := audit.verifications
        receipts := audit.receipts ++ [row]
        primaryKey := audit.primaryKey
        receiptKey := nodup_map_snoc audit.receiptKey h.1
        foreignKey := by
          intro r hr
          rcases List.mem_append.mp hr with hold | hnew
          · exact audit.foreignKey r hold
          · rw [List.mem_singleton.mp hnew]
            exact h.2 }
  else none

/-- The receipts of an organization: `receipts` joined with `verifications`. -/
def getReceipt (audit : AuditTrail) (orgId receiptId : String) : Option (String × String) :=
  (audit.receipts.flatMap (fun r =>
    (audit.verifications.filter (fun v =>
      v.id == r.verificationId && r.id == receiptId && v.orgId == orgId)).map
        (fun _ => (r.jws, r.kid)))).head?

theorem createVerification_eq_some {audit audit' : AuditTrail} {row : VerificationRow}
    (h : audit.createVerification row = some audit') :
    audit'.verifications = audit.verifications ++ [row] ∧ audit'.receipts = audit.receipts := by
  unfold createVerification at h
  split at h
  next =>
    cases h
    exact ⟨rfl, rfl⟩
  next => cases h

theorem createReceipt_eq_some {audit audit' : AuditTrail} {row : ReceiptRow}
    (h : audit.createReceipt row = some audit') :
    audit'.verifications = audit.verifications ∧ audit'.receipts = audit.receipts ++ [row] := by
  unfold createReceipt at h
  split at h
  next =>
    cases h
    exact ⟨rfl, rfl⟩
  next => cases h

theorem getReceipt_eq_some {audit : AuditTrail} {orgId receiptId jws kid : String}
    (h : audit.getReceipt orgId receiptId = some (jws, kid)) :
    ∃ r ∈ audit.receipts, ∃ v ∈ audit.verifications, r.id = receiptId ∧ r.jws = jws ∧
      r.kid = kid ∧ v.id = r.verificationId ∧ v.orgId = orgId := by
  have hmem := List.mem_of_head? h
  obtain ⟨r, hr, hjoined⟩ := List.mem_flatMap.mp hmem
  obtain ⟨v, hv, hcolumns⟩ := List.mem_map.mp hjoined
  obtain ⟨hv, hwhere⟩ := List.mem_filter.mp hv
  simp only [Bool.and_eq_true, beq_iff_eq] at hwhere
  obtain ⟨hjws, hkid⟩ := Prod.mk.inj hcolumns
  exact ⟨r, hr, v, hv, hwhere.1.2, hjws, hkid, hwhere.1.1, hwhere.2⟩

end AuditTrail

/-- The platform's database. -/
structure PlatformStore extends PlatformTables where
  tenants : Tenants
  audit : AuditTrail

/-- The statements of the endpoints. Those of the witness and of the revoke endpoint, and the
lookup of a key that the verify endpoint shares with them, are operations of their own. -/
inductive PlatformOp
  | getOrgByTokenHash (tokenHash : String)
  | getDeviceWithPub (orgId deviceId : String)
  | createDevice (orgId deviceId devicePub : String)
  | createVerification (orgId : String) (deviceId : Option String) (manifestDigest : String)
      (resultJson : JsonValue)
  | createReceipt (verificationId jws kid : String)
  | getReceipt (orgId receiptId : String)
  | query (o : DbOp)
  | revoke (o : RevokeOp)

def PlatformOp.Resp : PlatformOp → Type
  | getOrgByTokenHash _ => Except DbError (Option String)
  | getDeviceWithPub _ _ => Except DbError (Option (String × String))
  | createDevice _ _ _ => Except DbError String
  | createVerification _ _ _ _ => Except DbError String
  | createReceipt _ _ _ => Except DbError String
  | getReceipt _ _ => Except DbError (Option (String × String))
  | query o => o.Resp
  | revoke o => o.Resp

/-- An insert fails or draws an identifier. -/
def PlatformOp.Fate : PlatformOp → Type
  | getOrgByTokenHash _ => Option DbError
  | getDeviceWithPub _ _ => Option DbError
  | createDevice _ _ _ => Except DbError String
  | createVerification _ _ _ _ => Except DbError String
  | createReceipt _ _ _ => Except DbError String
  | getReceipt _ _ => Option DbError
  | query o => o.Fate
  | revoke o => o.Fate

def constraintViolation : DbError := "error returned from database: constraint violation"

namespace PlatformStore

/-- An insert with the identifier that it draws, and what it changes if no constraint refuses. -/
def inserting (s : PlatformStore) (drawn : Except DbError String)
    (insert : String → Option PlatformStore) : Except DbError String × PlatformStore :=
  match drawn with
  | .error e => (.error e, s)
  | .ok id =>
    match insert id with
    | some t => (.ok id, t)
    | none => (.error constraintViolation, s)

def insertDevice (s : PlatformStore) (row : DeviceRecord) : Option PlatformStore :=
  if row.orgId ∈ s.tenants.organizations then
    (s.devices.createDevice row).map (fun devices => { s with devices := devices })
  else none

def insertVerification (s : PlatformStore) (row : VerificationRow) : Option PlatformStore :=
  if row.orgId ∈ s.tenants.organizations ∧
      row.deviceId.all (fun id => decide (id ∈ s.devices.rows.map DeviceRecord.id)) then
    (s.audit.createVerification row).map (fun audit => { s with audit := audit })
  else none

def insertReceipt (s : PlatformStore) (row : ReceiptRow) : Option PlatformStore :=
  (s.audit.createReceipt row).map (fun audit => { s with audit := audit })

def perform : (o : PlatformOp) → o.Fate → PlatformStore → o.Resp × PlatformStore
  | .getOrgByTokenHash tokenHash, fault, s =>
    (faulty fault (s.tenants.getOrgByTokenHash tokenHash), s)
  | .getDeviceWithPub orgId deviceId, fault, s =>
    (faulty fault (s.devices.getDeviceWithPub orgId deviceId), s)
  | .createDevice orgId deviceId devicePub, drawn, s =>
    s.inserting drawn (fun id => s.insertDevice (NewDevice.record ⟨id, orgId, deviceId, devicePub⟩))
  | .createVerification orgId deviceId manifestDigest resultJson, drawn, s =>
    s.inserting drawn (fun id =>
      s.insertVerification ⟨id, orgId, deviceId, manifestDigest, resultJson⟩)
  | .createReceipt verificationId jws kid, drawn, s =>
    s.inserting drawn (fun id => s.insertReceipt ⟨id, verificationId, jws, kid⟩)
  | .getReceipt orgId receiptId, fault, s =>
    (faulty fault (s.audit.getReceipt orgId receiptId), s)
  | .query o, fate, s =>
    ((performDb o fate s.db).1, { s with
      witnessLog := (performDb o fate s.db).2.witnessLog
      deviceLineage := (performDb o fate s.db).2.deviceLineage })
  | .revoke o, fate, s =>
    ((performRevoke o fate s.devices).1, { s with devices := (performRevoke o fate s.devices).2 })

end PlatformStore

/-- What an operator does to the database; no endpoint does. -/
inductive Administration
  | createOrganization (id : String)
  | createApiKey (key : ApiKey)

def Administration.apply (s : PlatformStore) : Administration → PlatformStore
  | createOrganization id =>
    { s with tenants := (s.tenants.createOrganization id).getD s.tenants }
  | createApiKey key => { s with tenants := (s.tenants.createApiKey key).getD s.tenants }

theorem Administration.apiKeys_subset (a : Administration) (s : PlatformStore) :
    s.tenants.apiKeys ⊆ (a.apply s).tenants.apiKeys := by
  cases a with
  | createOrganization id =>
    show s.tenants.apiKeys ⊆ ((s.tenants.createOrganization id).getD s.tenants).apiKeys
    rw [s.tenants.apiKeys_createOrganization]
    exact List.Subset.refl _
  | createApiKey key => exact s.tenants.apiKeys_createApiKey key

theorem Administration.keeps (a : Administration) (s : PlatformStore) :
    (a.apply s).devices = s.devices ∧ (a.apply s).audit = s.audit := by
  cases a with
  | createOrganization id => exact ⟨rfl, rfl⟩
  | createApiKey key => exact ⟨rfl, rfl⟩

def platformStore :
    Machine PlatformStore PlatformOp PlatformOp.Resp PlatformOp.Fate Administration where
  perform := PlatformStore.perform
  disturb a s := a.apply s

namespace PlatformStore

/-- What one operation does to the store. -/
inductive Effect (s : PlatformStore) : (o : PlatformOp) → o.Resp → PlatformStore → Prop
  | ledger {o : PlatformOp} {r : o.Resp} (witnessLog : WitnessLog) (deviceLineage : DeviceLineage) :
      Effect s o r { s with witnessLog := witnessLog, deviceLineage := deviceLineage }
  | device {id orgId deviceId devicePub : String} {devices : Devices}
      (inserted : s.devices.createDevice (NewDevice.record ⟨id, orgId, deviceId, devicePub⟩) =
        some devices) :
      Effect s (.createDevice orgId deviceId devicePub) (.ok id : Except DbError String)
        { s with devices := devices }
  | verification {id orgId manifestDigest : String} {deviceId : Option String}
      {resultJson : JsonValue} {audit : AuditTrail}
      (inserted : s.audit.createVerification ⟨id, orgId, deviceId, manifestDigest, resultJson⟩ =
        some audit) :
      Effect s (.createVerification orgId deviceId manifestDigest resultJson)
        (.ok id : Except DbError String) { s with audit := audit }
  | receipt {id verificationId jws kid : String} {audit : AuditTrail}
      (inserted : s.audit.createReceipt ⟨id, verificationId, jws, kid⟩ = some audit) :
      Effect s (.createReceipt verificationId jws kid) (.ok id : Except DbError String)
        { s with audit := audit }
  | revocation {orgId id revokedAt : String} {minEpoch : Option UInt32}
      {r : PlatformOp.Resp (.revoke (.setDeviceRevocation orgId id revokedAt minEpoch))} :
      Effect s (.revoke (.setDeviceRevocation orgId id revokedAt minEpoch)) r
        { s with devices := s.devices.setDeviceRevocation orgId id revokedAt minEpoch }

theorem Effect.none {s : PlatformStore} {o : PlatformOp} {r : o.Resp} : Effect s o r s :=
  .ledger s.witnessLog s.deviceLineage

theorem inserting_effect {s : PlatformStore} {drawn : Except DbError String}
    {insert : String → Option PlatformStore}
    {P : Except DbError String → PlatformStore → Prop} (hnone : ∀ e, P (.error e) s)
    (hsome : ∀ id t, insert id = some t → P (.ok id) t) :
    P (s.inserting drawn insert).1 (s.inserting drawn insert).2 := by
  unfold inserting
  split
  next e => exact hnone e
  next id =>
    split
    next t ht => exact hsome id t ht
    next => exact hnone _

theorem insertDevice_eq_some {s t : PlatformStore} {row : DeviceRecord}
    (h : s.insertDevice row = some t) :
    ∃ devices, s.devices.createDevice row = some devices ∧ { s with devices := devices } = t := by
  unfold insertDevice at h
  split at h
  next => exact Option.map_eq_some_iff.mp h
  next => cases h

theorem insertVerification_eq_some {s t : PlatformStore} {row : VerificationRow}
    (h : s.insertVerification row = some t) :
    ∃ audit, s.audit.createVerification row = some audit ∧ { s with audit := audit } = t := by
  unfold insertVerification at h
  split at h
  next => exact Option.map_eq_some_iff.mp h
  next => cases h

theorem insertReceipt_eq_some {s t : PlatformStore} {row : ReceiptRow}
    (h : s.insertReceipt row = some t) :
    ∃ audit, s.audit.createReceipt row = some audit ∧ { s with audit := audit } = t :=
  Option.map_eq_some_iff.mp h

theorem perform_effect (o : PlatformOp) (fate : o.Fate) (s : PlatformStore) :
    Effect s o (perform o fate s).1 (perform o fate s).2 := by
  cases o with
  | getOrgByTokenHash tokenHash => exact .none
  | getDeviceWithPub orgId deviceId => exact .none
  | getReceipt orgId receiptId => exact .none
  | createDevice orgId deviceId devicePub =>
    refine inserting_effect (P := Effect s (.createDevice orgId deviceId devicePub))
      (fun e => .none) ?_
    intro id t ht
    obtain ⟨devices, hdevices, rfl⟩ := insertDevice_eq_some ht
    exact .device hdevices
  | createVerification orgId deviceId manifestDigest resultJson =>
    refine inserting_effect
      (P := Effect s (.createVerification orgId deviceId manifestDigest resultJson))
      (fun e => .none) ?_
    intro id t ht
    obtain ⟨audit, haudit, rfl⟩ := insertVerification_eq_some ht
    exact .verification haudit
  | createReceipt verificationId jws kid =>
    refine inserting_effect (P := Effect s (.createReceipt verificationId jws kid))
      (fun e => .none) ?_
    intro id t ht
    obtain ⟨audit, haudit, rfl⟩ := insertReceipt_eq_some ht
    exact .receipt haudit
  | query o => exact .ledger _ _
  | revoke o =>
    cases o with
    | getDeviceRevocation orgId id => exact .none
    | now => exact .none
    | setDeviceRevocation orgId id revokedAt minEpoch =>
      cases (fate : Option DbError) with
      | some e => exact .none
      | none => exact .revocation

theorem inserting_eq_ok {s : PlatformStore} {drawn : Except DbError String}
    {insert : String → Option PlatformStore} {id : String}
    (h : .ok id = (s.inserting drawn insert).1) :
    insert id = some (s.inserting drawn insert).2 := by
  unfold inserting at h ⊢
  split at h
  next => cases h
  next drawnId =>
    split at h
    next t ht =>
      cases h
      rw [ht]
    next => cases h

theorem mem_of_createVerification {s : PlatformStore} {orgId manifestDigest id : String}
    {deviceId : Option String} {resultJson : JsonValue}
    {fate : PlatformOp.Fate (.createVerification orgId deviceId manifestDigest resultJson)}
    (h : (.ok id : Except DbError String) =
      (perform (.createVerification orgId deviceId manifestDigest resultJson) fate s).1) :
    ⟨id, orgId, deviceId, manifestDigest, resultJson⟩ ∈
      (perform (.createVerification orgId deviceId manifestDigest resultJson)
        fate s).2.audit.verifications := by
  obtain ⟨audit, hinsert, hstore⟩ := insertVerification_eq_some (inserting_eq_ok h)
  rw [perform, ← hstore, (AuditTrail.createVerification_eq_some hinsert).1]
  exact List.mem_append_right _ (List.mem_singleton_self _)

theorem mem_of_createReceipt {s : PlatformStore} {verificationId jws kid id : String}
    {fate : PlatformOp.Fate (.createReceipt verificationId jws kid)}
    (h : (.ok id : Except DbError String) =
      (perform (.createReceipt verificationId jws kid) fate s).1) :
    ⟨id, verificationId, jws, kid⟩ ∈
      (perform (.createReceipt verificationId jws kid) fate s).2.audit.receipts := by
  obtain ⟨audit, hinsert, hstore⟩ := insertReceipt_eq_some (inserting_eq_ok h)
  rw [perform, ← hstore, (AuditTrail.createReceipt_eq_some hinsert).2]
  exact List.mem_append_right _ (List.mem_singleton_self _)

end PlatformStore

end Sealedge
