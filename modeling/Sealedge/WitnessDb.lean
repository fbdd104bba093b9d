import Sealedge.AtomicProgram
import Sealedge.Revocation
import Mathlib.Data.List.Sort

namespace Sealedge

open AtomicProgram

/-- A row of `witness_log`; the sequence is stored as a signed number. -/
structure WitnessRow where
  devicePub : String
  sequence : Int64
  tip : String
  observedAt : String
  deviceRegistered : Bool
  signedAt : String
  deriving DecidableEq

def WitnessRow.key (row : WitnessRow) : String × Int64 := (row.devicePub, row.sequence)

def WitnessRow.entry (row : WitnessRow) : WitnessEntry where
  sequence := row.sequence.toUInt64
  tip := row.tip
  observedAt := row.observedAt

/-- The table `witness_log` with its primary key. -/
structure WitnessLog where
  rows : List WitnessRow
  primaryKey : (rows.map WitnessRow.key).Nodup

/-- A row of `device_lineage`. -/
structure LineageRow where
  newPub : String
  oldPub : String
  rotationSeq : Int64
  observedAt : String
  deriving DecidableEq

/-- The table `device_lineage` with its primary key. -/
structure DeviceLineage where
  rows : List LineageRow
  primaryKey : (rows.map LineageRow.newPub).Nodup

/-- What the witness endpoint reads of a row of `devices`. -/
structure DeviceRow where
  devicePub : String
  revocation : RevocationState
  deriving DecidableEq

structure Db where
  devices : List DeviceRow
  witnessLog : WitnessLog
  deviceLineage : DeviceLineage

/-- The text of a database error. -/
abbrev DbError := String

theorem nodup_map_snoc {α β : Type} {key : α → β} {rows : List α} {row : α}
    (hn : (rows.map key).Nodup) (h : key row ∉ rows.map key) : ((rows ++ [row]).map key).Nodup := by
  rw [List.map_append, List.nodup_append]
  refine ⟨hn, List.nodup_singleton _, ?_⟩
  intro a ha b hb hab
  rw [List.map_singleton, List.mem_singleton] at hb
  rw [hab, hb] at ha
  exact h ha

namespace WitnessLog

def empty : WitnessLog := ⟨[], List.nodup_nil⟩

/-- `INSERT`, refused by the primary key when the key is taken. -/
def insert (log : WitnessLog) (row : WitnessRow) : Option WitnessLog :=
  if h : row.key ∈ log.rows.map WitnessRow.key then none
  else some ⟨log.rows ++ [row], nodup_map_snoc log.primaryKey h⟩

/-- `SELECT … WHERE device_pub = $1 ORDER BY sequence`. -/
def entriesOf (log : WitnessLog) (devicePub : String) : List WitnessEntry :=
  ((log.rows.filter (fun r => r.devicePub == devicePub)).insertionSort
    (fun a b => a.sequence ≤ b.sequence)).map WitnessRow.entry

def entryAt (log : WitnessLog) (devicePub : String) (sequence : UInt64) : Option WitnessEntry :=
  (log.rows.find? (fun r => r.devicePub == devicePub && r.sequence == Int64.ofUInt64 sequence)).map
    WitnessRow.entry

end WitnessLog

namespace DeviceLineage

def empty : DeviceLineage := ⟨[], List.nodup_nil⟩

/-- `INSERT … ON CONFLICT (new_pub) DO NOTHING`. -/
def insert (lineage : DeviceLineage) (row : LineageRow) : DeviceLineage :=
  if h : row.newPub ∈ lineage.rows.map LineageRow.newPub then lineage
  else ⟨lineage.rows ++ [row], nodup_map_snoc lineage.primaryKey h⟩

/-- `SELECT rotation_seq … WHERE old_pub = $1` and its first row; the query gives no order, so
which of several matching rows comes first is picked from outside. -/
def rotationSeqOf (lineage : DeviceLineage) (oldPub : String) (pick : Nat) : Option UInt64 :=
  let found := lineage.rows.filter (fun r => r.oldPub == oldPub)
  (found[pick % found.length]?).map (fun r => r.rotationSeq.toUInt64)

end DeviceLineage

/-- The steps of the witness endpoint that leave the handler: SQL statements, the clock, a fresh
identifier and the signing of the receipt. -/
inductive DbOp
  | getDeviceRevocationByPub (devicePub : String)
  | lineageRotationSeq (oldPub : String)
  | witnessEntries (devicePub : String)
  | now
  | witnessInsert (row : WitnessRow)
  | witnessEntryAt (devicePub : String) (sequence : UInt64)
  | lineageInsert (row : LineageRow)
  | newUuid
  | signWitnessJws (receipt : WitnessReceipt)

def DbOp.Resp : DbOp → Type
  | getDeviceRevocationByPub _ => Except DbError (Option RevocationState)
  | lineageRotationSeq _ => Except DbError (Option UInt64)
  | witnessEntries _ => Except DbError (List WitnessEntry)
  | now => String
  | witnessInsert _ => Except DbError Unit
  | witnessEntryAt _ _ => Except DbError (Option WitnessEntry)
  | lineageInsert _ => Except DbError Unit
  | newUuid => String
  | signWitnessJws _ => Except String String

/-- What is decided outside: whether a statement fails, which row a query gives first, the
reading of the clock, the identifier, the outcome of signing. -/
def DbOp.Fate : DbOp → Type
  | getDeviceRevocationByPub _ => Option DbError
  | lineageRotationSeq _ => Option DbError × Nat
  | witnessEntries _ => Option DbError
  | now => String
  | witnessInsert _ => Option DbError
  | witnessEntryAt _ _ => Option DbError
  | lineageInsert _ => Option DbError
  | newUuid => String
  | signWitnessJws _ => Except String String

/-- A statement that may fail, with no effect when it does. -/
def faulty {α : Type} (fault : Option DbError) (value : α) : Except DbError α :=
  match fault with
  | some e => .error e
  | none => .ok value

def duplicateKey : DbError :=
  "error returned from database: duplicate key value violates unique constraint \"witness_log_pkey\""

def Db.insertWitness (db : Db) (row : WitnessRow) : Except DbError Unit × Db :=
  match db.witnessLog.insert row with
  | some log => (.ok (), { db with witnessLog := log })
  | none => (.error duplicateKey, db)

def Db.insertLineage (db : Db) (row : LineageRow) : Db :=
  { db with deviceLineage := db.deviceLineage.insert row }

/-- The revocation columns of a registered device. -/
def Db.revocationOf (db : Db) (devicePub : String) : Option RevocationState :=
  (db.devices.find? (fun d => d.devicePub == devicePub)).map DeviceRow.revocation

/-- One statement on the database. A statement that reports an error has done nothing: an insert
that is committed although its answer is lost on the way is left out. -/
def performDb : (o : DbOp) → o.Fate → Db → o.Resp × Db
  | .getDeviceRevocationByPub pub, fault, db =>
    (faulty fault (db.revocationOf pub), db)
  | .lineageRotationSeq pub, fate, db =>
    (faulty fate.1 (db.deviceLineage.rotationSeqOf pub fate.2), db)
  | .witnessEntries pub, fault, db => (faulty fault (db.witnessLog.entriesOf pub), db)
  | .now, reading, db => (reading, db)
  | .witnessInsert row, fault, db =>
    match (fault : Option DbError) with
    | some e => (.error e, db)
    | none => db.insertWitness row
  | .witnessEntryAt pub sequence, fault, db => (faulty fault (db.witnessLog.entryAt pub sequence), db)
  | .lineageInsert row, fault, db =>
    match (fault : Option DbError) with
    | some e => (.error e, db)
    | none => (.ok (), db.insertLineage row)
  | .newUuid, id, db => (id, db)
  | .signWitnessJws _, signed, db => (signed, db)

/-- The platform's database. Other endpoints register and revoke devices; nothing updates or
deletes a row of the other two tables. -/
def platform : Machine Db DbOp DbOp.Resp DbOp.Fate (List DeviceRow) where
  perform := performDb
  disturb devices db := { db with devices := devices }

end Sealedge
