import Sealedge.Archive
import Sealedge.WitnessJws
import Mathlib.Data.List.Sort

namespace Sealedge

open Fallible

/-- `require_supported_version`. -/
def requireSupportedVersion (trstVersion : String) : Except String Unit :=
  if trstVersion = "0.2.0" then .ok ()
  else if trstVersion = "0.1.0" then
    .error "unsupported legacy archive format 0.1.0 (pre-C4); re-wrap with a current seal build"
  else .error ("unsupported archive version " ++ trstVersion ++ "; upgrade the seal tool")

/-- A path argument: a directory, with the files it holds itself and its children, or something
else. A child that could not be listed is absent. -/
inductive PathArg
  | directory (own : SealDir) (children : Except IoError (List (Option SealDir)))
  | other (path : String)

def isChronicleEntryDir (dir : SealDir) : Bool :=
  dir.manifestJson.isFile || dir.rotationJson.isFile

def expandPath : PathArg → Except CliError (List SealDir)
  | .directory own children =>
    if isChronicleEntryDir own then .ok [own]
    else do
      let listed ← withContext children ("Failed to read directory: " ++ own.path)
      pure (((listed.filterMap id).filter isChronicleEntryDir).insertionSort
        (fun a b => a.path ≤ b.path))
  | .other path => .error (.other ("not a .seal archive or directory: " ++ path))

/-- `collect_archive_dirs`. -/
def collectArchiveDirs (paths : List PathArg) : Except CliError (List SealDir) := do
  let dirs ← paths.mapM expandPath
  pure dirs.flatten

inductive EntryKind
  | archive (m : TrstManifest)
  | rotation (r : RotationRecord)

/-- A chronicle entry as it was read, with the directory it was read from. -/
structure Entry where
  seq : UInt64
  digest : Digest
  prev : Option String
  dir : SealDir
  kind : EntryKind

section Loading

variable (x : Crates) (st : Storage)

def readRotation (dir : SealDir) : Except String RotationRecord := do
  let path := dir.path ++ "/rotation.json"
  let bytes ← dir.rotationJson.read.mapError (fun _ => "Failed to read rotation entry: " ++ path)
  (st.parseRotation bytes).mapError (fun _ => "Malformed rotation entry: " ++ path)

def loadRotation (dir : SealDir) : Except CliError Entry := do
  let record ← (readRotation st dir).mapError (fun e => .exit 12 (dir.path ++ ": " ++ e))
  (requireSupportedVersion record.trstVersion).mapError
    (fun e => .exit 12 (dir.path ++ ": " ++ e))
  pure
    { seq := record.sequence
      digest := record.archiveDigest x
      prev := some record.prevArchiveHash
      dir := dir
      kind := .rotation record }

def loadArchive (dir : SealDir) : Except CliError Entry := do
  let (manifest, _) ← (readManifest st dir).mapError
    (fun e => .exit 12 (dir.path ++ ": archive read failed: " ++ e.display))
  (requireSupportedVersion manifest.trstVersion).mapError
    (fun e => .exit 12 (dir.path ++ ": " ++ e))
  match manifest.sequence with
  | none => .error (.exit 13 (dir.path ++ ": not a chronicle archive (no sequence)"))
  | some seq =>
    pure
      { seq := seq
        digest := manifest.archiveDigest x
        prev := manifest.prevArchiveHash
        dir := dir
        kind := .archive manifest }

/-- A directory with a rotation record is a rotation, whatever else it holds. -/
def loadEntry (dir : SealDir) : Except CliError Entry :=
  if dir.rotationJson.isFile then loadRotation x st dir else loadArchive x st dir

def loadEntries (dirs : List SealDir) : Except CliError (List Entry) :=
  dirs.mapM (loadEntry x st)

end Loading

def sortEntries (entries : List Entry) : List Entry :=
  entries.insertionSort (fun a b => a.seq ≤ b.seq)

/-- The sequences must be 0, 1, 2 and so on. -/
def checkContiguity : Nat → List Entry → Except CliError Unit
  | _, [] => .ok ()
  | i, e :: rest =>
    if e.seq ≠ UInt64.ofNat i then
      .error (.exit 13 ("chronicle gap/disorder: expected sequence " ++ i.repr ++ ", found " ++
        e.seq.toNat.repr ++ " (" ++ e.dir.path ++ ")"))
    else checkContiguity (i + 1) rest

def checkGenesis : List Entry → Except CliError Unit
  | [] => .error .panicked
  | e :: _ =>
    match e.kind with
    | .rotation _ =>
      .error (.exit 13 "genesis (sequence 0) must be a content archive, not a rotation")
    | .archive _ =>
      match e.prev with
      | some prev =>
        .error (.exit 13 ("genesis (sequence 0) must not set prev_archive_hash (" ++ prev ++ ")"))
      | none => .ok ()

/-- The link of an entry to the digest of the one before it. -/
def checkLink (before e : Entry) : Except CliError Unit :=
  match e.prev with
  | some prev =>
    failWhen (prev != formatArchiveId before.digest)
      (.exit 13 ("broken chronicle link at sequence " ++ e.seq.toNat.repr ++ ": prev=" ++ prev ++
        ", expected=" ++ formatArchiveId before.digest))
  | none => .error (.exit 13 ("missing prev_archive_hash at sequence " ++ e.seq.toNat.repr))

def checkLinks : List Entry → Except CliError Unit
  | before :: e :: rest => do
    checkLink before e
    checkLinks (e :: rest)
  | _ => .ok ()

/-- What the walk over the entries carries: the identity in force and what was seen so far. -/
structure Walk where
  activeSigner : String
  activeEpoch : UInt32
  rotations : Nat
  signerAtSeq : List String

section Walking

variable (x : Crates) (st : Storage)

def walkArchive (w : Walk) (e : Entry) (m : TrstManifest) : Except CliError Unit := do
  failWhen (m.device.publicKey != w.activeSigner)
    (.exit 10 (e.dir.path ++ ": signed by " ++ m.device.publicKey ++
      ", but the active identity at sequence " ++ e.seq.toNat.repr ++ " is " ++ w.activeSigner))
  let epoch := m.device.keyEpoch.getD 0
  failWhen (epoch != w.activeEpoch)
    (.exit 13 (e.dir.path ++ ": key_epoch " ++ epoch.toNat.repr ++
      " does not match the active epoch " ++ w.activeEpoch.toNat.repr ++ " at sequence " ++
      e.seq.toNat.repr))
  match m.signature with
  | none => .error (.exit 12 (e.dir.path ++ ": manifest missing signature"))
  | some sig =>
    let valid ← (verifyManifest x w.activeSigner (m.toCanonicalBytes x.text) sig).mapError
      (fun err => .exit 10 (e.dir.path ++ ": signature error: " ++ err.display))
    failWhen (!valid) (.exit 10 (e.dir.path ++ ": signature verification failed"))
    (validateArchive x st e.dir).mapError
      (fun err => .exit 11 (e.dir.path ++ ": continuity failed: " ++ err.display))

def walkRotation (w : Walk) (e : Entry) (r : RotationRecord) : Except CliError Unit := do
  failWhen (r.old.publicKey != w.activeSigner)
    (.exit 13 (e.dir.path ++ ": rotation supersedes " ++ r.old.publicKey ++
      ", but the active identity at sequence " ++ e.seq.toNat.repr ++ " is " ++ w.activeSigner))
  failWhen (r.old.keyEpoch != w.activeEpoch)
    (.exit 13 (e.dir.path ++ ": rotation old epoch " ++ r.old.keyEpoch.toNat.repr ++
      " does not match active epoch " ++ w.activeEpoch.toNat.repr ++ " at sequence " ++
      e.seq.toNat.repr))
  failWhen (!r.verify x)
    (.exit 10 (e.dir.path ++ ": rotation co-signature/epoch verification failed"))

/-- One entry of the active-identity walk: an archive must be signed by the identity in force, and
a rotation hands it over. -/
def walkEntry (w : Walk) (e : Entry) : Except CliError Walk :=
  match e.kind with
  | .archive m => do
    walkArchive x st w e m
    pure { w with signerAtSeq := w.signerAtSeq ++ [w.activeSigner] }
  | .rotation r => do
    walkRotation x w e r
    pure
      { activeSigner := r.new.publicKey
        activeEpoch := r.new.keyEpoch
        rotations := w.rotations + 1
        signerAtSeq := w.signerAtSeq ++ [r.new.publicKey] }

def walkEntries : Walk → List Entry → Except CliError Walk
  | w, [] => .ok w
  | w, e :: rest => do
    let w' ← walkEntry x st w e
    walkEntries w' rest

def Walk.start (devicePub : String) : Walk := ⟨devicePub, 0, 0, []⟩

/-- The entries of the given paths in order of their sequences. -/
def sortedEntries (paths : List PathArg) : Except CliError (List Entry) := do
  let dirs ← collectArchiveDirs paths
  failWhen dirs.isEmpty (.exit 12 "No .seal archives found in the given paths")
  let entries ← loadEntries x st dirs
  pure (sortEntries entries)

/-- The checks of the entries, and the walk over them. -/
def checkEntries (devicePub : String) (entries : List Entry) : Except CliError Walk := do
  checkContiguity 0 entries
  checkGenesis entries
  checkLinks entries
  walkEntries x st (.start devicePub) entries

end Walking

/-- What the command reports when the chronicle passes. -/
structure ChronicleReport where
  devicePub : String
  count : Nat
  rotations : Nat
  tipSequence : UInt64
  tip : String
  currentIdentity : String
  currentEpoch : UInt32
  witnessed : Option (UInt64 × String)
  deriving DecidableEq

structure VerifyChronicleCmd where
  paths : List PathArg
  devicePub : String
  witness : Option ReceiptFile
  witnessJwks : Option JwksSource

/-- The genesis key, with the prefix that a bare key is given. -/
def VerifyChronicleCmd.genesisKey (args : VerifyChronicleCmd) : String :=
  if Texts.startsWith args.devicePub "ed25519:" || Texts.startsWith args.devicePub "ecdsa-p256:" then
    args.devicePub
  else "ed25519:" ++ args.devicePub

/-- The cross-check of a witnessed tip against the local entries and the identities in force. -/
def crossCheck (entries : List Entry) (last : Entry) (w : Walk) (r : WitnessedTip) :
    Except CliError (UInt64 × String) := do
  failWhen (decide (last.seq < r.sequence))
    (.exit 13 ("local chronicle tip (sequence " ++ last.seq.toNat.repr ++
      ") is BEHIND the witnessed tip (sequence " ++ r.sequence.toNat.repr ++
      ") — archives after " ++ last.seq.toNat.repr ++ " are missing (tail deletion)"))
  match w.signerAtSeq[r.sequence.toNat]? with
  | none => .error .panicked
  | some expectedSigner =>
    failWhen (r.devicePub != expectedSigner)
      (.exit 13 ("witness receipt is for device " ++ r.devicePub ++
        ", but the active identity at sequence " ++ r.sequence.toNat.repr ++ " is " ++
        expectedSigner))
    match entries[r.sequence.toNat]? with
    | none => .error .panicked
    | some e =>
      failWhen (r.tip != formatArchiveId e.digest)
        (.exit 13 ("tip mismatch at sequence " ++ r.sequence.toNat.repr ++ ": local " ++
          formatArchiveId e.digest ++ " vs witnessed " ++ r.tip))
      pure (r.sequence, r.tip)

section Handler

variable (x : Crates) (st : Storage) (web : WebCodec)

def checkWitness (args : VerifyChronicleCmd) (entries : List Entry) (last : Entry) (w : Walk) :
    Except CliError (Option (UInt64 × String)) :=
  match args.witness with
  | none => .ok none
  | some receipt => do
    let r ← loadReceipt x web receipt args.witnessJwks
    let witnessed ← crossCheck entries last w r
    pure (some witnessed)

def chronicleReport (args : VerifyChronicleCmd) (entries : List Entry) (last : Entry) (w : Walk)
    (witnessed : Option (UInt64 × String)) : ChronicleReport where
  devicePub := args.genesisKey
  count := entries.length
  rotations := w.rotations
  tipSequence := last.seq
  tip := formatArchiveId last.digest
  currentIdentity := w.activeSigner
  currentEpoch := w.activeEpoch
  witnessed := witnessed

/-- `handle_verify_chronicle`. -/
def handleVerifyChronicle (args : VerifyChronicleCmd) : Except CliError ChronicleReport := do
  let entries ← sortedEntries x st args.paths
  let w ← checkEntries x st args.genesisKey entries
  match entries.getLast? with
  | none => .error .panicked
  | some last =>
    let witnessed ← checkWitness x web args entries last w
    pure (chronicleReport args entries last w witnessed)

end Handler

end Sealedge
