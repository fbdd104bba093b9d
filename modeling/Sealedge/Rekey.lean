import Sealedge.WrapSpec

namespace Sealedge

open Fallible

structure RekeyCmd where
  chronicle : String
  oldKey : String
  newKey : String
  out : String

/-- What a rekey finds around it. -/
structure RekeyEnv where
  stateFile : Node
  oldBundle : Except CliError DeviceBundle
  newBundle : Except CliError DeviceBundle
  outExists : Bool
  rotatedAt : String
  updatedAt : String
  faults : Faults

structure RekeyResult where
  dir : SealDir
  stateFile : Node

section Handler

variable (x : Crates) (c : ContentCrates) (st : Storage)

/-- A rotation entry is a directory that holds a single `rotation.json`. -/
def rotationEntryDir (out : String) (record : RotationRecord) : SealDir :=
  { SealDir.empty out with rotationJson := .file (intoBytes (st.printRotation record ++ "\n")) }

/-- `handle_rekey`. The sequence is incremented without a check, as in a release build. -/
def handleRekey (env : RekeyEnv) (args : RekeyCmd) : Except CliError RekeyResult := do
  failWhen (decide (env.stateFile = .absent))
    (.other ("nothing to rotate: no chronicle state at " ++ args.chronicle ++
      " (start one with `seal wrap --chronicle` first)"))
  let state ← withContext (ChronicleState.load st env.stateFile)
    ("Failed to read chronicle state: " ++ args.chronicle)
  let old ← withContext env.oldBundle ("Failed to load --old-key: " ++ args.oldKey)
  let new ← withContext env.newBundle ("Failed to load --new-key: " ++ args.newKey)
  failWhen (old.signing.public x != state.devicePub)
    (.other ("--old-key (" ++ old.signing.public x ++
      ") is not the chronicle's current identity (" ++ state.devicePub ++ ")"))
  failWhen (new.signing.public x == old.signing.public x)
    (.other "--new-key must differ from --old-key")
  failWhen env.outExists (.other ("Refusing to overwrite existing path: " ++ args.out))
  let sequence := state.sequence + 1
  let record := RotationRecord.createSigned x old.signing state.keyEpoch new.signing
    (new.keyAgreement.publicString x c) sequence state.tip env.rotatedAt
  withContext (env.faults.attempt args.out)
    ("Failed to create rotation entry directory: " ++ args.out)
  withContext (env.faults.attempt (args.out ++ "/rotation.json"))
    ("Failed to write " ++ args.out ++ "/rotation.json")
  let stateFile ← withContext
    (ChronicleState.save st env.faults args.chronicle
      { devicePub := new.signing.public x
        sequence := sequence
        tip := formatArchiveId (record.archiveDigest x)
        keyEpoch := record.new.keyEpoch
        updatedAt := env.updatedAt })
    ("Failed to update chronicle state: " ++ args.chronicle)
  pure { dir := rotationEntryDir st args.out record, stateFile := stateFile }

end Handler

section Spec

variable {x : Crates} {c : ContentCrates} {st : Storage}

/-- What a rekey has written: a record that hands over from the key in the state file, and the
state of the new key. -/
structure Rekeyed (x : Crates) (c : ContentCrates) (st : Storage) (env : RekeyEnv) (args : RekeyCmd)
    (result : RekeyResult) (state : ChronicleState) (old new : DeviceBundle)
    (record : RotationRecord) : Prop where
  loaded : ChronicleState.load st env.stateFile = .ok state
  active : old.signing.public x = state.devicePub
  handsOver : record = .createSigned x old.signing state.keyEpoch new.signing
    (new.keyAgreement.publicString x c) (state.sequence + 1) state.tip env.rotatedAt
  dir : result.dir = rotationEntryDir st args.out record
  stateFile : result.stateFile = .file (intoBytes (st.printState
    ⟨new.signing.public x, state.sequence + 1, formatArchiveId (record.archiveDigest x),
      record.new.keyEpoch, env.updatedAt⟩))

theorem handleRekey_eq_ok {env : RekeyEnv} {args : RekeyCmd} {result : RekeyResult}
    (h : handleRekey x c st env args = .ok result) :
    ∃ state old new record, Rekeyed x c st env args result state old new record := by
  obtain ⟨_, -, h⟩ := bind_eq_ok.mp h
  obtain ⟨state, hstate, h⟩ := bind_eq_ok.mp h
  obtain ⟨old, -, h⟩ := bind_eq_ok.mp h
  obtain ⟨new, -, h⟩ := bind_eq_ok.mp h
  obtain ⟨_, hactive, h⟩ := bind_eq_ok.mp h
  obtain ⟨_, -, h⟩ := bind_eq_ok.mp h
  obtain ⟨_, -, h⟩ := bind_eq_ok.mp h
  obtain ⟨_, -, h⟩ := bind_eq_ok.mp h
  obtain ⟨_, -, h⟩ := bind_eq_ok.mp h
  obtain ⟨stateFile, hsave, h⟩ := bind_eq_ok.mp h
  have hactive := failWhen_eq_ok.mp hactive
  have hsave := ChronicleState.save_eq_ok (mapError_eq_ok.mp hsave)
  cases h
  exact ⟨state, old, new, _, mapError_eq_ok.mp hstate, by simpa using hactive, rfl, rfl, hsave⟩

end Spec

end Sealedge
