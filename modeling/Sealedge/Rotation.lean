import Mathlib.Algebra.Group.Nat.Defs
import Sealedge.DeviceCrypto

namespace Sealedge

open Delimited

structure RotationOld where
  publicKey : String
  keyEpoch : UInt32
  deriving DecidableEq

structure RotationNew where
  publicKey : String
  keyAgreementPublic : String
  keyEpoch : UInt32
  deriving DecidableEq

/-- A chronicle entry that hands the device's signing identity from one key to the next. -/
structure RotationRecord where
  trstVersion : String
  kind : String
  sequence : UInt64
  prevArchiveHash : String
  old : RotationOld
  new : RotationNew
  rotatedAt : String
  sigOld : String
  sigNew : String
  deriving DecidableEq

def rotationKind : String := "rotation"

/-- `u32::checked_add(1)`. -/
def checkedSucc (e : UInt32) : Option UInt32 :=
  if e.toNat + 1 < 2 ^ 32 then some (e + 1) else none

namespace RotationRecord

def signingText (x : TextCodec) (r : RotationRecord) : String :=
  "\x7b" ++
  "\"trst_version\":" ++ x.jsonStr r.trstVersion ++
  ",\"kind\":" ++ x.jsonStr r.kind ++
  ",\"sequence\":" ++ r.sequence.toNat.repr ++
  ",\"prev_archive_hash\":" ++ x.jsonStr r.prevArchiveHash ++
  ",\"old\":\x7b\"public_key\":" ++ x.jsonStr r.old.publicKey ++
  ",\"key_epoch\":" ++ r.old.keyEpoch.toNat.repr ++ "\x7d" ++
  ",\"new\":\x7b\"public_key\":" ++ x.jsonStr r.new.publicKey ++
  ",\"key_agreement_public\":" ++ x.jsonStr r.new.keyAgreementPublic ++
  ",\"key_epoch\":" ++ r.new.keyEpoch.toNat.repr ++ "\x7d" ++
  ",\"rotated_at\":" ++ x.jsonStr r.rotatedAt ++
  "\x7d"

/-- The bytes that both signatures cover. -/
def signingBytes (x : TextCodec) (r : RotationRecord) : Bytes :=
  intoBytes (r.signingText x)

def archiveDigest (x : Crates) (r : RotationRecord) : Digest :=
  segmentHash x (r.signingBytes x.text)

/-- `RotationRecord::verify`: the kind, the epoch step and both signatures. -/
def verify (x : Crates) (r : RotationRecord) : Bool :=
  if r.kind ≠ rotationKind then false
  else if checkedSucc r.old.keyEpoch ≠ some r.new.keyEpoch then false
  else
    let bytes := r.signingBytes x.text
    let oldOk := verifies x r.old.publicKey bytes r.sigOld
    let newOk := verifies x r.new.publicKey bytes r.sigNew
    oldOk && newOk

/-- `RotationRecord::create_signed`. The epoch is added without a check, as in a release build. -/
def createSigned (x : Crates) (oldSigning : DeviceKeypair) (oldEpoch : UInt32)
    (newSigning : DeviceKeypair) (newKeyAgreement : String) (sequence : UInt64)
    (prevArchiveHash rotatedAt : String) : RotationRecord :=
  let unsigned : RotationRecord :=
    { trstVersion := "0.2.0"
      kind := rotationKind
      sequence := sequence
      prevArchiveHash := prevArchiveHash
      old := { publicKey := oldSigning.public x, keyEpoch := oldEpoch }
      new :=
        { publicKey := newSigning.public x
          keyAgreementPublic := newKeyAgreement
          keyEpoch := oldEpoch + 1 }
      rotatedAt := rotatedAt
      sigOld := ""
      sigNew := "" }
  let bytes := unsigned.signingBytes x.text
  { unsigned with sigOld := signManifest x oldSigning bytes, sigNew := signManifest x newSigning bytes }

end RotationRecord

/-- A device-signed assertion of its chronicle tip. -/
structure WitnessRequest where
  devicePub : String
  sequence : UInt64
  tip : String
  signedAt : String
  signature : String
  rotation : Option RotationRecord
  deriving DecidableEq

namespace WitnessRequest

def signingText (x : TextCodec) (r : WitnessRequest) : String :=
  "\x7b" ++
  "\"device_pub\":" ++ x.jsonStr r.devicePub ++
  ",\"sequence\":" ++ r.sequence.toNat.repr ++
  ",\"tip\":" ++ x.jsonStr r.tip ++
  ",\"signed_at\":" ++ x.jsonStr r.signedAt ++
  "\x7d"

def signingBytes (x : TextCodec) (r : WitnessRequest) : Bytes :=
  intoBytes (r.signingText x)

def createSigned (x : Crates) (signing : DeviceKeypair) (sequence : UInt64)
    (tip signedAt : String) : WitnessRequest :=
  let req : WitnessRequest :=
    { devicePub := signing.public x
      sequence := sequence
      tip := tip
      signedAt := signedAt
      signature := ""
      rotation := none }
  { req with signature := signManifest x signing (req.signingBytes x.text) }

def verify (x : Crates) (r : WitnessRequest) : Bool :=
  verifies x r.devicePub (r.signingBytes x.text) r.signature

end WitnessRequest

theorem checkedSucc_eq_some {e n : UInt32} :
    checkedSucc e = some n ↔ e.toNat + 1 = n.toNat := by
  unfold checkedSucc
  have hn := n.toNat_lt
  split
  next h =>
    have hadd : (e + 1).toNat = e.toNat + 1 := by
      rw [UInt32.toNat_add]
      exact Nat.mod_eq_of_lt h
    constructor
    · intro he
      rw [← Option.some.inj he, hadd]
    · intro he
      congr 1
      apply UInt32.toNat_inj.mp
      rw [hadd, he]
  next h =>
    constructor
    · intro he
      cases he
    · intro he
      omega

/-- What a verified rotation record attests. -/
structure RotationRecord.Cosigned (x : Crates) (r : RotationRecord) : Prop where
  kind : r.kind = rotationKind
  epoch : r.old.keyEpoch.toNat + 1 = r.new.keyEpoch.toNat
  oldSigned : verifyManifest x r.old.publicKey (r.signingBytes x.text) r.sigOld = .ok true
  newSigned : verifyManifest x r.new.publicKey (r.signingBytes x.text) r.sigNew = .ok true

theorem RotationRecord.verify_iff {x : Crates} {r : RotationRecord} :
    r.verify x = true ↔ r.Cosigned x := by
  unfold RotationRecord.verify
  constructor
  · intro h
    split at h
    next => cases h
    next hkind =>
    split at h
    next => cases h
    next hepoch =>
      obtain ⟨hold, hnew⟩ := Bool.and_eq_true_iff.mp h
      exact ⟨not_not.mp hkind, checkedSucc_eq_some.mp (not_not.mp hepoch), verifies_iff.mp hold,
        verifies_iff.mp hnew⟩
  · rintro ⟨hkind, hepoch, hold, hnew⟩
    simp [hkind, checkedSucc_eq_some.mpr hepoch, verifies_iff.mpr hold, verifies_iff.mpr hnew]

theorem RotationRecord.createSigned_cosigned {x : Crates} (hx : x.SignsLawfully)
    {oldSigning newSigning : DeviceKeypair} {oldEpoch : UInt32} (h : oldEpoch.toNat + 1 < 2 ^ 32)
    (newKeyAgreement : String) (sequence : UInt64) (prevArchiveHash rotatedAt : String) :
    (createSigned x oldSigning oldEpoch newSigning newKeyAgreement sequence prevArchiveHash
      rotatedAt).Cosigned x := by
  refine ⟨rfl, ?_, verifyManifest_signManifest hx oldSigning _,
    verifyManifest_signManifest hx newSigning _⟩
  show oldEpoch.toNat + 1 = (oldEpoch + 1).toNat
  rw [UInt32.toNat_add]
  exact (Nat.mod_eq_of_lt h).symm

theorem WitnessRequest.verify_createSigned {x : Crates} (hx : x.SignsLawfully)
    (signing : DeviceKeypair) (sequence : UInt64) (tip signedAt : String) :
    (createSigned x signing sequence tip signedAt).verify x = true :=
  verifies_iff.mpr (verifyManifest_signManifest hx signing _)

end Sealedge
