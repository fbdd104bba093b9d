import Sealedge.Unwrap

namespace Sealedge

open Fallible

structure VerifyCmd where
  archive : SealDir
  devicePub : String

/-- The first line that `seal verify` prints for an archive it cannot read. -/
def readFailure : ArchiveError → String
  | .missingChunk _ => "Missing chunk file"
  | .unreferencedChunk _ => "Unreferenced chunk file"
  | .invalidChunkIndex _ _ => "Missing chunk file"
  | .json _ => "Invalid manifest format"
  | .signatureMismatch => "Signature verification failed"
  | .io _ => "Archive read error"
  | .schemaMismatch _ => "Schema error"
  | .chain _ => "Continuity chain error"
  | .validationFailed _ => "Validation error"

section Verifying

variable (x : Crates) (st : Storage)

/-- `handle_verify`, without the report that it prints. -/
def handleVerify (args : VerifyCmd) : Except CliError Unit := do
  let (manifest, _) ← (readManifest st args.archive).mapError (fun e => .exit 12 (readFailure e))
  (requireSupportedVersion manifest.trstVersion).mapError (fun e => .exit 12 e)
  match manifest.signature with
  | none => .error (.exit 12 "Manifest missing signature")
  | some signature => do
    failWhen (!verifies x (withAlgorithm args.devicePub) (manifest.toCanonicalBytes x.text) signature)
      (.exit 10 "Signature verification failed")
    (validateArchive x st args.archive).mapError
      (fun _ => .exit 11 "Continuity chain verification failed")

end Verifying

/-- What `seal verify` has checked when it accepts. -/
structure VerifyAccepts (x : Crates) (st : Storage) (args : VerifyCmd) (m : TrstManifest)
    (sig : Bytes) (signature : String) : Prop where
  read : readManifest st args.archive = .ok (m, sig)
  version : m.trstVersion = "0.2.0"
  signed : m.signature = some signature
  verified : verifyManifest x (withAlgorithm args.devicePub) (m.toCanonicalBytes x.text) signature =
    .ok true
  valid : validateArchive x st args.archive = .ok ()

theorem handleVerify_eq_ok {x : Crates} {st : Storage} {args : VerifyCmd} :
    handleVerify x st args = .ok () ↔ ∃ m sig signature, VerifyAccepts x st args m sig signature := by
  unfold handleVerify
  constructor
  · intro h
    obtain ⟨⟨m, sig⟩, hread, h⟩ := bind_eq_ok.mp h
    obtain ⟨_, hversion, h⟩ := bind_eq_ok.mp h
    cases hsigned : m.signature with
    | none =>
      simp only [hsigned] at h
      cases h
    | some signature =>
      simp only [hsigned] at h
      obtain ⟨_, hverify, h⟩ := bind_eq_ok.mp h
      have hverify := failWhen_eq_ok.mp hverify
      exact ⟨m, sig, signature, mapError_eq_ok.mp hread,
        requireSupportedVersion_eq_ok.mp (mapError_eq_ok.mp hversion), hsigned,
        verifies_iff.mp (by simpa using hverify), mapError_eq_ok.mp h⟩
  · rintro ⟨m, sig, signature, h⟩
    refine bind_eq_ok.mpr ⟨(m, sig), mapError_eq_ok.mpr h.read, ?_⟩
    refine bind_eq_ok.mpr ⟨(), mapError_eq_ok.mpr (requireSupportedVersion_eq_ok.mpr h.version), ?_⟩
    simp only [h.signed]
    refine bind_eq_ok.mpr ⟨(), failWhen_eq_ok.mpr ?_, mapError_eq_ok.mpr h.valid⟩
    rw [verifies_iff.mpr h.verified]
    rfl

end Sealedge
