import Sealedge.Archive

namespace Sealedge

open Fallible PieceReader

def formatV1 : String := "te-point-attestation-v1"

inductive PointAttestationError
  | io (e : IoError)
  | crypto (e : CryptoError)
  | hashMismatch (artifact expected actual : String)
  | missingSignature
  deriving DecidableEq

def PointAttestationError.display : PointAttestationError → String
  | io e => "IO error: " ++ e.display
  | crypto e => "Cryptographic error: " ++ e.display
  | hashMismatch artifact expected actual =>
    "Hash mismatch for " ++ artifact ++ ": expected " ++ expected ++ ", actual " ++ actual
  | missingSignature => "Attestation has no signature — sign before verifying"

/-- A reference to one artifact by its hash. -/
structure ArtifactRef where
  hash : String
  filename : String
  label : String
  deriving DecidableEq

/-- A signed statement that binds two artifacts. -/
structure PointAttestation where
  format : String
  sealedgeVersion : String
  timestamp : String
  nonce : String
  subject : ArtifactRef
  evidence : ArtifactRef
  publicKey : String
  signature : Option String
  deriving DecidableEq

section Attesting

variable (x : Crates)

/-- The loop of `hash_file`: the hasher is fed one buffer after the other. -/
def feedHasher (reader : Reader UInt8) (hashed : Bytes) : Digest :=
  if _h : (reader.read (64 * 1024)).1 = [] then x.blake3 hashed
  else feedHasher (reader.read (64 * 1024)).2 (hashed ++ (reader.read (64 * 1024)).1)
termination_by reader.rest.length
decreasing_by exact Reader.read_rest_lt _h

def hashFile (node : Node) : Except PointAttestationError String := do
  let bytes ← node.read.mapError .io
  pure ("b3:" ++ Numerals.hexEncode (feedHasher x (Reader.full bytes) []).val)

/-- `serde_json::to_string` of an artifact. -/
def artifactText (t : TextCodec) (a : ArtifactRef) : String :=
  "\x7b\"hash\":" ++ t.jsonStr a.hash ++
  ",\"filename\":" ++ t.jsonStr a.filename ++
  ",\"label\":" ++ t.jsonStr a.label ++
  "\x7d"

namespace PointAttestation

/-- `serde_json::to_string`: the fields in the order of their declaration. -/
def jsonText (t : TextCodec) (a : PointAttestation) : String :=
  "\x7b\"format\":" ++ t.jsonStr a.format ++
  ",\"sealedge_version\":" ++ t.jsonStr a.sealedgeVersion ++
  ",\"timestamp\":" ++ t.jsonStr a.timestamp ++
  ",\"nonce\":" ++ t.jsonStr a.nonce ++
  ",\"subject\":" ++ artifactText t a.subject ++
  ",\"evidence\":" ++ artifactText t a.evidence ++
  ",\"public_key\":" ++ t.jsonStr a.publicKey ++
  ",\"signature\":" ++ (a.signature.elim "null" t.jsonStr) ++
  "\x7d"

/-- The bytes that are signed: the document without its signature. -/
def canonicalBytes (t : TextCodec) (a : PointAttestation) : Bytes :=
  intoBytes ({ a with signature := none }.jsonText t)

/-- An artifact as `create` finds it: the file, the last part of its path and its label. -/
structure Artifact where
  file : Node
  fileName : Option Bytes
  label : String

def Artifact.ref (st : Storage) (a : Artifact) (hash : String) : ArtifactRef :=
  { hash := hash
    filename := (a.fileName.map st.utf8Lossy).getD ""
    label := a.label }

/-- `PointAttestation::create`, with the drawn nonce and the time of the call. -/
def create (st : Storage) (subject evidence : Artifact) (keypair : DeviceKeypair)
    (nonceBytes : Bytes) (timestamp : String) : Except PointAttestationError PointAttestation := do
  let subjectHash ← hashFile x subject.file
  let evidenceHash ← hashFile x evidence.file
  let attestation : PointAttestation :=
    { format := formatV1
      sealedgeVersion := "0.2.0"
      timestamp := timestamp
      nonce := Numerals.hexEncode nonceBytes
      subject := subject.ref st subjectHash
      evidence := evidence.ref st evidenceHash
      publicKey := keypair.public x
      signature := none }
  pure { attestation with
    signature := some (signManifest x keypair (attestation.canonicalBytes x.text)) }

def verifySignature (a : PointAttestation) (devicePublic : String) :
    Except PointAttestationError Bool :=
  match a.signature with
  | none => .error .missingSignature
  | some sig => (verifyManifest x devicePublic (a.canonicalBytes x.text) sig).mapError .crypto

end PointAttestation

end Attesting

theorem feedHasher_eq (x : Crates) (reader : Reader UInt8) (hashed : Bytes) :
    feedHasher x reader hashed = x.blake3 (hashed ++ reader.rest) := by
  induction reader using Reader.read_induction (64 * 1024) generalizing hashed with
  | atEnd reader hend =>
    have hrest := (Reader.read_eq_nil (by decide)).mp hend
    unfold feedHasher
    rw [dif_pos hend, hrest, List.append_nil]
  | next reader hmore ih =>
    unfold feedHasher
    rw [dif_neg hmore, ih, List.append_assoc, Reader.read_append]

theorem hashFile_eq_ok {x : Crates} {node : Node} {hash : String} :
    hashFile x node = .ok hash ↔
      ∃ bytes, node = .file bytes ∧ hash = "b3:" ++ Numerals.hexEncode (x.blake3 bytes).val := by
  unfold hashFile
  rw [bind_eq_ok]
  constructor
  · rintro ⟨bytes, hread, h⟩
    refine ⟨bytes, Node.read_eq_ok.mp (mapError_eq_ok.mp hread), ?_⟩
    rw [← Except.ok.inj h, feedHasher_eq]
    rfl
  · rintro ⟨bytes, hnode, rfl⟩
    refine ⟨bytes, mapError_eq_ok.mpr (Node.read_eq_ok.mpr hnode), ?_⟩
    rw [feedHasher_eq]
    rfl

theorem PointAttestation.verifySignature_create {x : Crates} (hx : x.SignsLawfully) {st : Storage}
    {subject evidence : Artifact} {keypair : DeviceKeypair} {nonceBytes : Bytes}
    {timestamp : String} {a : PointAttestation}
    (h : create x st subject evidence keypair nonceBytes timestamp = .ok a) :
    a.verifySignature x (keypair.public x) = .ok true := by
  obtain ⟨subjectHash, -, h⟩ := bind_eq_ok.mp h
  obtain ⟨evidenceHash, -, h⟩ := bind_eq_ok.mp h
  cases h
  exact mapError_eq_ok.mpr (verifyManifest_signManifest hx keypair _)

end Sealedge
