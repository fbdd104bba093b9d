import Sealedge.EmitRequest
import Sealedge.KeyRuns
import Sealedge.UnwrapOrigin

namespace Sealedge

open Fallible UnixPath JsonValue

section Documents

def ArtifactRef.toDocument (a : ArtifactRef) : JsonValue :=
  .object [("hash", .string a.hash), ("filename", .string a.filename), ("label", .string a.label)]

def ArtifactRef.fromValue (v : JsonValue) : Option ArtifactRef := do
  let d ← v.asStruct ["hash", "filename", "label"]
  pure {
    hash := ← d.required "hash" asStr
    filename := ← d.required "filename" asStr
    label := ← d.required "label" asStr }

namespace PointAttestation

def toDocument (a : PointAttestation) : JsonValue :=
  .object
    [("format", .string a.format), ("sealedge_version", .string a.sealedgeVersion),
     ("timestamp", .string a.timestamp), ("nonce", .string a.nonce),
     ("subject", a.subject.toDocument), ("evidence", a.evidence.toDocument),
     ("public_key", .string a.publicKey), ("signature", (a.signature.map .string).getD .null)]

def fromValue (v : JsonValue) : Option PointAttestation := do
  let d ← v.asStruct ["format", "sealedge_version", "timestamp", "nonce", "subject", "evidence",
    "public_key", "signature"]
  pure {
    format := ← d.required "format" asStr
    sealedgeVersion := ← d.required "sealedge_version" asStr
    timestamp := ← d.required "timestamp" asStr
    nonce := ← d.required "nonce" asStr
    subject := ← d.required "subject" ArtifactRef.fromValue
    evidence := ← d.required "evidence" ArtifactRef.fromValue
    publicKey := ← d.required "public_key" asStr
    signature := ← d.optional "signature" asStr }

/-- `to_json`: the pretty text. -/
def toJson (js : JsonCrate) (a : PointAttestation) : String :=
  String.ofList (render js (some 0) a.toDocument)

def fromJson (js : JsonCrate) (json : String) : Option PointAttestation :=
  (js.parse (intoBytes json)).bind fromValue

/-- The comparison of one file, if it was given. -/
def verifyFileHash (x : Crates) (ref : ArtifactRef) :
    Option Node → Except PointAttestationError Unit
  | none => .ok ()
  | some file => do
    let actual ← hashFile x file
    failWhen (actual != ref.hash) (.hashMismatch ref.filename ref.hash actual)

def verifyFileHashes (x : Crates) (a : PointAttestation) (subject evidence : Option Node) :
    Except PointAttestationError Unit := do
  verifyFileHash x a.subject subject
  verifyFileHash x a.evidence evidence

end PointAttestation

end Documents

structure AttestSbomCmd where
  binary : String
  sbom : String
  deviceKey : String
  out : Option String
  unencrypted : Bool

/-- What a call draws, reads off the clock and is told at the prompt, what the metadata of a file
that cannot be read says, and what fails. -/
structure AttestSession where
  nonceBytes : Bytes
  timestamp : String
  typed : Option String
  unreadableSize : Nat
  write : FileFaults
  permissions : Option IoError

structure VerifyAttestationCmd where
  attestation : String
  devicePub : String
  binary : Option String
  sbom : Option String

/-- The node at the path of a text. -/
def Disk.at (disk : Disk) (path : String) : Node := disk (Path.ofText path).components

def Node.size (unreadableSize : Nat) : Node → Except IoError Nat
  | .absent => .error .notFound
  | .file bytes => .ok bytes.length
  | .unreadable _ _ => .ok unreadableSize

def maxBinarySize : Nat := 256 * 1024 * 1024

section Commands

variable (x : Crates) (sc : SecretCrates) (js : JsonCrate) (st : Storage)

/-- The file of a path as an artifact. -/
def artifactAt (disk : Disk) (path label : String) : PointAttestation.Artifact :=
  ⟨disk.at path, (Path.ofText path).fileName.map intoBytes, label⟩

/-- `handle_attest_sbom` up to the write of the document. -/
def attestSbom (args : AttestSbomCmd) (s : AttestSession) (disk : Disk) :
    Except CliError PointAttestation := do
  let size ← withContext ((disk.at args.binary).size s.unreadableSize)
    ("Failed to read binary file: " ++ args.binary)
  failWhen (size == 0) (.exit 1 "Error: binary file is empty (0 bytes)")
  failWhen (decide (maxBinarySize < size)) (.exit 1
    ("Error: binary file exceeds 256 MB limit (" ++ size.repr ++ " bytes)"))
  let sbom ← withContext (readToString (disk.at args.sbom))
    ("Failed to read SBOM file: " ++ args.sbom)
  failWhen (js.parse (intoBytes sbom)).isNone (.exit 1 "Error: SBOM file is not valid JSON")
  let keypair ← loadSigningKeypair x sc js args.deviceKey args.unencrypted s.typed disk
  withContext (PointAttestation.create x st (artifactAt disk args.binary "binary")
    (artifactAt disk args.sbom "sbom") keypair s.nonceBytes s.timestamp)
    "Failed to create attestation"

def AttestSbomCmd.outPath (args : AttestSbomCmd) : String :=
  args.out.getD "attestation.se-attestation.json"

/-- `handle_attest_sbom`: the document stays if only its permissions cannot be set. -/
def handleAttestSbom (args : AttestSbomCmd) (s : AttestSession) (disk : Disk) :
    Except CliError Unit × Disk :=
  match attestSbom x sc js st args s disk with
  | .error e => (.error e, disk)
  | .ok attestation =>
    match disk.putFile s.write (Path.ofText args.outPath).components
        (intoBytes (attestation.toJson js)) with
    | (.error _, disk) => (.error (.other ("Failed to write attestation: " ++ args.outPath)), disk)
    | (.ok (), disk) =>
      (failWhen s.permissions.isSome
        (.other ("Failed to set permissions on " ++ args.outPath)), disk)

def resolveAttestationKey (devicePub : String) (disk : Disk) : Except CliError String :=
  if Texts.startsWith devicePub "ed25519:" then pure devicePub
  else do
    let content ← withContext (readToString (disk.at devicePub))
      ("Failed to read public key file: " ++ devicePub)
    pure (selectDevicePub content)

/-- `handle_verify_attestation`: neither the format nor the key that the document names is
compared with anything. -/
def handleVerifyAttestation (args : VerifyAttestationCmd) (disk : Disk) : Except CliError Unit := do
  let json ← withContext (readToString (disk.at args.attestation))
    ("Failed to read attestation: " ++ args.attestation)
  let attestation ← orFail (PointAttestation.fromJson js json) "Failed to parse attestation JSON"
  let devicePub ← resolveAttestationKey args.devicePub disk
  let valid ← withContext (attestation.verifySignature x devicePub) "Failed to verify signature"
  (attestation.verifyFileHashes x (args.binary.map disk.at) (args.sbom.map disk.at)).mapError
    fun e => .exit 10 ("Hash mismatch: " ++ e.display)
  failWhen (!valid) (.exit 10 "Signature verification failed")

end Commands

/-- The answer of `/v1/verify-attestation`. -/
structure VerifyAttestationResponse where
  status : String
  receipt : Option String
  details : JsonValue

section Handler

variable (x : Crates) (js : JsonCrate) (env : PlatformEnv)

/-- The claims of a receipt for an attestation; its key is never a registered one. -/
def attestationClaims (a : PointAttestation) : ReceiptClaims where
  verificationId := "va_" ++ env.receiptUuid
  signerPub := a.publicKey
  deviceId := a.publicKey
  deviceRegistered := false
  manifestDigest := "b3:" ++ x.base64Encode (segmentHash x (a.canonicalBytes x.text)).val
  chainTip := "none"
  timestamp := env.nowRfc3339
  kid := env.keys.currentKid
  result := ⟨⟨true, none⟩, ⟨true, none⟩, ⟨0, 0, "none", "none"⟩⟩

def failedAttestation (reason : String) (a : PointAttestation) : VerifyAttestationResponse where
  status := "failed"
  receipt := none
  details := .object [("reason", .string reason), ("public_key", .string a.publicKey),
    ("timestamp", .string a.timestamp)]

def verifiedAttestation (jws : String) (a : PointAttestation) : VerifyAttestationResponse where
  status := "verified"
  receipt := some jws
  details := .object [("subject_hash", .string a.subject.hash),
    ("evidence_hash", .string a.evidence.hash), ("public_key", .string a.publicKey),
    ("timestamp", .string a.timestamp), ("format", .string a.format),
    ("signer_registered", .bool false),
    ("trust", .string ("self-signed: signature valid for the embedded public key; " ++
      "signer identity not established"))]

def verifyAttestationHandler (body : String) : Except HttpError VerifyAttestationResponse :=
  match PointAttestation.fromJson js body with
  | none => .error ⟨400, "invalid_attestation", "Failed to parse attestation document"⟩
  | some a => do
    failWhen (a.format != formatV1)
      ⟨400, "invalid_format", "Expected format te-point-attestation-v1"⟩
    failWhen a.signature.isNone ⟨400, "missing_signature", "Attestation document has no signature"⟩
    match a.verifySignature x a.publicKey with
    | .error _ => pure (failedAttestation "Cryptographic verification failed" a)
    | .ok false => pure (failedAttestation "Signature verification failed" a)
    | .ok true =>
      match signReceiptJws env (attestationClaims x env a) with
      | .error _ => .error ⟨500, "receipt_error", "Failed to sign receipt"⟩
      | .ok jws => pure (verifiedAttestation jws a)

end Handler

theorem readToString_file (text : String) : readToString (.file (intoBytes text)) = .ok text := by
  unfold readToString
  refine bind_eq_ok.mpr ⟨intoBytes text, rfl, ?_⟩
  rw [utf8Decode_intoBytes]

section Accepting

variable {x : Crates} {sc : SecretCrates} {js : JsonCrate} {st : Storage}

theorem ArtifactRef.fromValue_toDocument (a : ArtifactRef) :
    ArtifactRef.fromValue a.toDocument = some a := by
  simp [ArtifactRef.fromValue, ArtifactRef.toDocument, JsonValue.asStruct, StructDoc.required,
    asStr]

theorem PointAttestation.fromValue_toDocument (a : PointAttestation) :
    fromValue a.toDocument = some a := by
  obtain ⟨format, version, timestamp, nonce, subject, evidence, publicKey, signature⟩ := a
  cases signature <;>
    simp [fromValue, toDocument, JsonValue.asStruct, StructDoc.required, StructDoc.optional,
      StructDoc.orNull, asStr, ArtifactRef.fromValue_toDocument]

theorem PointAttestation.printable (a : PointAttestation) :
    Printable maxNesting a.toDocument := by
  have hartifact : ∀ r : ArtifactRef, Printable 126 r.toDocument := fun r =>
    .object _ (by simp [Printable.string])
  refine .object _ ?_
  cases a.signature <;> simp [hartifact, Printable.string, Printable.null]

theorem PointAttestation.fromJson_toJson (hjs : js.Lossless) (a : PointAttestation) :
    fromJson js (a.toJson js) = some a := by
  unfold fromJson toJson
  rw [hjs.reads a.printable, Option.bind_some, a.fromValue_toDocument]

theorem verifyFileHash_eq_ok {ref : ArtifactRef} {file : Option Node} :
    PointAttestation.verifyFileHash x ref file = .ok () ↔
      ∀ node, file = some node → hashFile x node = .ok ref.hash := by
  cases file with
  | none => simp [PointAttestation.verifyFileHash]
  | some node =>
    unfold PointAttestation.verifyFileHash
    rw [bind_eq_ok]
    constructor
    · rintro ⟨actual, hactual, hsame⟩ node' hnode
      cases Option.some.inj hnode
      rw [hactual, show actual = ref.hash by simpa using failWhen_eq_ok.mp hsame]
    · intro h
      exact ⟨ref.hash, h node rfl, failWhen_eq_ok.mpr (by simp)⟩

theorem PointAttestation.verifyFileHashes_eq_ok {a : PointAttestation}
    {subject evidence : Option Node} : a.verifyFileHashes x subject evidence = .ok () ↔
      (∀ node, subject = some node → hashFile x node = .ok a.subject.hash) ∧
        ∀ node, evidence = some node → hashFile x node = .ok a.evidence.hash := by
  rw [← verifyFileHash_eq_ok, ← verifyFileHash_eq_ok]
  unfold verifyFileHashes
  rw [bind_eq_ok]
  constructor
  · rintro ⟨_, hsubject, hevidence⟩
    exact ⟨hsubject, hevidence⟩
  · rintro ⟨hsubject, hevidence⟩
    exact ⟨(), hsubject, hevidence⟩

theorem handleVerifyAttestation_eq_ok {args : VerifyAttestationCmd} {disk : Disk} :
    handleVerifyAttestation x js args disk = .ok () ↔
      ∃ json a key, readToString (disk.at args.attestation) = .ok json ∧
        PointAttestation.fromJson js json = some a ∧
        resolveAttestationKey args.devicePub disk = .ok key ∧
        a.verifySignature x key = .ok true ∧
        a.verifyFileHashes x (args.binary.map disk.at) (args.sbom.map disk.at) = .ok () := by
  unfold handleVerifyAttestation
  constructor
  · intro h
    obtain ⟨json, hjson, h⟩ := bind_eq_ok.mp h
    obtain ⟨a, ha, h⟩ := bind_eq_ok.mp h
    obtain ⟨key, hkey, h⟩ := bind_eq_ok.mp h
    obtain ⟨valid, hvalid, h⟩ := bind_eq_ok.mp h
    obtain ⟨_, hhashes, h⟩ := bind_eq_ok.mp h
    have htrue : valid = true := by simpa using failWhen_eq_ok.mp h
    exact ⟨json, a, key, mapError_eq_ok.mp hjson, orFail_eq_ok.mp ha, hkey,
      htrue ▸ mapError_eq_ok.mp hvalid, mapError_eq_ok.mp hhashes⟩
  · rintro ⟨json, a, key, hjson, ha, hkey, hvalid, hhashes⟩
    exact bind_eq_ok.mpr ⟨json, mapError_eq_ok.mpr hjson, bind_eq_ok.mpr ⟨a, orFail_eq_ok.mpr ha,
      bind_eq_ok.mpr ⟨key, hkey, bind_eq_ok.mpr ⟨true, mapError_eq_ok.mpr hvalid,
        bind_eq_ok.mpr ⟨(), mapError_eq_ok.mpr hhashes, rfl⟩⟩⟩⟩⟩

theorem verifyAttestationHandler_verified {env : PlatformEnv} {body : String}
    {r : VerifyAttestationResponse} :
    verifyAttestationHandler x js env body = .ok r ∧ r.status = "verified" ↔
      ∃ a jws, PointAttestation.fromJson js body = some a ∧ a.format = formatV1 ∧
        a.verifySignature x a.publicKey = .ok true ∧
        signReceiptJws env (attestationClaims x env a) = .ok jws ∧
        r = verifiedAttestation jws a := by
  unfold verifyAttestationHandler
  constructor
  · rintro ⟨h, hstatus⟩
    split at h
    next => cases h
    next a ha =>
      obtain ⟨_, hformat, h⟩ := bind_eq_ok.mp h
      obtain ⟨_, -, h⟩ := bind_eq_ok.mp h
      have hformat : a.format = formatV1 := by simpa using failWhen_eq_ok.mp hformat
      split at h
      next =>
        cases Except.ok.inj h
        exact absurd hstatus (show "failed" ≠ "verified" by decide)
      next =>
        cases Except.ok.inj h
        exact absurd hstatus (show "failed" ≠ "verified" by decide)
      next hvalid =>
        split at h
        next => cases h
        next jws hjws =>
          cases Except.ok.inj h
          exact ⟨a, jws, ha, hformat, hvalid, hjws, rfl⟩
  · rintro ⟨a, jws, ha, hformat, hvalid, hjws, rfl⟩
    have hsigned : a.signature.isNone = false := by
      cases hsignature : a.signature with
      | none =>
        rw [PointAttestation.verifySignature, hsignature] at hvalid
        cases hvalid
      | some => rfl
    refine ⟨?_, rfl⟩
    simp only [ha]
    refine bind_eq_ok.mpr ⟨(), failWhen_eq_ok.mpr (by simp [hformat]),
      bind_eq_ok.mpr ⟨(), failWhen_eq_ok.mpr hsigned, ?_⟩⟩
    simp only [hvalid, hjws]
    rfl

theorem attestSbom_eq_ok {args : AttestSbomCmd} {s : AttestSession} {disk : Disk}
    {a : PointAttestation} (h : attestSbom x sc js st args s disk = .ok a) :
    ∃ k, loadSigningKeypair x sc js args.deviceKey args.unencrypted s.typed disk = .ok k ∧
      PointAttestation.create x st (artifactAt disk args.binary "binary")
        (artifactAt disk args.sbom "sbom") k s.nonceBytes s.timestamp = .ok a := by
  obtain ⟨_, -, h⟩ := bind_eq_ok.mp h
  obtain ⟨_, -, h⟩ := bind_eq_ok.mp h
  obtain ⟨_, -, h⟩ := bind_eq_ok.mp h
  obtain ⟨_, -, h⟩ := bind_eq_ok.mp h
  obtain ⟨_, -, h⟩ := bind_eq_ok.mp h
  obtain ⟨k, hk, h⟩ := bind_eq_ok.mp h
  exact ⟨k, hk, mapError_eq_ok.mp h⟩

theorem attestSbom_of_files {args : AttestSbomCmd} {s : AttestSession} {disk : Disk}
    {binary : Bytes} {sbom : String} {k : DeviceKeypair}
    (hbinary : disk.at args.binary = .file binary) (hne : binary ≠ [])
    (hsize : binary.length ≤ maxBinarySize) (hsbom : disk.at args.sbom = .file (intoBytes sbom))
    (hjson : (js.parse (intoBytes sbom)).isSome = true)
    (hk : loadSigningKeypair x sc js args.deviceKey args.unencrypted s.typed disk = .ok k) :
    ∃ a, attestSbom x sc js st args s disk = .ok a := by
  have hempty : (binary.length == 0) = false := by simpa using hne
  have hcreate : ∃ a, PointAttestation.create x st (artifactAt disk args.binary "binary")
      (artifactAt disk args.sbom "sbom") k s.nonceBytes s.timestamp = .ok a :=
    ⟨_, bind_eq_ok.mpr ⟨_, hashFile_eq_ok.mpr ⟨_, hbinary, rfl⟩,
      bind_eq_ok.mpr ⟨_, hashFile_eq_ok.mpr ⟨_, hsbom, rfl⟩, rfl⟩⟩⟩
  obtain ⟨a, hcreate⟩ := hcreate
  refine ⟨a, ?_⟩
  unfold attestSbom
  rw [hbinary, hsbom, readToString_file]
  exact bind_eq_ok.mpr ⟨binary.length, rfl, bind_eq_ok.mpr ⟨(), failWhen_eq_ok.mpr hempty,
    bind_eq_ok.mpr ⟨(), failWhen_eq_ok.mpr (decide_eq_false (by omega)),
      bind_eq_ok.mpr ⟨sbom, rfl, bind_eq_ok.mpr ⟨(), failWhen_eq_ok.mpr (by simpa using hjson),
        bind_eq_ok.mpr ⟨k, hk, mapError_eq_ok.mpr hcreate⟩⟩⟩⟩⟩⟩

theorem handleAttestSbom_eq_ok {args : AttestSbomCmd} {s : AttestSession} {disk disk' : Disk}
    (h : handleAttestSbom x sc js st args s disk = (.ok (), disk')) :
    ∃ a, attestSbom x sc js st args s disk = .ok a ∧
      disk'.at args.outPath = .file (intoBytes (a.toJson js)) := by
  unfold handleAttestSbom at h
  split at h
  next => cases h
  next a ha =>
    split at h
    next => cases h
    next written hput =>
      obtain ⟨-, rfl⟩ := Prod.mk.inj h
      exact ⟨a, ha, Disk.putFile_eq_ok hput⟩

theorem handleAttestSbom_of_attestSbom {args : AttestSbomCmd} {s : AttestSession} {disk : Disk}
    {a : PointAttestation} (ha : attestSbom x sc js st args s disk = .ok a)
    (hout : ∀ reason, disk.at args.outPath ≠ .unreadable false reason)
    (hwrite : s.write = ⟨none, none⟩) (hpermissions : s.permissions = none) :
    ∃ disk', handleAttestSbom x sc js st args s disk = (.ok (), disk') := by
  obtain ⟨disk', hput⟩ := Disk.putFile_calm hout (intoBytes (a.toJson js))
  refine ⟨disk', ?_⟩
  unfold handleAttestSbom
  rw [ha, hwrite, hpermissions]
  simp only [hput]
  rfl

/-- What `create` puts into a document. -/
structure PointAttestation.MadeOf (x : Crates) (subject evidence : Artifact) (k : DeviceKeypair)
    (a : PointAttestation) : Prop where
  subject : hashFile x subject.file = .ok a.subject.hash
  evidence : hashFile x evidence.file = .ok a.evidence.hash
  format : a.format = formatV1
  publicKey : a.publicKey = k.public x

theorem PointAttestation.create_eq_ok {subject evidence : Artifact} {k : DeviceKeypair}
    {nonceBytes : Bytes} {timestamp : String} {a : PointAttestation}
    (h : create x st subject evidence k nonceBytes timestamp = .ok a) :
    a.MadeOf x subject evidence k := by
  obtain ⟨subjectHash, hsubject, h⟩ := bind_eq_ok.mp h
  obtain ⟨evidenceHash, hevidence, h⟩ := bind_eq_ok.mp h
  cases h
  exact ⟨hsubject, hevidence, rfl, rfl⟩

/-- A document is compared with the files at two paths through the hashes of what it attests. -/
theorem PointAttestation.MadeOf.verifyFileHashes_paths {subject evidence : Artifact}
    {k : DeviceKeypair} {a : PointAttestation} (h : a.MadeOf x subject evidence k) (disk : Disk)
    (binary sbom : Option String) :
    a.verifyFileHashes x (binary.map disk.at) (sbom.map disk.at) = .ok () ↔
      (∀ path, binary = some path → hashFile x (disk.at path) = hashFile x subject.file) ∧
      ∀ path, sbom = some path → hashFile x (disk.at path) = hashFile x evidence.file := by
  rw [PointAttestation.verifyFileHashes_eq_ok, h.subject, h.evidence]
  cases binary <;> cases sbom <;> simp

theorem selectDevicePub_lines {key rest : String} (hkey : Texts.startsWith key "ed25519:" = true)
    (hplain : ∀ c ∈ key.toList, isWhitespace c = false) :
    selectDevicePub (key ++ "\n" ++ rest) = key := by
  have hchars : (key ++ "\n" ++ rest).toList = key.toList ++ '\n' :: rest.toList := by
    rw [String.toList_append, String.toList_append, List.append_assoc]
    rfl
  have hline : key.toList.splitOn '\n' = [key.toList] := by
    refine List.splitOnP_eq_singleton fun c hc => ?_
    by_contra hnewline
    rw [eq_of_beq (Bool.eq_true_of_not_eq_false hnewline)] at hc
    exact absurd (hplain _ hc) (by decide)
  have hsame : String.ofList (trimChars key.toList) = key := by
    rw [trimChars_eq_self hplain, String.ofList_toList]
  unfold selectDevicePub
  rw [hchars, List.splitOn, List.splitOnP_append_cons _ _ (by simp), ← List.splitOn, hline]
  simp only [List.singleton_append, List.map_cons, hsame, List.find?_cons_of_pos, hkey,
    Option.getD_some]

end Accepting

/-- Where a verifier may take the public half of a kept key from: its text, or its file. -/
inductive KeyNamedBy (x : Crates) (keyArgs : KeygenCmd) (k : DeviceKeypair) (disk later : Disk) :
    String → Prop
  | inline : KeyNamedBy x keyArgs k disk later (k.public x)
  | file (hpath : Texts.startsWith keyArgs.outPub "ed25519:" = false)
      (hsame : later.at keyArgs.outPub = disk.at keyArgs.outPub) :
      KeyNamedBy x keyArgs k disk later keyArgs.outPub

theorem KeyNamedBy.resolves {x : Crates} {c : ContentCrates} {sc : SecretCrates} {js : JsonCrate}
    {keyArgs : KeygenCmd} {s : KeySession} {disk later : Disk}
    (hkept : Kept x c sc js keyArgs s disk)
    (hplain : ∀ ch ∈ (s.bundle.signing.public x).toList, isWhitespace ch = false) {pub : String}
    (h : KeyNamedBy x keyArgs s.bundle.signing disk later pub) :
    resolveAttestationKey pub later = .ok (s.bundle.signing.public x) := by
  have hkey : Texts.startsWith (s.bundle.signing.public x) "ed25519:" = true :=
    Texts.startsWith_append _ _
  cases h with
  | inline =>
    unfold resolveAttestationKey
    rw [if_pos hkey]
    rfl
  | file hpath hsame =>
    have hfile : later.at keyArgs.outPub = _ := hsame.trans hkept.pubFile
    have hread : readToString (later.at keyArgs.outPub) = .ok (s.bundle.signing.public x ++ "\n" ++
        (s.bundle.keyAgreement.publicString x c ++ "\n")) := by
      rw [hfile, ← String.append_assoc, readToString_file]
    unfold resolveAttestationKey
    rw [if_neg (by simp [hpath])]
    refine bind_eq_ok.mpr ⟨_, mapError_eq_ok.mpr hread, ?_⟩
    rw [selectDevicePub_lines hkey hplain]
    rfl

section Sample

/-- A release: a binary and its bill of materials. -/
def releaseDisk : Disk := fun path =>
  if path = (Path.ofText "app").components then .file [1, 2, 3]
  else if path = (Path.ofText "sbom.json").components then .file (intoBytes "[]")
  else .absent

/-- The disk after a key was generated beside the release. -/
def keyedRelease : Disk :=
  (handleKeygen sampleCrates sampleContent Jwks.sampleSecrets sampleJson sampleKeygen
    (sampleSession 7 1) releaseDisk).2

theorem keyedRelease_kept : Kept sampleCrates sampleContent Jwks.sampleSecrets sampleJson
    sampleKeygen (sampleSession 7 1) keyedRelease := by
  refine ⟨by decide, releaseDisk, keyedRelease, [], Prod.ext ?_ rfl, by simp, rfl⟩
  rfl

def releaseCmd : AttestSbomCmd := ⟨"app", "sbom.json", "cam.key", none, false⟩

def releaseSession : AttestSession :=
  ⟨List.replicate 16 7, "2026-01-01T00:00:00.000Z", some "correct horse", 0, calmFile, none⟩

theorem keyedRelease_loads : loadSigningKeypair sampleCrates Jwks.sampleSecrets sampleJson
    releaseCmd.deviceKey releaseCmd.unencrypted releaseSession.typed keyedRelease =
      .ok (sampleSession 7 1).bundle.signing := by
  obtain ⟨bytes, hbytes, hkeyFile, -⟩ := keyedRelease_kept.files
  exact (opensAs_of_keyFile sampleCrates_signsLawfully Jwks.sampleSecrets_opens
    sampleJson_lossless hbytes hkeyFile).signing

theorem keyedRelease_files : keyedRelease.at releaseCmd.binary = .file [1, 2, 3] ∧
    keyedRelease.at releaseCmd.sbom = .file (intoBytes "[]") ∧
    keyedRelease.at releaseCmd.outPath = .absent := by
  decide +kernel

theorem keyedRelease_attested : ∃ disk', handleAttestSbom sampleCrates Jwks.sampleSecrets
    sampleJson sampleFiles releaseCmd releaseSession keyedRelease = (.ok (), disk') := by
  obtain ⟨hbinary, hsbom, hout⟩ := keyedRelease_files
  obtain ⟨a, ha⟩ : ∃ a, attestSbom sampleCrates Jwks.sampleSecrets sampleJson sampleFiles
      releaseCmd releaseSession keyedRelease = .ok a :=
    attestSbom_of_files hbinary (List.cons_ne_nil _ _) (by decide) hsbom (by decide +kernel)
      keyedRelease_loads
  refine handleAttestSbom_of_attestSbom ha ?_ rfl rfl
  intro reason hnode
  rw [hout] at hnode
  cases hnode

theorem sample_public_plain (k : DeviceKeypair) :
    ∀ ch ∈ (k.public sampleCrates).toList, isWhitespace ch = false := by
  obtain ⟨values, pad, hdigits, hvalues, -⟩ :=
    Base64.encodeChars_digits (sampleCrates.ed25519Public k.secret)
  have hletters : ∀ n, n < 64 → isWhitespace (Base64.digit n) = false := by decide +kernel
  have hscheme : "ed25519:".toList.all (fun ch => !isWhitespace ch) = true := by decide
  have htext : (k.public sampleCrates).toList =
      "ed25519:".toList ++ (values.map Base64.digit ++ List.replicate pad '=') := by
    rw [← hdigits, DeviceKeypair.public, String.toList_append]
    exact congrArg _ String.toList_ofList
  intro ch hch
  rw [htext] at hch
  rcases List.mem_append.mp hch with hch | hch
  · simpa using List.all_eq_true.mp hscheme ch hch
  · rcases List.mem_append.mp hch with hch | hch
    · obtain ⟨n, hn, rfl⟩ := List.mem_map.mp hch
      exact hletters n (hvalues n hn)
    · rw [List.eq_of_mem_replicate hch]
      decide

end Sample

end Sealedge
