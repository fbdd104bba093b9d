import Sealedge.ChronicleChecks
import Sealedge.Slices
import Sealedge.WrapSpec

namespace Sealedge

open Fallible

structure UnwrapCmd where
  archive : SealDir
  devicePub : Option String
  output : String

/-- The file at the output path and its temporary sibling. -/
structure OutputFiles where
  target : Node
  temp : Node

/-- The steps on the output that fail. What a failed run leaves at the temporary path is given
when deleting it fails too. -/
structure OutputFaults where
  create : Option IoError
  write : Nat → Option IoError
  flush : Option IoError
  rename : Option IoError
  leftover : Option Node

structure UnwrapEnv where
  bundle : Except CliError DeviceBundle
  faults : OutputFaults

/-- A step on the output that may fail. -/
def outputStep (fault : Option IoError) (error : IoError → CliError) : Except CliError Unit :=
  match fault with
  | some e => .error (error e)
  | none => .ok ()

/-- A key argument without an algorithm stands for an Ed25519 key. -/
def withAlgorithm (key : String) : String :=
  if Texts.startsWith key "ed25519:" || Texts.startsWith key "ecdsa-p256:" then key
  else "ed25519:" ++ key

def checkSigner (devicePub : Option String) (m : TrstManifest) : Except CliError Unit :=
  match devicePub with
  | none => .ok ()
  | some expected =>
    failWhen (withAlgorithm expected != m.device.publicKey)
      (.exit 10 ("Signer mismatch: expected " ++ withAlgorithm expected ++
        ", archive is signed by " ++ m.device.publicKey))

/-- The content key of an archive and the data its chunks are bound to; a sign-only archive has
none. -/
abbrev DecryptContext := Option (ContentKey × Digest)

section Unwrapping

variable (x : Crates) (c : ContentCrates) (st : Storage)

/-- The signature under the key that the manifest itself names. -/
def checkOwnSignature (m : TrstManifest) : Except CliError Unit := do
  let signature ← orFail m.signature "Archive has no signature"
  let valid ← passOn ((verifyManifest x m.device.publicKey (m.toCanonicalBytes x.text)
    signature).mapError CryptoError.display)
  failWhen (!valid) (.exit 10 "Signature: FAIL")

/-- The content-key step: the entry of the recipient is opened against the manifest without its
encryption block. -/
def openContentKey (bundle : DeviceBundle) (m : TrstManifest) : Except CliError DecryptContext :=
  match m.encryption with
  | none => .ok none
  | some enc => do
    let myPub := bundle.keyAgreement.publicString x c
    let entry ← orFail (enc.recipients.find? (fun r => r.recipientPub == myPub))
      "This key is not a recipient of the archive"
    let preDigest := segmentHash x ({ m with encryption := none }.toCanonicalBytes x.text)
    let info := cekWrapInfo m.device.publicKey m.trstVersion
    let cek ← (hpkeOpenCek x c bundle.keyAgreement entry.enc info preDigest.val
      entry.wrappedCek).mapError
        (fun e => .exit 1 ("Failed to unwrap content key: " ++ e.display))
    pure (some (cek, chunkAadV2 x m.device.publicKey m.profile (manifestStartedAt m)))

/-- Everything before the output is touched. -/
def prepareUnwrap (env : UnwrapEnv) (args : UnwrapCmd) :
    Except CliError (TrstManifest × DecryptContext) := do
  let bundle ← env.bundle
  let (manifest, _) ← withContext (readManifest st args.archive)
    ("Failed to read archive: " ++ args.archive.path)
  passOn (requireSupportedVersion manifest.trstVersion)
  checkSigner args.devicePub manifest
  checkOwnSignature x manifest
  (validateArchive x st args.archive).mapError
    (fun e => .exit 11 ("Continuity: FAIL (" ++ e.display ++ ")"))
  let ctx ← openContentKey x c bundle manifest
  pure (manifest, ctx)

/-- The bounded read of one stored chunk. -/
def readStored (dir : SealDir) (index : Nat) : Except CliError Bytes := do
  let content ← withContext (dir.chunks.node (chunkFileName index)).read
    ("Failed to read chunk: " ++ dir.path ++ "/chunks/" ++ chunkFileName index)
  let buf := content.take (maxStoredChunkBytes + 1)
  failWhen (decide (maxStoredChunkBytes < buf.length))
    (.other ("Chunk " ++ Numerals.padded 5 index ++ " exceeds the maximum stored size"))
  pure buf

/-- The plaintext of a stored chunk: the chunk itself, or what its ciphertext opens to behind the
nonce it begins with. -/
def recoverChunk (ctx : DecryptContext) (index : Nat) (stored : Bytes) : Except CliError Bytes :=
  match ctx with
  | none => .ok stored
  | some (cek, aad) =>
    if h : stored.length < 24 then
      .error (.other ("Chunk " ++ Numerals.padded 5 index ++ " too short to contain nonce (" ++
        stored.length.repr ++ " bytes)"))
    else
      (decryptSegment c cek ⟨stored.take 24, by rw [List.length_take]; omega⟩ (stored.drop 24)
        aad.val).mapError (fun e =>
          .exit 1 ("Decryption failed — wrong key or corrupted archive: " ++ e.display))

/-- The recovery loop over some chunks from a position on; the bytes are those it writes. -/
def recoverChunks (faults : OutputFaults) (dir : SealDir) (ctx : DecryptContext) :
    Nat → Nat → Except CliError Bytes
  | _, 0 => .ok []
  | index, n + 1 => do
    let stored ← readStored dir index
    let plaintext ← recoverChunk c ctx index stored
    outputStep (faults.write index) (fun e => .other e.display)
    let rest ← recoverChunks faults dir ctx (index + 1) n
    pure (plaintext ++ rest)

/-- The recovery into the temporary file, up to its renaming. -/
def recoverOutput (faults : OutputFaults) (args : UnwrapCmd) (manifest : TrstManifest)
    (ctx : DecryptContext) : Except CliError Bytes := do
  outputStep faults.create (fun _ => .other ("Failed to create temp output: " ++ args.output))
  let bytes ← recoverChunks c faults args.archive ctx 0 manifest.segments.length
  outputStep faults.flush (fun _ => .other ("Failed to flush output: " ++ args.output))
  outputStep faults.rename (fun _ => .other ("Failed to finalize output: " ++ args.output))
  pure bytes

/-- `handle_unwrap`, with the files at the output afterwards. The guard deletes the temporary file
on every return after its path is chosen, save the last one. -/
def handleUnwrap (env : UnwrapEnv) (args : UnwrapCmd) (files : OutputFiles) :
    Except CliError Unit × OutputFiles :=
  match prepareUnwrap x c st env args with
  | .error e => (.error e, files)
  | .ok (manifest, ctx) =>
    match recoverOutput c env.faults args manifest ctx with
    | .error e => (.error e, { files with temp := env.faults.leftover.getD .absent })
    | .ok bytes => (.ok (), { target := .file bytes, temp := .absent })

end Unwrapping

theorem outputStep_eq_ok {fault : Option IoError} {error : IoError → CliError} :
    outputStep fault error = .ok () ↔ fault = none := by
  cases fault <;> simp [outputStep]

section Spec

variable {x : Crates} {c : ContentCrates} {st : Storage}

/-- What has been checked before the output is touched. -/
structure Prepared (x : Crates) (c : ContentCrates) (st : Storage) (env : UnwrapEnv)
    (args : UnwrapCmd) (bundle : DeviceBundle) (m : TrstManifest) (sig : Bytes)
    (signature : String) (ctx : DecryptContext) : Prop where
  loaded : env.bundle = .ok bundle
  read : readManifest st args.archive = .ok (m, sig)
  version : m.trstVersion = "0.2.0"
  pinned : checkSigner args.devicePub m = .ok ()
  signed : m.signature = some signature
  verified : verifyManifest x m.device.publicKey (m.toCanonicalBytes x.text) signature = .ok true
  valid : validateArchive x st args.archive = .ok ()
  opened : openContentKey x c bundle m = .ok ctx

theorem checkOwnSignature_eq_ok {m : TrstManifest} :
    checkOwnSignature x m = .ok () ↔ ∃ signature, m.signature = some signature ∧
      verifyManifest x m.device.publicKey (m.toCanonicalBytes x.text) signature = .ok true := by
  unfold checkOwnSignature
  constructor
  · intro h
    obtain ⟨signature, hsome, h⟩ := bind_eq_ok.mp h
    obtain ⟨valid, hverify, h⟩ := bind_eq_ok.mp h
    have hvalid : valid = true := by simpa using failWhen_eq_ok.mp h
    subst hvalid
    exact ⟨signature, orFail_eq_ok.mp hsome, mapError_eq_ok.mp (mapError_eq_ok.mp hverify)⟩
  · rintro ⟨signature, hsome, hverify⟩
    refine bind_eq_ok.mpr ⟨signature, orFail_eq_ok.mpr hsome, bind_eq_ok.mpr ⟨true, ?_, rfl⟩⟩
    exact mapError_eq_ok.mpr (mapError_eq_ok.mpr hverify)

theorem prepareUnwrap_eq_ok {env : UnwrapEnv} {args : UnwrapCmd} {m : TrstManifest}
    {ctx : DecryptContext} :
    prepareUnwrap x c st env args = .ok (m, ctx) ↔
      ∃ bundle sig signature, Prepared x c st env args bundle m sig signature ctx := by
  unfold prepareUnwrap
  constructor
  · intro h
    obtain ⟨bundle, hbundle, h⟩ := bind_eq_ok.mp h
    obtain ⟨⟨m', sig⟩, hread, h⟩ := bind_eq_ok.mp h
    obtain ⟨_, hversion, h⟩ := bind_eq_ok.mp h
    obtain ⟨_, hpin, h⟩ := bind_eq_ok.mp h
    obtain ⟨_, hsigned, h⟩ := bind_eq_ok.mp h
    obtain ⟨_, hvalid, h⟩ := bind_eq_ok.mp h
    obtain ⟨ctx', hopen, h⟩ := bind_eq_ok.mp h
    cases h
    obtain ⟨signature, hsome, hverify⟩ := checkOwnSignature_eq_ok.mp hsigned
    exact ⟨bundle, sig, signature, hbundle, mapError_eq_ok.mp hread,
      requireSupportedVersion_eq_ok.mp (mapError_eq_ok.mp hversion), hpin, hsome, hverify,
      mapError_eq_ok.mp hvalid, hopen⟩
  · rintro ⟨bundle, sig, signature, h⟩
    have hversion := requireSupportedVersion_eq_ok.mpr h.version
    refine bind_eq_ok.mpr ⟨bundle, h.loaded, bind_eq_ok.mpr ⟨(m, sig), mapError_eq_ok.mpr h.read, ?_⟩⟩
    refine bind_eq_ok.mpr ⟨(), mapError_eq_ok.mpr hversion, bind_eq_ok.mpr ⟨(), h.pinned, ?_⟩⟩
    refine bind_eq_ok.mpr ⟨(), checkOwnSignature_eq_ok.mpr ⟨signature, h.signed, h.verified⟩, ?_⟩
    exact bind_eq_ok.mpr ⟨(), mapError_eq_ok.mpr h.valid, bind_eq_ok.mpr ⟨ctx, h.opened, rfl⟩⟩

theorem boundedRead_eq_ok {content : Except IoError Bytes} {context : String} {tooLarge : CliError}
    {bytes : Bytes} :
    (do
      let content ← withContext content context
      let buf := content.take (maxStoredChunkBytes + 1)
      failWhen (decide (maxStoredChunkBytes < buf.length)) tooLarge
      pure buf) = .ok bytes ↔ content = .ok bytes ∧ bytes.length ≤ maxStoredChunkBytes := by
  constructor
  · intro h
    obtain ⟨content, hread, h⟩ := bind_eq_ok.mp h
    obtain ⟨_, hcap, h⟩ := bind_eq_ok.mp h
    have hcap := failWhen_eq_ok.mp hcap
    have hlen : content.length ≤ maxStoredChunkBytes := by simpa using hcap
    have hsame := Except.ok.inj h
    rw [List.take_of_length_le (by omega)] at hsame
    subst hsame
    exact ⟨mapError_eq_ok.mp hread, hlen⟩
  · rintro ⟨hread, hlen⟩
    have htake : bytes.take (maxStoredChunkBytes + 1) = bytes :=
      List.take_of_length_le (by omega)
    refine bind_eq_ok.mpr ⟨bytes, mapError_eq_ok.mpr hread, ?_⟩
    rw [htake]
    exact bind_eq_ok.mpr ⟨(), failWhen_eq_ok.mpr (by simpa using hlen), rfl⟩

theorem readStored_eq_ok {dir : SealDir} {index : Nat} {bytes : Bytes} :
    readStored dir index = .ok bytes ↔
      dir.chunks.node (chunkFileName index) = .file bytes ∧ bytes.length ≤ maxStoredChunkBytes := by
  unfold readStored
  rw [boundedRead_eq_ok, Node.read_eq_ok]

/-- Stored chunks from a position on and the plaintexts they are recovered to. -/
inductive RecoveredFrom (c : ContentCrates) (ctx : DecryptContext) : Nat → List Bytes → List Bytes → Prop
  | nil {index : Nat} : RecoveredFrom c ctx index [] []
  | cons {index : Nat} {stored plaintext : Bytes} {rest plain : List Bytes}
      (head : recoverChunk c ctx index stored = .ok plaintext)
      (tail : RecoveredFrom c ctx (index + 1) rest plain) :
      RecoveredFrom c ctx index (stored :: rest) (plaintext :: plain)

theorem recoverChunks_eq_ok {faults : OutputFaults} {dir : SealDir} {ctx : DecryptContext}
    {index n : Nat} {bytes : Bytes} (h : recoverChunks c faults dir ctx index n = .ok bytes) :
    ∃ stored plain, stored.length = n ∧ RecoveredFrom c ctx index stored plain ∧
      plain.flatten = bytes ∧
      ∀ i, ∀ b, stored[i]? = some b → dir.chunks.node (chunkFileName (index + i)) = .file b := by
  induction n generalizing index bytes with
  | zero =>
    cases h
    exact ⟨[], [], rfl, .nil, rfl, by simp⟩
  | succ n ih =>
    obtain ⟨chunk, hread, h⟩ := bind_eq_ok.mp h
    obtain ⟨plaintext, hplain, h⟩ := bind_eq_ok.mp h
    obtain ⟨_, -, h⟩ := bind_eq_ok.mp h
    obtain ⟨rest, hrest, h⟩ := bind_eq_ok.mp h
    obtain ⟨stored, plain, hlen, hrecovered, hflat, hnodes⟩ := ih hrest
    refine ⟨chunk :: stored, plaintext :: plain, by simp [hlen], .cons hplain hrecovered, ?_, ?_⟩
    · rw [List.flatten_cons, hflat]
      exact Except.ok.inj h
    · exact Slices.forall_place_cons
        (P := fun place b => dir.chunks.node (chunkFileName place) = .file b)
        (readStored_eq_ok.mp hread).1 hnodes

/-- A run that succeeds has passed every check and leaves the recovered bytes as its output. -/
theorem handleUnwrap_eq_ok {env : UnwrapEnv} {args : UnwrapCmd} {files files' : OutputFiles}
    (h : handleUnwrap x c st env args files = (.ok (), files')) :
    ∃ bundle m sig signature ctx bytes, Prepared x c st env args bundle m sig signature ctx ∧
      recoverChunks c env.faults args.archive ctx 0 m.segments.length = .ok bytes ∧
      files' = ⟨.file bytes, .absent⟩ := by
  unfold handleUnwrap at h
  split at h
  next => cases h
  next m ctx hprepared =>
    split at h
    next => cases h
    next bytes hrecovered =>
      obtain ⟨bundle, sig, signature, hchecked⟩ := prepareUnwrap_eq_ok.mp hprepared
      obtain ⟨_, -, hrecovered⟩ := bind_eq_ok.mp hrecovered
      obtain ⟨out, hchunks, hrecovered⟩ := bind_eq_ok.mp hrecovered
      obtain ⟨_, -, hrecovered⟩ := bind_eq_ok.mp hrecovered
      obtain ⟨_, -, hrecovered⟩ := bind_eq_ok.mp hrecovered
      cases hrecovered
      cases h
      exact ⟨bundle, m, sig, signature, ctx, bytes, hchecked, hchunks, rfl⟩

end Spec

end Sealedge
