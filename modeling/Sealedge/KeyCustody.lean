import Sealedge.KeyFiles
import Sealedge.UnwrapFiles
import Sealedge.WrapReadable

namespace Sealedge

open Fallible UnixPath

/-- The steps of writing a file that fail: it cannot be created, or the write breaks off. -/
structure FileFaults where
  create : Option IoError
  write : Option (Nat × IoError)

/-- The same for a file that is replaced as a whole. -/
structure SecureFaults extends FileFaults where
  parent : Option IoError
  rename : Option IoError

/-- The temporary sibling of a secret file. -/
def secureTmpPath (pid seq : Nat) (path : Path) : Path :=
  path.appendText (".tmp." ++ pid.repr ++ "." ++ seq.repr)

namespace Disk

/-- `fs::write`. -/
def putFile (disk : Disk) (faults : FileFaults) (path : List Component) (bytes : Bytes) :
    Except IoError Unit × Disk :=
  match disk.createFile faults.create path with
  | .error e => (.error e, disk)
  | .ok disk =>
    match faults.write with
    | some (written, e) => (.error e, Function.update disk path (.file (bytes.take written)))
    | none => (.ok (), Function.update disk path (.file bytes))

/-- `write_secure`: the temporary file stays behind when a later step fails. -/
def writeSecure (disk : Disk) (pid seq : Nat) (faults : SecureFaults) (path : Path)
    (bytes : Bytes) : Except IoError Unit × Disk :=
  match faults.parent with
  | some e => (.error e, disk)
  | none =>
    let tmp := (secureTmpPath pid seq path).components
    match disk.putFile faults.toFileFaults tmp bytes with
    | (.error e, disk) => (.error e, disk)
    | (.ok (), disk) =>
      match disk.rename faults.rename tmp path.components with
      | .error e => (.error e, disk)
      | .ok disk => (.ok (), disk)

/-- The file of a new key pair that could not be written. -/
inductive KeyPairFault
  | secret (e : IoError)
  | pub (e : IoError)

/-- The two writes of a new key pair. -/
def writeKeyPair (disk : Disk) (pid : Nat) (keyFaults : SecureFaults) (pubFaults : FileFaults)
    (outKey outPub : Path) (secret lines : Bytes) : Except KeyPairFault Unit × Disk :=
  match disk.writeSecure pid 0 keyFaults outKey secret with
  | (.error e, disk) => (.error (.secret e), disk)
  | (.ok (), disk) =>
    match disk.putFile pubFaults outPub.components lines with
    | (.error e, disk) => (.error (.pub e), disk)
    | (.ok (), disk) => (.ok (), disk)

end Disk

structure KeygenCmd where
  outKey : String
  outPub : String
  unencrypted : Bool

/-- What a call of the tool draws, what is typed at its prompts, and what fails. -/
structure KeySession where
  pid : Nat
  bundle : DeviceBundle
  salt : Fixed 32
  nonce : Fixed 12
  passphrase : Option String
  confirm : Option String
  keyFaults : SecureFaults
  pubFaults : FileFaults

structure LoadedBundle where
  bundle : DeviceBundle
  secretPath : Path
  publicPath : Path
  generated : Bool

section Commands

variable (x : Crates) (c : ContentCrates) (sc : SecretCrates) (js : JsonCrate)

/-- The bytes of a new key file. -/
def KeySession.keyFile (s : KeySession) (unencrypted : Bool) : Except CliError Bytes :=
  if unencrypted then .ok (intoBytes (s.bundle.toPlaintext x js ++ "\n"))
  else do
    let passphrase ← orFail s.passphrase "Failed to read passphrase"
    let confirm ← orFail s.confirm "Failed to read passphrase confirmation"
    failWhen (passphrase != confirm) (.other "Passphrases do not match")
    withContext (s.bundle.exportEncrypted x sc js s.salt s.nonce passphrase)
      "Failed to encrypt key bundle"

/-- `handle_keygen`. -/
def handleKeygen (args : KeygenCmd) (s : KeySession) (disk : Disk) :
    Except CliError Unit × Disk :=
  let outKey := Path.ofText args.outKey
  let outPub := Path.ofText args.outPub
  if disk outKey.components ≠ .absent then
    (.error (.other ("Refusing to overwrite existing file: " ++ args.outKey)), disk)
  else if disk outPub.components ≠ .absent then
    (.error (.other ("Refusing to overwrite existing file: " ++ args.outPub)), disk)
  else
    match s.keyFile x sc js args.unencrypted with
    | .error e => (.error e, disk)
    | .ok bytes =>
      match disk.writeKeyPair s.pid s.keyFaults s.pubFaults outKey outPub bytes
          (intoBytes (s.bundle.publicLines x c)) with
      | (.error (.secret _), disk) =>
        (.error (.other ("Failed to write secret key: " ++ args.outKey)), disk)
      | (.error (.pub _), disk) =>
        (.error (.other ("Failed to write public key: " ++ args.outPub)), disk)
      | (.ok (), disk) => (.ok (), disk)

/-- A plaintext bundle with blanks around it. -/
def plaintextBundle (bytes : Bytes) : Option DeviceBundle := do
  let text ← utf8Decode bytes
  (DeviceBundle.fromPlaintext x js (String.ofList (trimChars text.toList))).toOption

def readKeyFile (disk : Disk) (path : String) : Except CliError Bytes :=
  withContext (disk (Path.ofText path).components).read
    ("failed to read device key '" ++ path ++ "'")

/-- The branch of both loaders for an encrypted bundle. -/
def decryptBundle (bytes : Bytes) (unencrypted : Bool) (typed : Option String) :
    Except CliError DeviceBundle := do
  failWhen unencrypted (.other "Cannot use --unencrypted with an encrypted key bundle")
  let passphrase ← orFail typed "Failed to read passphrase"
  (DeviceBundle.importEncrypted x sc js bytes passphrase).mapError
    fun e => .other ("Failed to decrypt key bundle: " ++ e.display)

/-- What `load_bundle` says of a file that holds no bundle. -/
def notBundle (bytes : Bytes) : CliError :=
  if isEncryptedKeyFile bytes || decide (intoBytes "ed25519:" <+: bytes) then
    .other ("Legacy V1 key file detected. C4 archives need a V2 key bundle (Ed25519 + X25519). " ++
      "Run `seal keygen` to generate a new SEALEDGE-KEY-V2 bundle.")
  else .other "Unrecognized key file format (expected SEALEDGE-KEY-V2)"

/-- `load_bundle` behind the read. -/
def bundleFromBytes (bytes : Bytes) (unencrypted : Bool) (typed : Option String) :
    Except CliError DeviceBundle :=
  if intoBytes "SEALEDGE-KEY-V2\n" <+: bytes then decryptBundle x sc js bytes unencrypted typed
  else
    match if unencrypted then plaintextBundle x js bytes else none with
    | some bundle => .ok bundle
    | none => .error (notBundle bytes)

/-- `load_bundle`, with what is typed at its prompt. -/
def loadBundle (path : String) (unencrypted : Bool) (typed : Option String) (disk : Disk) :
    Except CliError DeviceBundle := do
  let bytes ← readKeyFile disk path
  bundleFromBytes x sc js bytes unencrypted typed

/-- `load_signing_keypair` behind the read: it also takes the keys from before the bundles. -/
def signingFromBytes (bytes : Bytes) (unencrypted : Bool) (typed : Option String) :
    Except CliError DeviceKeypair :=
  if intoBytes "SEALEDGE-KEY-V2\n" <+: bytes then
    (decryptBundle x sc js bytes unencrypted typed).map DeviceBundle.signing
  else if unencrypted then do
    let contents ← orFail (utf8Decode bytes) "unencrypted key file is not valid UTF-8"
    let trimmed := String.ofList (trimChars contents.toList)
    match DeviceBundle.fromPlaintext x js trimmed with
    | .ok bundle => .ok bundle.signing
    | .error _ =>
      (DeviceKeypair.importSecret x trimmed).mapError
        fun e => .other ("Failed to import key: " ++ e.display)
  else if isEncryptedKeyFile bytes then do
    let passphrase ← orFail typed "Failed to read passphrase"
    (DeviceKeypair.importSecretEncrypted x sc js bytes passphrase).mapError
      fun e => .other ("Failed to decrypt key: " ++ e.display)
  else .error (.other "Key file is not encrypted. Use --unencrypted to bypass.")

def loadSigningKeypair (path : String) (unencrypted : Bool) (typed : Option String)
    (disk : Disk) : Except CliError DeviceKeypair := do
  let bytes ← readKeyFile disk path
  signingFromBytes x sc js bytes unencrypted typed

/-- `load_or_generate_bundle`: a new bundle replaces what stands at `device.key`. -/
def loadOrGenerateBundle (path : Option String) (unencrypted : Bool) (s : KeySession)
    (disk : Disk) : Except CliError LoadedBundle × Disk :=
  match path with
  | some existing =>
    let loaded := do
      let bundle ← loadBundle x sc js existing unencrypted s.passphrase disk
      pure ⟨bundle, .ofText existing, (Path.ofText existing).withExtension "pub", false⟩
    (loaded, disk)
  | none =>
    let secretPath := Path.ofText "device.key"
    let publicPath := Path.ofText "device.pub"
    match s.keyFile x sc js unencrypted with
    | .error e => (.error e, disk)
    | .ok bytes =>
      match disk.writeKeyPair s.pid s.keyFaults s.pubFaults secretPath publicPath bytes
          (intoBytes (s.bundle.publicLines x c)) with
      | (.error (.secret e), disk) => (.error (.other e.display), disk)
      | (.error (.pub e), disk) => (.error (.other e.display), disk)
      | (.ok (), disk) => (.ok ⟨s.bundle, secretPath, publicPath, true⟩, disk)

end Commands

/-- The calls that write key files: `seal keygen`, and `seal wrap` without a key. -/
inductive KeyCommand
  | keygen (args : KeygenCmd)
  | wrap (unencrypted : Bool)

structure KeyStep where
  command : KeyCommand
  session : KeySession

/-- The paths whose files a call may replace: its temporary one, and those of a wrap. -/
def KeyStep.displaced (step : KeyStep) : List (List Component) :=
  match step.command with
  | .keygen args => [(secureTmpPath step.session.pid 0 (.ofText args.outKey)).components]
  | .wrap _ =>
    [(secureTmpPath step.session.pid 0 (.ofText "device.key")).components,
      (Path.ofText "device.key").components, (Path.ofText "device.pub").components]

section Running

variable (x : Crates) (c : ContentCrates) (sc : SecretCrates) (js : JsonCrate)

def KeyStep.perform (step : KeyStep) (disk : Disk) : Disk :=
  match step.command with
  | .keygen args => (handleKeygen x c sc js args step.session disk).2
  | .wrap unencrypted => (loadOrGenerateBundle x c sc js none unencrypted step.session disk).2

def runKeySteps (steps : List KeyStep) (disk : Disk) : Disk :=
  steps.foldl (fun disk step => step.perform x c sc js disk) disk

end Running

section Writing

variable {disk : Disk} {faults : FileFaults} {path : List Component} {bytes : Bytes}

theorem Disk.createFile_ne {fault : Option IoError} {disk' : Disk} {other : List Component}
    (h : disk.createFile fault path = .ok disk') (hne : other ≠ path) :
    disk' other = disk other := by
  unfold Disk.createFile at h
  split at h
  · cases h
  · cases h
  · cases Except.ok.inj h
    exact Function.update_of_ne hne _ _

theorem Disk.putFile_ne {other : List Component} (hne : other ≠ path) {result : Except IoError Unit}
    {disk' : Disk} (h : disk.putFile faults path bytes = (result, disk')) :
    disk' other = disk other := by
  unfold Disk.putFile at h
  split at h
  next =>
    cases h
    rfl
  next created hcreated =>
    have hsame := Disk.createFile_ne hcreated hne
    split at h
    next =>
      cases h
      rw [Function.update_of_ne hne, hsame]
    next =>
      cases h
      rw [Function.update_of_ne hne, hsame]

theorem Disk.putFile_eq_ok {disk' : Disk} (h : disk.putFile faults path bytes = (.ok (), disk')) :
    disk' path = .file bytes := by
  unfold Disk.putFile at h
  split at h
  next => cases h
  next =>
    split at h
    next => cases h
    next =>
      cases h
      exact Function.update_self _ _ _

theorem Disk.putFile_calm {disk : Disk} {path : List Component}
    (h : ∀ reason, disk path ≠ .unreadable false reason) (bytes : Bytes) :
    ∃ disk', disk.putFile ⟨none, none⟩ path bytes = (.ok (), disk') := by
  have hcreate : disk.createFile none path = .ok (Function.update disk path (.file [])) := by
    unfold Disk.createFile
    split
    next => contradiction
    next hnode => exact absurd hnode (h _)
    next => rfl
  unfold Disk.putFile
  rw [hcreate]
  exact ⟨_, rfl⟩

theorem secureTmpPath_ne (pid seq : Nat) (p : Path) :
    (secureTmpPath pid seq p).components ≠ p.components := by
  refine Path.components_appendText_ne ?_ p
  have hstart : ".tmp.".length = 5 := rfl
  simp only [String.length_append, hstart]
  omega

variable {pid seq : Nat} {keyFaults : SecureFaults} {p outPub : Path}

theorem Disk.writeSecure_ne {other : List Component}
    (htmp : other ≠ (secureTmpPath pid seq p).components) (hpath : other ≠ p.components)
    {result : Except IoError Unit} {disk' : Disk}
    (h : disk.writeSecure pid seq keyFaults p bytes = (result, disk')) :
    disk' other = disk other := by
  unfold Disk.writeSecure at h
  split at h
  next =>
    cases h
    rfl
  next =>
    simp only at h
    split at h
    next hput =>
      cases h
      exact Disk.putFile_ne htmp hput
    next written hput =>
      have hsame := Disk.putFile_ne htmp hput
      split at h
      next =>
        cases h
        exact hsame
      next renamed hrenamed =>
        cases h
        obtain ⟨-, rfl⟩ := Disk.rename_eq_ok hrenamed
        rw [Function.update_of_ne htmp, Function.update_of_ne hpath, hsame]

theorem Disk.writeSecure_eq_ok {disk' : Disk}
    (h : disk.writeSecure pid seq keyFaults p bytes = (.ok (), disk')) :
    disk' p.components = .file bytes := by
  unfold Disk.writeSecure at h
  split at h
  next => cases h
  next =>
    simp only at h
    split at h
    next => cases h
    next written hwritten =>
      split at h
      next => cases h
      next renamed hrenamed =>
        cases h
        obtain ⟨-, rfl⟩ := Disk.rename_eq_ok hrenamed
        rw [Function.update_of_ne (secureTmpPath_ne pid seq p).symm, Function.update_self]
        exact Disk.putFile_eq_ok hwritten

variable {secret lines : Bytes} {pubFaults : FileFaults}

theorem Disk.writeKeyPair_ne {other : List Component}
    (htmp : other ≠ (secureTmpPath pid 0 p).components) (hkey : other ≠ p.components)
    (hpub : other ≠ outPub.components) {result : Except KeyPairFault Unit} {disk' : Disk}
    (h : disk.writeKeyPair pid keyFaults pubFaults p outPub secret lines = (result, disk')) :
    disk' other = disk other := by
  unfold Disk.writeKeyPair at h
  split at h
  next hwrite =>
    cases h
    exact Disk.writeSecure_ne htmp hkey hwrite
  next middle hwrite =>
    have hsame := Disk.writeSecure_ne htmp hkey hwrite
    split at h
    next hput =>
      cases h
      exact (Disk.putFile_ne hpub hput).trans hsame
    next hput =>
      cases h
      exact (Disk.putFile_ne hpub hput).trans hsame

theorem Disk.writeKeyPair_eq_ok (hne : p.components ≠ outPub.components) {disk' : Disk}
    (h : disk.writeKeyPair pid keyFaults pubFaults p outPub secret lines = (.ok (), disk')) :
    disk' p.components = .file secret ∧ disk' outPub.components = .file lines := by
  unfold Disk.writeKeyPair at h
  split at h
  next => cases h
  next middle hwrite =>
    split at h
    next => cases h
    next hput =>
      cases h
      exact ⟨(Disk.putFile_ne hne hput).trans (Disk.writeSecure_eq_ok hwrite),
        Disk.putFile_eq_ok hput⟩

end Writing

section Frames

variable {x : Crates} {c : ContentCrates} {sc : SecretCrates} {js : JsonCrate}
  {disk : Disk} {path : List Component}

/-- What a key generation has done when it reports success. -/
structure Generated (x : Crates) (c : ContentCrates) (sc : SecretCrates) (js : JsonCrate)
    (args : KeygenCmd) (s : KeySession) (disk disk' : Disk) (bytes : Bytes) : Prop where
  keyAbsent : disk (Path.ofText args.outKey).components = .absent
  pubAbsent : disk (Path.ofText args.outPub).components = .absent
  file : s.keyFile x sc js args.unencrypted = .ok bytes
  written : disk.writeKeyPair s.pid s.keyFaults s.pubFaults (.ofText args.outKey)
    (.ofText args.outPub) bytes (intoBytes (s.bundle.publicLines x c)) = (.ok (), disk')

theorem handleKeygen_eq_ok {args : KeygenCmd} {s : KeySession} {disk' : Disk}
    (h : handleKeygen x c sc js args s disk = (.ok (), disk')) :
    ∃ bytes, Generated x c sc js args s disk disk' bytes := by
  unfold handleKeygen at h
  simp only at h
  split at h
  next => cases h
  next hkey =>
    split at h
    next => cases h
    next hpub =>
      split at h
      next => cases h
      next bytes hfile =>
        split at h
        next => cases h
        next => cases h
        next written hwritten =>
          cases h
          exact ⟨bytes, not_not.mp hkey, not_not.mp hpub, hfile, hwritten⟩

/-- A key generation leaves every file alone that is there, save its temporary one. -/
theorem handleKeygen_keeps {args : KeygenCmd} {s : KeySession} (hthere : disk path ≠ .absent)
    (hfree : path ≠ (secureTmpPath s.pid 0 (.ofText args.outKey)).components) :
    (handleKeygen x c sc js args s disk).2 path = disk path := by
  unfold handleKeygen
  simp only
  split
  next => rfl
  next hkey =>
    split
    next => rfl
    next hpub =>
      have hkey : path ≠ (Path.ofText args.outKey).components :=
        fun heq => hthere (heq ▸ not_not.mp hkey)
      have hpub : path ≠ (Path.ofText args.outPub).components :=
        fun heq => hthere (heq ▸ not_not.mp hpub)
      split
      next => rfl
      next =>
        split
        all_goals
          next hwritten => exact Disk.writeKeyPair_ne hfree hkey hpub hwritten

theorem loadOrGenerateBundle_keeps {unencrypted : Bool} {s : KeySession}
    (hfree : path ≠ (secureTmpPath s.pid 0 (.ofText "device.key")).components)
    (hkey : path ≠ (Path.ofText "device.key").components)
    (hpub : path ≠ (Path.ofText "device.pub").components) :
    (loadOrGenerateBundle x c sc js none unencrypted s disk).2 path = disk path := by
  unfold loadOrGenerateBundle
  simp only
  split
  next => rfl
  next =>
    split
    all_goals
      next hwritten => exact Disk.writeKeyPair_ne hfree hkey hpub hwritten

theorem KeyStep.perform_keeps {step : KeyStep} (hthere : disk path ≠ .absent)
    (hfree : path ∉ step.displaced) : step.perform x c sc js disk path = disk path := by
  obtain ⟨command, session⟩ := step
  unfold KeyStep.perform
  cases command with
  | keygen args =>
    exact handleKeygen_keeps hthere (List.ne_of_not_mem_cons hfree)
  | wrap unencrypted =>
    simp only [KeyStep.displaced, List.mem_cons, List.not_mem_nil, or_false, not_or] at hfree
    exact loadOrGenerateBundle_keeps hfree.1 hfree.2.1 hfree.2.2

theorem runKeySteps_keeps {steps : List KeyStep} (hthere : disk path ≠ .absent)
    (hfree : ∀ step ∈ steps, path ∉ step.displaced) :
    runKeySteps x c sc js steps disk path = disk path := by
  induction steps generalizing disk with
  | nil => rfl
  | cons step steps ih =>
    have hstep : step.perform x c sc js disk path = disk path :=
      KeyStep.perform_keeps hthere (hfree step List.mem_cons_self)
    have hstill : step.perform x c sc js disk path ≠ .absent := by
      rw [hstep]
      exact hthere
    exact (ih hstill fun later hlater => hfree later (List.mem_cons_of_mem _ hlater)).trans hstep

end Frames

end Sealedge
