import Sealedge.JwksRuns
import Sealedge.KeyLoading

namespace Sealedge

open Fallible UnixPath

section Files

variable {x : Crates} {c : ContentCrates} {sc : SecretCrates} {js : JsonCrate}

/-- The bytes of a new key file hold its bundle, under the flag and the passphrase of their
making. -/
theorem KeySession.bundleFile_keyFile (hx : x.SignsLawfully) (hsc : sc.Opens) (hjs : js.Lossless)
    {s : KeySession} {unencrypted : Bool} {bytes : Bytes}
    (h : s.keyFile x sc js unencrypted = .ok bytes) :
    BundleFile x sc js bytes unencrypted s.passphrase s.bundle := by
  cases unencrypted with
  | true =>
    cases Except.ok.inj h
    exact .plaintext (plaintext_not_bundleV2 x js _) (utf8Decode_intoBytes _)
      (fromPlaintext_trimmed hx hjs _)
  | false =>
    obtain ⟨passphrase, htyped, h⟩ := bind_eq_ok.mp h
    obtain ⟨confirm, -, h⟩ := bind_eq_ok.mp h
    obtain ⟨_, -, h⟩ := bind_eq_ok.mp h
    obtain ⟨hheader, hopens⟩ :=
      DeviceBundle.importEncrypted_exportEncrypted hx hsc hjs (mapError_eq_ok.mp h)
    rw [orFail_eq_ok.mp htyped]
    exact .encrypted hheader hopens

theorem KeySession.keyFile_other_flag (hx : x.SignsLawfully) (hsc : sc.Opens) (hjs : js.Lossless)
    {s : KeySession} {unencrypted : Bool} {bytes : Bytes} {typed : Option String}
    (h : s.keyFile x sc js unencrypted = .ok bytes) :
    (∀ b, ¬ BundleFile x sc js bytes (!unencrypted) typed b) ∧
      ∀ k, ¬ LegacyFile x sc js bytes (!unencrypted) typed k := by
  have hfile := s.bundleFile_keyFile hx hsc hjs h
  cases unencrypted with
  | true =>
    cases Except.ok.inj h
    refine ⟨fun b hb => ?_, fun k hk => ?_⟩
    · cases hb with
      | encrypted hheader => exact plaintext_not_bundleV2 x js _ hheader
    · cases hk with
      | encrypted hheader =>
        rw [plaintext_not_keyV1 x js] at hheader
        cases hheader
  | false =>
    generalize s.passphrase = passphrase at hfile
    cases hfile with
    | encrypted hheader =>
      refine ⟨fun b hb => ?_, fun k hk => ?_⟩
      · cases hb with
        | plaintext hother => exact hother hheader
      · cases hk with
        | plaintext hother => exact hother hheader

/-- A key file opens under the flag it was written with, with what was typed then, and with
nothing under the other flag. -/
structure OpensAs (x : Crates) (sc : SecretCrates) (js : JsonCrate) (path : String)
    (unencrypted : Bool) (passphrase : Option String) (bundle : DeviceBundle) (disk : Disk) :
    Prop where
  whole : loadBundle x sc js path unencrypted passphrase disk = .ok bundle
  signing : loadSigningKeypair x sc js path unencrypted passphrase disk = .ok bundle.signing
  wholeOnly : ∀ typed b, loadBundle x sc js path (!unencrypted) typed disk ≠ .ok b
  signingOnly : ∀ typed k, loadSigningKeypair x sc js path (!unencrypted) typed disk ≠ .ok k

theorem opensAs_of_keyFile (hx : x.SignsLawfully) (hsc : sc.Opens) (hjs : js.Lossless)
    {s : KeySession} {unencrypted : Bool} {bytes : Bytes}
    (h : s.keyFile x sc js unencrypted = .ok bytes) {path : String} {disk : Disk}
    (hfile : disk (Path.ofText path).components = .file bytes) :
    OpensAs x sc js path unencrypted s.passphrase s.bundle disk := by
  have hbundle := s.bundleFile_keyFile hx hsc hjs h
  refine ⟨loadBundle_eq_ok.mpr ⟨bytes, hfile, hbundle⟩,
    loadSigningKeypair_eq_ok.mpr ⟨bytes, hfile, .inl ⟨_, hbundle, rfl⟩⟩, ?_, ?_⟩
  · intro typed b hload
    obtain ⟨bytes', hfile', hb⟩ := loadBundle_eq_ok.mp hload
    cases Node.file.inj (hfile.symm.trans hfile')
    exact (s.keyFile_other_flag hx hsc hjs h).1 b hb
  · intro typed k hload
    obtain ⟨bytes', hfile', hsigning⟩ := loadSigningKeypair_eq_ok.mp hload
    cases Node.file.inj (hfile.symm.trans hfile')
    rcases hsigning with ⟨b, hb, -⟩ | hk
    · exact (s.keyFile_other_flag hx hsc hjs h).1 b hb
    · exact (s.keyFile_other_flag hx hsc hjs h).2 k hk

end Files

section Sample

def calmFile : FileFaults := ⟨none, none⟩

def calmSecure : SecureFaults := ⟨calmFile, none, none⟩

/-- A device whose passphrase is typed twice. -/
def sampleSession (pid : Nat) (b : UInt8) : KeySession where
  pid := pid
  bundle := sampleBundle (sampleKey b)
  salt := sampleHash [b]
  nonce := (Jwks.sampleKeyDraw b "").nonce
  passphrase := some "correct horse"
  confirm := some "correct horse"
  keyFaults := calmSecure
  pubFaults := calmFile

def sampleKeygen : KeygenCmd := ⟨"cam.key", "cam.pub", false⟩

/-- A second generation for the same file, and a wrap without a key. -/
def laterSteps : List KeyStep :=
  [⟨.keygen ⟨"cam.key", "other.pub", true⟩, sampleSession 8 2⟩, ⟨.wrap false, sampleSession 9 3⟩]

/-- What stands on the disk after the first generation. -/
def keyedDisk : Disk :=
  (handleKeygen sampleCrates sampleContent Jwks.sampleSecrets sampleJson sampleKeygen
    (sampleSession 7 1) (fun _ => .absent)).2

theorem sampleKeygen_ok :
    handleKeygen sampleCrates sampleContent Jwks.sampleSecrets sampleJson sampleKeygen
      (sampleSession 7 1) (fun _ => .absent) = (.ok (), keyedDisk) := by
  refine Prod.ext ?_ rfl
  rfl

end Sample

section Lifecycle

/-- A key pair that was generated on a disk, and whose files nothing has displaced since. -/
structure Kept (x : Crates) (c : ContentCrates) (sc : SecretCrates) (js : JsonCrate)
    (args : KeygenCmd) (s : KeySession) (disk : Disk) : Prop where
  distinct : (Path.ofText args.outKey).components ≠ (Path.ofText args.outPub).components
  since : ∃ first second steps, handleKeygen x c sc js args s first = (.ok (), second) ∧
    (∀ step ∈ steps, (Path.ofText args.outKey).components ∉ step.displaced ∧
      (Path.ofText args.outPub).components ∉ step.displaced) ∧
    disk = runKeySteps x c sc js steps second

variable {x : Crates} {c : ContentCrates} {sc : SecretCrates} {js : JsonCrate}

theorem Kept.files {args : KeygenCmd} {s : KeySession} {disk : Disk}
    (h : Kept x c sc js args s disk) :
    ∃ bytes, s.keyFile x sc js args.unencrypted = .ok bytes ∧
      disk (Path.ofText args.outKey).components = .file bytes ∧
      disk (Path.ofText args.outPub).components = .file (intoBytes (s.bundle.publicLines x c)) := by
  obtain ⟨first, second, steps, hkeygen, hfree, rfl⟩ := h.since
  obtain ⟨bytes, hgenerated⟩ := handleKeygen_eq_ok hkeygen
  obtain ⟨hkey, hpub⟩ := Disk.writeKeyPair_eq_ok h.distinct hgenerated.written
  refine ⟨bytes, hgenerated.file, ?_, ?_⟩
  · rw [runKeySteps_keeps (by rw [hkey]; exact Node.noConfusion) fun step hstep =>
      (hfree step hstep).1, hkey]
  · rw [runKeySteps_keeps (by rw [hpub]; exact Node.noConfusion) fun step hstep =>
      (hfree step hstep).2, hpub]

theorem Kept.loads (hx : x.SignsLawfully) (hsc : sc.Opens) (hjs : js.Lossless) {args : KeygenCmd}
    {s : KeySession} {disk : Disk} (h : Kept x c sc js args s disk) :
    loadBundle x sc js args.outKey args.unencrypted s.passphrase disk = .ok s.bundle := by
  obtain ⟨bytes, hfile, hkey, -⟩ := h.files
  exact (opensAs_of_keyFile hx hsc hjs hfile hkey).whole

theorem Kept.pubFile {args : KeygenCmd} {s : KeySession} {disk : Disk}
    (h : Kept x c sc js args s disk) :
    disk (Path.ofText args.outPub).components =
      .file (intoBytes (s.bundle.signing.public x ++ "\n" ++
        s.bundle.keyAgreement.publicString x c ++ "\n")) := by
  obtain ⟨bytes, -, -, hpub⟩ := h.files
  exact hpub

/-- The bundle that `seal wrap` works with, on a disk. -/
def wrapBundle (x : Crates) (c : ContentCrates) (sc : SecretCrates) (js : JsonCrate)
    (path : Option String) (unencrypted : Bool) (s : KeySession) (disk : Disk) :
    Except CliError DeviceBundle :=
  (loadOrGenerateBundle x c sc js path unencrypted s disk).1.map LoadedBundle.bundle

theorem wrapBundle_of_kept (hx : x.SignsLawfully) (hsc : sc.Opens) (hjs : js.Lossless)
    {args : KeygenCmd} {s typed : KeySession} {disk : Disk} (h : Kept x c sc js args s disk)
    (htyped : typed.passphrase = s.passphrase) :
    wrapBundle x c sc js (some args.outKey) args.unencrypted typed disk = .ok s.bundle := by
  refine map_eq_ok.mpr ⟨_, bind_eq_ok.mpr ⟨s.bundle, ?_, rfl⟩, rfl⟩
  rw [htyped]
  exact h.loads hx hsc hjs

end Lifecycle

theorem sample_kept (steps : List KeyStep)
    (hfree : ∀ step ∈ steps, (Path.ofText "cam.key").components ∉ step.displaced ∧
      (Path.ofText "cam.pub").components ∉ step.displaced) :
    Kept sampleCrates sampleContent Jwks.sampleSecrets sampleJson sampleKeygen
      (sampleSession 7 1) (runKeySteps sampleCrates sampleContent Jwks.sampleSecrets
        sampleJson steps keyedDisk) :=
  ⟨by decide, _, _, steps, sampleKeygen_ok, hfree, rfl⟩

/-- Both loaders open the encrypted key file, which is sealed as it should be. -/
theorem loaders_agree_sample :
    loadBundle sampleCrates Jwks.sampleSecrets sampleJson "cam.key" false (some "correct horse")
      keyedDisk = .ok (sampleBundle (sampleKey 1)) ∧
    loadSigningKeypair sampleCrates Jwks.sampleSecrets sampleJson "cam.key" false
      (some "correct horse") keyedDisk = .ok (sampleKey 1) ∧
    ∃ bytes l plaintext p, keyedDisk (Path.ofText "cam.key").components = .file bytes ∧
      (l = keyLayoutV1 ∨ l = keyLayoutV2) ∧
      l.Opened sampleCrates Jwks.sampleSecrets sampleJson bytes "correct horse" plaintext p := by
  have hbundle := (sample_kept [] (by decide)).loads sampleCrates_signsLawfully
    Jwks.sampleSecrets_opens sampleJson_lossless
  obtain ⟨hsame, -, hsealed⟩ := loaders_agree sampleCrates Jwks.sampleSecrets sampleJson "cam.key"
    false (some "correct horse") keyedDisk
  have hsigning := hsame _ hbundle
  obtain ⟨bytes, passphrase, l, plaintext, p, hfile, htyped, hl, hopened⟩ := hsealed _ rfl hsigning
  obtain rfl := Option.some.inj htyped
  exact ⟨hbundle, hsigning, bytes, l, plaintext, p, hfile, hl, hopened⟩

end Sealedge
