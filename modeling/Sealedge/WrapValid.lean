import Sealedge.ChronicleSound
import Sealedge.ChunkFiles
import Sealedge.RotationReads
import Sealedge.Slices

namespace Sealedge

open Fallible PieceReader Delimited

section Agreement

variable {x : Crates} {c : ContentCrates} {fig : Figures} {st : Storage}

theorem segmentsFrom_length (job : ChunkJob) (i : Nat) (w : ArchiveWriter) (stored : List Bytes) :
    (segmentsFrom x fig job i w stored).length = stored.length := by
  induction stored generalizing i w with
  | nil => rfl
  | cons bytes rest ih => simp [segmentsFrom, ih]

theorem storedFrom_length {job : ChunkJob} {i : Nat} {chunks stored : List Bytes}
    (h : StoredFrom c job i chunks stored) : stored.length = chunks.length := by
  induction h with
  | nil => rfl
  | cons _ _ ih => simp [ih]

theorem storeChunk_length (hform : c.WellFormed) {job : ChunkJob} {i : Nat} {chunk bytes : Bytes}
    (h : storeChunk c job i chunk = .ok bytes) : bytes.length ≤ chunk.length + 40 := by
  unfold storeChunk at h
  cases hcek : job.cek with
  | none =>
    rw [hcek] at h
    rw [← Except.ok.inj h]
    omega
  | some key =>
    rw [hcek] at h
    obtain ⟨ct, hct, h⟩ := bind_eq_ok.mp h
    have hlen := hform.tagged (mapError_eq_ok.mp (mapError_eq_ok.mp (mapError_eq_ok.mp hct)))
    rw [← Except.ok.inj h, List.length_append, (job.nonce i).property]
    omega

theorem storedFrom_capped (hform : c.WellFormed) {job : ChunkJob} {i : Nat}
    {chunks stored : List Bytes} (h : StoredFrom c job i chunks stored)
    (hsizes : ∀ chunk ∈ chunks, chunk.length ≤ maxChunkSizeBytes) :
    ∀ bytes ∈ stored, bytes.length ≤ maxStoredChunkBytes := by
  induction h with
  | nil => simp
  | @cons i chunk bytes chunks stored head tail ih =>
    intro other hother
    rcases List.mem_cons.mp hother with rfl | hmem
    · have hlen := storeChunk_length hform head
      have hchunk := hsizes chunk (by simp)
      unfold maxStoredChunkBytes
      omega
    · exact ih (fun chunk hmem => hsizes chunk (List.mem_cons_of_mem _ hmem)) other hmem

theorem chunkFileName_ne_empty (index : Nat) : chunkFileName index ≠ "" := by
  intro h
  have hlist := congrArg String.toList h
  simp [chunkFileName] at hlist

theorem validateSegments_segmentsFrom {job : ChunkJob} {i n : Nat} {w : ArchiveWriter}
    {stored : List Bytes} : validateSegments n (segmentsFrom x fig job i w stored) = .ok () := by
  induction stored generalizing i n w with
  | nil => rfl
  | cons bytes rest ih =>
    refine bind_eq_ok.mpr ⟨(), requireText_eq_ok.mpr (chunkFileName_ne_empty _), ?_⟩
    refine bind_eq_ok.mpr ⟨(), requireText_eq_ok.mpr (hexEncode_digest_ne_empty _), ?_⟩
    exact bind_eq_ok.mpr ⟨(), requireText_eq_ok.mpr (hexEncode_digest_ne_empty _), ih⟩

section Made

variable {env : WrapEnv} {args : WrapCmd} {a : SignedArchive} {reader : Reader UInt8}
  {w : ArchiveWriter} {chunks : List Bytes} {out : ChunksOut} {deviceId : String}
  {data : ProfileMetadata}

theorem SignedArchive.Made.segments
    (h : a.Made x c fig st env args reader w chunks out deviceId data) :
    a.manifest.segments =
      segmentsFrom x fig (chunkJob x env args (a.bundle.signing.public x)) 0 w a.stored := by
  rw [h.stored, ← h.chunks.segments, h.kept.segments]

theorem SignedArchive.Made.encryption_none
    (h : a.Made x c fig st env args reader w chunks out deviceId data)
    (hcek : (chunkJob x env args (a.bundle.signing.public x)).cek = none) :
    a.manifest.encryption = none := by
  have hfinished := h.finished
  rw [hcek] at hfinished
  have hsame := congrArg TrstManifest.encryption (sealManifest_none_eq_ok hfinished)
  refine hsame.trans ?_
  cases a.link <;> rfl

/-- What a wrap does not check itself is enough for the manifest it signs to be valid. -/
theorem SignedArchive.Made.validate
    (h : a.Made x c fig st env args reader w chunks out deviceId data)
    (hprofile : args.profile ∈ knownProfiles) (hdata : data.validate = .ok ())
    (hstored : a.stored ≠ [])
    (hlink : validateChronicle a.manifest.sequence a.manifest.prevArchiveHash = .ok ()) :
    a.manifest.validate = .ok () := by
  have hid : deviceId ≠ "" := by
    obtain ⟨_, -, hdevice⟩ := bind_eq_ok.mp h.device
    obtain ⟨_, -, hdevice⟩ := bind_eq_ok.mp hdevice
    obtain ⟨_, -, hdevice⟩ := bind_eq_ok.mp hdevice
    rw [← Except.ok.inj hdevice]
    intro hempty
    have hlist := congrArg String.toList hempty
    simp at hlist
  have hsegments := h.segments
  have hne : a.manifest.segments ≠ [] := by
    intro hnil
    have hlen := congrArg List.length hsegments
    rw [hnil, segmentsFrom_length] at hlen
    exact hstored (List.length_eq_zero_iff.mp hlen.symm)
  have hchecked : validateSegments 0 a.manifest.segments = .ok () := by
    rw [hsegments]
    exact validateSegments_segmentsFrom
  have hencryption : validateEncryption a.manifest.encryption = .ok () := by
    have hfinished := h.finished
    cases hcek : (chunkJob x env args (a.bundle.signing.public x)).cek with
    | none =>
      rw [h.encryption_none hcek]
      rfl
    | some cek =>
      rw [hcek] at hfinished
      obtain ⟨recipients, hrecipients, hblock⟩ := sealManifest_some_eq_ok hfinished
      have hlen := sealRecipients_length hrecipients
      have hblock : a.manifest.encryption = _ := hblock
      have hsome : recipients ≠ [] := by
        intro hnil
        rw [hnil] at hlen
        exact recipientPubs_ne_nil _ _ (List.length_eq_zero_iff.mp hlen.symm)
      rw [hblock]
      simp [validateEncryption, invalidWhen, failWhen, hsome]
  refine TrstManifest.validate_eq_ok.mpr ⟨?_, ?_, ?_, ?_, ?_, hne, hchecked, hencryption, hlink,
    h.kept.epoch⟩
  · rw [h.kept.version]
    decide
  · rw [h.kept.profile]
    exact hprofile
  · rw [h.kept.id]
    exact hid
  · rw [h.kept.publicKey]
    exact DeviceKeypair.public_ne_empty x a.bundle.signing
  · rw [h.kept.metadata]
    exact hdata

end Made

/-- The archive that a wrap has written to a new directory passes its own validation, when the
manifest comes back from its file as a valid one. -/
theorem validateArchive_finalized {env : WrapEnv} {args : WrapCmd} {a : SignedArchive}
    {reader : Reader UInt8} {w : ArchiveWriter} {chunks : List Bytes} {out : ChunksOut}
    {deviceId : String} {data : ProfileMetadata} {dir : SealDir}
    (hmade : a.Made x c fig st env args reader w chunks out deviceId data)
    (hfinal : ArchiveWriter.Finalized st a.writer a.manifest (intoBytes a.signature) dir)
    (hfresh : env.output = .empty env.output.path)
    (hfits : a.stored.length < 2 ^ 32)
    (hcapped : ∀ bytes ∈ a.stored, bytes.length ≤ maxStoredChunkBytes)
    (hparse : st.parseManifest (intoBytes (st.printManifest a.manifest)) = .ok a.manifest)
    (hlossy : ∀ s, st.utf8Lossy (intoBytes s) = s)
    (hshort : (intoBytes a.signature).length ≤ sigMaxBytes)
    (hvalid : a.manifest.validate = .ok ()) : validateArchive x st dir = .ok () := by
  obtain ⟨created, hcreated, hw⟩ := ArchiveWriter.create_eq_ok hmade.created
  rw [hfresh] at hcreated hw
  have hempty : created = .directory .empty := (Except.ok.inj hcreated).symm
  have hafter : a.writer = w.after x a.stored := by
    rw [hmade.writer, hmade.stored, hmade.chunks.writer]
  have hkept : a.writer.dir = { SealDir.empty env.output.path with chunks := a.writer.dir.chunks } := by
    rw [hafter, ArchiveWriter.after_dir, hw]
  have hchunks : dir.chunks = (w.after x a.stored).dir.chunks := by
    rw [hfinal.written, hafter]
  have hread : readManifest st dir = .ok (a.manifest, intoBytes a.signature) := by
    refine readManifest_eq_ok.mpr ⟨intoBytes (st.printManifest a.manifest), ?_, hfinal.capped, hparse,
      ?_, hshort, ?_⟩
    · rw [hfinal.written, hkept]
      rfl
    · rw [hfinal.written, hkept]
      rfl
    · intro embedded hembedded
      rw [hmade.signed] at hembedded
      rw [hlossy]
      exact (Option.some.inj hembedded).symm
  have hstart : w.nextIndex.toNat = 0 ∧ w.chainState = chainGenesis x := by
    rw [hw]
    exact ⟨rfl, rfl⟩
  have hlisting : dir.chunks = .directory (Listing.empty.putChunks 0 a.stored) := by
    have hdir : w.dir.chunks = .directory .empty := by rw [hw, hempty]
    rw [hchunks, ArchiveWriter.after_chunks hdir (by omega), hstart.1]
  have hdescribes : Describes x w a.manifest.segments a.stored := by
    rw [hmade.segments]
    exact describes_segmentsFrom
  refine validateArchive_eq_ok.mpr ⟨a.manifest, _, a.stored, hdescribes.archiveHolds hstart.1
    hstart.2 hfits hread hvalid ?_ hlisting (Listing.breaksOff_putChunks _ _ _) ?_⟩
  · rw [hlisting]
    exact holdsFrom_putChunks hcapped
  · intro name hname _
    rcases Listing.mem_keys_putChunks.mp hname with ⟨i, hi, hnew⟩ | hold
    · exact ⟨i, hi, by rw [hnew, hlossy, Nat.zero_add]⟩
    · cases hold

end Agreement

/-- A tag over a key and what it binds. -/
def sampleTag (parts : List Bytes) : Bytes :=
  (sampleHash parts.flatten).val.take 16

theorem sampleTag_length (parts : List Bytes) : (sampleTag parts).length = 16 := by
  have hhash := (sampleHash parts.flatten).property
  rw [sampleTag, List.length_take, hhash]
  rfl

def sampleOpen (tag ciphertext : Bytes) : Except String Bytes :=
  if ciphertext.take 16 = tag then .ok (ciphertext.drop 16) else .error "aead::Error"

theorem sampleOpen_append (parts : List Bytes) (plaintext : Bytes) :
    sampleOpen (sampleTag parts) (sampleTag parts ++ plaintext) = .ok plaintext := by
  have hlen := sampleTag_length parts
  have htake : (sampleTag parts ++ plaintext).take 16 = sampleTag parts := List.take_left' hlen
  have hdrop : (sampleTag parts ++ plaintext).drop 16 = plaintext := List.drop_left' hlen
  rw [sampleOpen, if_pos htake, hdrop]

/-- A small instance of the content ciphers: a tag before the plaintext. -/
def sampleContent : ContentCrates where
  x25519Public := fit 32
  hpkePublicKey _ := .ok ()
  hpkePrivateKey _ := .ok ()
  hpkeEncappedKey _ := .ok ()
  hpkeSeal random publicKey info plaintext aad :=
    .ok (fit 32 random, sampleTag [publicKey, fit 32 random, info, aad] ++ plaintext)
  hpkeOpen secret enc info ciphertext aad :=
    sampleOpen (sampleTag [fit 32 secret, enc, info, aad]) ciphertext
  xchachaEncrypt key nonce plaintext aad := .ok (sampleTag [key, nonce, aad] ++ plaintext)
  xchachaDecrypt key nonce ciphertext aad := sampleOpen (sampleTag [key, nonce, aad]) ciphertext

theorem sampleContent_correct : sampleContent.Correct where
  hpke h := by
    obtain ⟨henc, hciphertext⟩ := Prod.mk.inj (Except.ok.inj h)
    rw [← henc, ← hciphertext]
    exact sampleOpen_append _ _
  xchacha h := by
    rw [← Except.ok.inj h]
    exact sampleOpen_append _ _

theorem sampleContent_wellFormed : sampleContent.WellFormed where
  privateKey _ _ := rfl
  encapped _ := rfl
  tagged {key nonce _ aad _} h := by
    have hlen := sampleTag_length [key, nonce, aad]
    rw [← Except.ok.inj h, List.length_append, hlen]
    omega

/-- A cipher that takes whatever it is given. -/
structure ContentCrates.TakesAll (c : ContentCrates) : Prop where
  publicLength : ∀ secret, (c.x25519Public secret).length = 32
  publicKey : ∀ bytes, c.hpkePublicKey bytes = .ok ()
  seals : ∀ random pk info plaintext aad, ∃ enc ciphertext,
    c.hpkeSeal random pk info plaintext aad = .ok (enc, ciphertext)
  encrypts : ∀ key nonce plaintext aad, ∃ ciphertext,
    c.xchachaEncrypt key nonce plaintext aad = .ok ciphertext

theorem sampleContent_takesAll : sampleContent.TakesAll where
  publicLength secret := fit_length 32 secret
  publicKey _ := rfl
  seals _ _ _ _ _ := ⟨_, _, rfl⟩
  encrypts _ _ _ _ := ⟨_, rfl⟩

def sampleFigures : Figures where
  ofU32 n := ⟨n.toUInt64⟩
  toU32 f := f.bits.toUInt32
  times _ f := f
  fixed3 _ := "0.000"
  captureEnd startedAt _ _ := .ok startedAt

section ReadingBack

def stateText (s : ChronicleState) : String :=
  "\x7b\"device_pub\":" ++ JsonString.quote s.devicePub ++
  ",\"sequence\":" ++ JsonString.quote s.sequence.toNat.repr ++
  ",\"tip\":" ++ JsonString.quote s.tip ++
  ",\"key_epoch\":" ++ JsonString.quote s.keyEpoch.toNat.repr ++
  ",\"updated_at\":" ++ JsonString.quote s.updatedAt ++ "\x7d"

theorem stateText_injective : Function.Injective stateText := by
  intro a b h
  unfold stateText at h
  simp only [String.append_assoc] at h
  obtain ⟨hpub, h⟩ := JsonString.quote_append_inj (skip h)
  obtain ⟨hseq, h⟩ := JsonString.quote_append_inj (skip h)
  obtain ⟨htip, h⟩ := JsonString.quote_append_inj (skip h)
  obtain ⟨hepoch, h⟩ := JsonString.quote_append_inj (skip h)
  obtain ⟨hat, -⟩ := JsonString.quote_append_inj (skip h)
  have hseq := UInt64.toNat_inj.mp (Numerals.repr_injective hseq)
  have hepoch := UInt32.toNat_inj.mp (Numerals.repr_injective hepoch)
  cases a
  cases b
  simp_all

def rotationText (r : RotationRecord) : String :=
  "\x7b\"sig_old\":" ++ JsonString.quote r.sigOld ++ ",\"sig_new\":" ++ JsonString.quote r.sigNew ++
  ",\"record\":" ++ r.signingText serdeText ++ "\x7d"

theorem rotationText_injective : Function.Injective (fun r => rotationText r ++ "\n") := by
  intro a b h
  have h : rotationText a = rotationText b := (String.append_left_inj "\n").mp h
  unfold rotationText at h
  have h := (String.append_left_inj "\x7d").mp h
  simp only [String.append_assoc] at h
  obtain ⟨hold, h⟩ := JsonString.quote_append_inj (skip h)
  obtain ⟨hnew, h⟩ := JsonString.quote_append_inj (skip h)
  have hsame := RotationRecord.sameSigned_of_signingBytes_eq serdeText_lawful.escapes
    (congrArg intoBytes (skip h))
  unfold RotationRecord.SameSigned at hsame
  rw [← hold, ← hnew] at hsame
  exact hsame

/-- A name that is no text is read with a replacement character; its ending is kept. -/
def sampleLossy (bytes : Bytes) : String :=
  (utf8Decode bytes).getD (if intoBytes ".bin" <:+ bytes then "�.bin" else "�")

/-- Storage for one manifest, and for every rotation record and every state. -/
noncomputable def runStorage (m : TrstManifest) : Storage where
  parseManifest bytes :=
    if bytes = intoBytes "manifest" then .ok m else .error "expected value at line 1 column 1"
  printManifest m' := if m' = m then "manifest" else "null"
  parseRotation := readBack (fun r => rotationText r ++ "\n")
  printRotation := rotationText
  parseState := readBack stateText
  printState := stateText
  utf8Lossy := sampleLossy

theorem runStorage_lossless (m : TrstManifest) : (runStorage m).Lossless where
  manifest m₁ m₂ h := by
    unfold runStorage at h
    by_cases hm : m₁ = m
    · rw [hm]
      simp only [hm, if_true] at h
      exact (Except.ok.inj h).symm
    · have hne : intoBytes "null" ≠ intoBytes "manifest" := by decide
      simp only [hm, if_false, hne] at h
      cases h
  rotation := readBack_print rotationText_injective
  state := readBack_print stateText_injective

theorem runStorage_parse (m : TrstManifest) :
    (runStorage m).parseManifest (intoBytes ((runStorage m).printManifest m)) = .ok m := by
  simp [runStorage]

theorem sampleLossy_text (s : String) : sampleLossy (intoBytes s) = s := by
  rw [sampleLossy, utf8Decode_intoBytes]
  rfl

theorem runStorage_keepsNames (m : TrstManifest) : (runStorage m).KeepsNames where
  ending name hname := by
    show Texts.endsWith (sampleLossy name) ".bin" = true
    unfold sampleLossy
    cases hs : utf8Decode name with
    | none =>
      rw [Option.getD_none, if_pos hname]
      decide
    | some s =>
      rw [Option.getD_some]
      rw [← intoBytes_of_utf8Decode hs] at hname
      exact decide_eq_true (ascii_suffix (by simp) hname)
  exact name hname := by
    have hname : '\uFFFD' ∉ (sampleLossy name).toList := hname
    show intoBytes (sampleLossy name) = name
    unfold sampleLossy at hname ⊢
    cases hs : utf8Decode name with
    | none =>
      rw [hs, Option.getD_none] at hname
      exfalso
      apply hname
      by_cases hend : intoBytes ".bin" <:+ name
      · rw [if_pos hend]
        decide
      · rw [if_neg hend]
        decide
    | some s =>
      rw [Option.getD_some]
      exact intoBytes_of_utf8Decode hs

end ReadingBack

/-- The arguments of a first wrap into a chronicle. -/
def sampleWrapCmd : WrapCmd where
  profile := "generic"
  chunkSize := 2
  chunkSeconds := none
  fps := none
  deviceKey := some "device.key"
  seed := none
  dataType := none
  source := none
  description := none
  mimeType := none
  sampleRate := none
  unit := none
  sensorModel := none
  latitude := none
  longitude := none
  altitude := none
  bitDepth := none
  channels := none
  codec := none
  application := none
  host := none
  logLevel := none
  logFormat := none
  backend := "software"
  recipients := []
  signOnly := false
  chronicle := some "device.chronicle"
  prevArchive := none
  prevHash := none
  prevSeq := none

/-- The sample arguments with another profile, one without options of its own. -/
def profiledCmd (p : String) : WrapCmd := { sampleWrapCmd with profile := p }

def Plain (p : String) : Prop := p ∉ ["cam.video", "sensor", "audio", "log"]

theorem profileMetadata_plain {p : String} (hp : Plain p) (fig : Figures) (startedAt : String)
    (n : Nat) : profileMetadata fig (profiledCmd p) startedAt n =
      .ok (.generic ⟨startedAt, startedAt, none, none, none, none, .empty⟩) := by
  have hprofile : (profiledCmd p).profile = p := rfl
  simp only [Plain, List.mem_cons, List.not_mem_nil, or_false, not_or] at hp
  unfold profileMetadata
  rw [hprofile, if_neg hp.1, if_neg hp.2.1, if_neg hp.2.2.1, if_neg hp.2.2.2]
  rfl

def sampleDraws : Draws where
  cek := ⟨List.replicate 32 5, rfl⟩
  nonce i := ⟨fit 24 [UInt8.ofNat i], fit_length 24 _⟩
  ephemeral i := [UInt8.ofNat i]

def sampleBundle (k : DeviceKeypair) : DeviceBundle :=
  ⟨k, ⟨List.replicate 32 7, rfl⟩⟩

/-- An input of three bytes, the first of which comes alone, and a new directory. -/
def sampleWrapEnv (k : DeviceKeypair) : WrapEnv where
  bundle := .ok (sampleBundle k)
  input := ⟨"clip.bin", .ok 3, .ok ⟨[1, 2, 3], [1]⟩, none⟩
  output := .empty "day0.seal"
  outputName := some "day0.seal"
  stateFile := .absent
  draws := sampleDraws
  seeded _ := sampleDraws
  startedAt := "2026-01-01T00:00:00Z"
  updatedAt := "2026-01-01T00:00:05Z"
  faults _ := none

section Wrapping

variable {x : Crates} {c : ContentCrates}
  (hbase : ∀ bytes, x.base64Decode (x.base64Encode bytes) = .ok bytes)
  (hlength : ∀ secret, (x.ed25519Public secret).length = 32) (fig : Figures) (st : Storage)
  (k : DeviceKeypair)

include hbase

include hlength in
theorem pubKeyToDeviceId_public : ∃ id, pubKeyToDeviceId x (k.public x) = .ok id := by
  have hlen := hlength k.secret
  simp [pubKeyToDeviceId, DeviceKeypair.public, orFail, withContext, hbase, hlen, failWhen,
    Except.mapError, bind, Except.bind, pure, Except.pure]

theorem parseX25519Bytes_ok (hc : c.TakesAll) (ka : KeyAgreementKeypair) :
    parseX25519Bytes x (ka.publicString x c) = .ok (c.x25519Public ka.secret) := by
  have hlen := hc.publicLength ka.secret
  simp [parseX25519Bytes, KeyAgreementKeypair.publicString, hbase, hlen, failWhen,
    Except.mapError, bind, Except.bind, pure, Except.pure]

theorem hpkeSealCek_ok (hc : c.TakesAll) (ka : KeyAgreementKeypair) (random info aad : Bytes)
    (cek : ContentKey) :
    ∃ enc wrapped, hpkeSealCek x c random (ka.publicString x c) info aad cek =
      .ok (enc, wrapped) := by
  obtain ⟨enc, ciphertext, hseal⟩ := hc.seals random (c.x25519Public ka.secret) info cek.val aad
  exact ⟨_, _, bind_eq_ok.mpr ⟨_, parseX25519Bytes_ok hbase hc ka, bind_eq_ok.mpr ⟨(),
    mapError_eq_ok.mpr (hc.publicKey _), bind_eq_ok.mpr ⟨_, mapError_eq_ok.mpr hseal, rfl⟩⟩⟩⟩

theorem sealRecipients_ok (hc : c.TakesAll) (ka : KeyAgreementKeypair) (ephemeral : Nat → Bytes)
    (info aad : Bytes) (cek : ContentKey) :
    ∃ entries, sealRecipients x c ephemeral info aad cek 0 [ka.publicString x c] =
      .ok entries := by
  obtain ⟨enc, wrapped, hseal⟩ := hpkeSealCek_ok hbase hc ka (ephemeral 0) info aad cek
  exact ⟨_, bind_eq_ok.mpr ⟨_, hseal, bind_eq_ok.mpr ⟨_, bind_eq_ok.mpr
    ⟨_, parseX25519Bytes_ok hbase hc ka, rfl⟩, bind_eq_ok.mpr ⟨[], rfl, rfl⟩⟩⟩⟩

omit hbase in
theorem storeChunk_ok (hc : c.TakesAll) {job : ChunkJob} (i : Nat) (chunk : Bytes) :
    ∃ s, storeChunk c job i chunk = .ok s := by
  unfold storeChunk
  cases job.cek with
  | none => exact ⟨chunk, rfl⟩
  | some cek =>
    obtain ⟨ct, hct⟩ := hc.encrypts cek.val (job.nonce i).val chunk job.aad.val
    exact ⟨_, bind_eq_ok.mpr ⟨ct, mapError_eq_ok.mpr (mapError_eq_ok.mpr
      (mapError_eq_ok.mpr hct)), rfl⟩⟩

include hlength in
theorem sample_signArchive (hc : c.TakesAll) {p : String} (hp : Plain p) :
    ∃ a, signArchive x c fig st (sampleWrapEnv k) (profiledCmd p) = .ok a := by
  have hargs : checkWrapArgs (profiledCmd p) = .ok () := by
    simp [checkWrapArgs, profiledCmd, sampleWrapCmd, failWhen, maxChunkSizeBytes, bind, Except.bind]
  have hkey : signingPublicKey x (profiledCmd p) (sampleBundle k) = .ok (k.public x) := rfl
  obtain ⟨id, hid⟩ := pubKeyToDeviceId_public hbase hlength k
  have hname : checkOutputName (some "day0.seal") = .ok () := by decide
  obtain ⟨out, hout⟩ : ∃ out, wrapChunks x c fig (sampleWrapEnv k).faults
      (chunkJob x (sampleWrapEnv k) (profiledCmd p) (k.public x)) ⟨[1, 2, 3], [1]⟩ 0
      ⟨{ SealDir.empty "day0.seal" with chunks := .directory .empty }, 0, chainGenesis x⟩ = .ok out :=
    wrapChunks_ok (fun _ => rfl) rfl (storeChunk_ok hc)
  have hmetadata := profileMetadata_plain hp fig "2026-01-01T00:00:00Z" out.segments.length
  obtain ⟨entries, hentries⟩ := sealRecipients_ok hbase hc (sampleBundle k).keyAgreement
    sampleDraws.ephemeral (cekWrapInfo (k.public x) "0.2.0") (segmentHash x
      (((unsignedManifest (profiledCmd p) id (k.public x)
        ((sampleBundle k).keyAgreement.publicString x c) (.generic
          ⟨"2026-01-01T00:00:00Z", "2026-01-01T00:00:00Z", none, none, none, none, .empty⟩)
        out.segments).stamp (some ⟨0, none, 0, some "device.chronicle"⟩)).toCanonicalBytes x.text)).val
    sampleDraws.cek
  refine ⟨_, bind_eq_ok.mpr ⟨(), hargs, bind_eq_ok.mpr ⟨sampleBundle k, rfl, bind_eq_ok.mpr
    ⟨k.public x, hkey, bind_eq_ok.mpr ⟨id, hid, bind_eq_ok.mpr ⟨⟨[1, 2, 3], [1]⟩, rfl,
    bind_eq_ok.mpr ⟨(), hname, bind_eq_ok.mpr ⟨_, rfl, bind_eq_ok.mpr ⟨out, hout, bind_eq_ok.mpr
    ⟨_, hmetadata, bind_eq_ok.mpr ⟨_, rfl, bind_eq_ok.mpr ⟨_, bind_eq_ok.mpr ⟨entries, ?_, rfl⟩,
    rfl⟩⟩⟩⟩⟩⟩⟩⟩⟩⟩⟩⟩
  exact mapError_eq_ok.mpr (mapError_eq_ok.mpr hentries)

omit hbase in
theorem signArchive_storage (x : Crates) (c : ContentCrates) (st st' : Storage) {env : WrapEnv}
    {args : WrapCmd} (harchive : args.prevArchive = none) (habsent : env.stateFile = .absent) :
    signArchive x c fig st env args = signArchive x c fig st' env args := by
  have hresolve : resolveChronicle x st env.stateFile args =
      resolveChronicle x st' env.stateFile args := by
    funext publicKey
    simp [resolveChronicle, harchive, habsent]
  unfold signArchive
  rw [hresolve]

omit hbase in
/-- What the sample wrap signs: three bytes in few chunks, at the start of a chronicle. -/
theorem sample_made (hform : c.WellFormed) {p : String} {a : SignedArchive} (hp : Plain p)
    (ha : signArchive x c fig st (sampleWrapEnv k) (profiledCmd p) = .ok a) :
    a.stored ≠ [] ∧ a.stored.length ≤ 3 ∧
      (∀ bytes ∈ a.stored, bytes.length ≤ maxStoredChunkBytes) ∧
      a.link = some ⟨0, none, 0, some "device.chronicle"⟩ ∧
      a.manifest.metadata.validate = .ok () := by
  obtain ⟨reader, w, chunks, out, deviceId, data, hmade⟩ := signArchive_eq_ok ha
  have hreader : reader.rest = [1, 2, 3] := by
    have hopened := hmade.opened
    rw [← Except.ok.inj hopened]
  have hwhole : chunks.flatten = [1, 2, 3] := by
    rw [← hreader]
    exact hmade.chunks.whole (show 0 < 2 by decide)
  have hlen := storedFrom_length hmade.chunks.stored
  rw [← hmade.stored] at hlen
  refine ⟨?_, ?_, ?_, ?_, ?_⟩
  · intro hnil
    rw [hnil] at hlen
    have hchunks : chunks = [] := List.length_eq_zero_iff.mp hlen.symm
    rw [hchunks] at hwhole
    cases hwhole
  · have hle := Slices.length_le_flatten (fun chunk hmem => (hmade.chunks.sizes chunk hmem).1)
    rw [hwhole] at hle
    rw [hlen]
    exact hle
  · rw [hmade.stored]
    refine storedFrom_capped hform hmade.chunks.stored ?_
    intro chunk hmem
    have hsize : chunk.length ≤ 2 := (hmade.chunks.sizes chunk hmem).2
    unfold maxChunkSizeBytes
    omega
  · obtain ⟨-, hlink⟩ | ⟨s, hload, -⟩ := resolveChronicle_eq_ok rfl rfl rfl rfl hmade.link
    · exact hlink
    · cases hload
  · have hmetadata := hmade.metadata
    rw [profileMetadata_plain hp] at hmetadata
    rw [hmade.kept.metadata, ← Except.ok.inj hmetadata]
    rfl

omit hbase in
/-- A sample wrap that gets as far as its signature reports success, if the text of its manifest is
short enough. -/
theorem sample_finishes {st : Storage} {p : String} {a : SignedArchive} (hp : Plain p)
    (ha : signArchive x sampleContent fig st (sampleWrapEnv k) (profiledCmd p) = .ok a)
    (hshort : (intoBytes (st.printManifest a.manifest)).length ≤ manifestMaxBytes) :
    ∃ result, handleWrap x sampleContent fig st (sampleWrapEnv k) (profiledCmd p) = .ok result ∧
      ArchiveWriter.Finalized st a.writer a.manifest (intoBytes a.signature) result.dir := by
  obtain ⟨-, hcount, -, hlink, -⟩ := sample_made fig st k sampleContent_wellFormed hp ha
  obtain ⟨reader, w, chunks, out, deviceId, data, hmade⟩ := signArchive_eq_ok ha
  have hindex : a.writer.nextIndex.toNat = a.stored.length := by
    obtain ⟨created, -, hw⟩ := ArchiveWriter.create_eq_ok hmade.created
    have hstart : w.nextIndex.toNat = 0 := by rw [hw]; rfl
    rw [hmade.writer, hmade.chunks.writer, ← hmade.stored,
      ArchiveWriter.after_nextIndex (by omega), hstart, Nat.zero_add]
  obtain ⟨dir, hdir⟩ : ∃ dir, a.writer.finalize st (sampleWrapEnv k).faults a.manifest
      (intoBytes a.signature) = .ok dir := by
    have hsegments : a.manifest.segments.length = a.writer.nextIndex.toNat := by
      rw [hmade.segments, segmentsFrom_length, hindex]
    exact ⟨_, bind_eq_ok.mpr ⟨(), failWhen_eq_ok.mpr (by simp [hsegments]), bind_eq_ok.mpr
      ⟨(), failWhen_eq_ok.mpr (by simpa using hshort), rfl⟩⟩⟩
  obtain ⟨node, hnode⟩ : ∃ node, advanceState x st (sampleWrapEnv k) a = .ok node := by
    unfold advanceState
    rw [hlink]
    exact ⟨_, rfl⟩
  exact ⟨_, bind_eq_ok.mpr ⟨a, ha, bind_eq_ok.mpr ⟨dir, mapError_eq_ok.mpr hdir,
    bind_eq_ok.mpr ⟨node, hnode, rfl⟩⟩⟩, ArchiveWriter.finalize_eq_ok hdir⟩

include hlength in
theorem sample_wrapped {p : String} (hp : Plain p) :
    ∃ a result,
      signArchive x sampleContent fig (runStorage a.manifest) (sampleWrapEnv k) (profiledCmd p) =
        .ok a ∧
      handleWrap x sampleContent fig (runStorage a.manifest) (sampleWrapEnv k) (profiledCmd p) =
        .ok result ∧
      ArchiveWriter.Finalized (runStorage a.manifest) a.writer a.manifest (intoBytes a.signature)
        result.dir := by
  obtain ⟨a, ha⟩ := sample_signArchive hbase hlength fig (sampleStorage x k k) k
    sampleContent_takesAll hp
  rw [signArchive_storage fig x sampleContent _ (runStorage a.manifest) rfl rfl] at ha
  have hprint : (runStorage a.manifest).printManifest a.manifest = "manifest" := by
    simp [runStorage]
  obtain ⟨result, hwrap, hfinal⟩ := sample_finishes fig k hp ha (by rw [hprint]; decide)
  exact ⟨a, result, ha, hwrap, hfinal⟩

omit hbase in
theorem sample_valid (hform : c.WellFormed) {a : SignedArchive}
    (ha : signArchive x c fig st (sampleWrapEnv k) sampleWrapCmd = .ok a) :
    a.manifest.validate = .ok () := by
  obtain ⟨hstored, -, -, hlink, hdata⟩ := sample_made fig st k hform (by unfold Plain; decide) ha
  obtain ⟨reader, w, chunks, out, deviceId, data, hmade⟩ := signArchive_eq_ok ha
  have hmanifest := hmade.chronicleManifest hlink
  rw [hmade.kept.metadata] at hdata
  refine hmade.validate (by decide) hdata hstored ?_
  rw [hmanifest.sequence, hmanifest.prev]
  rfl

include hlength in
theorem sample_wrap (hshort : x.SignsShort) :
    ∃ a result,
      signArchive x sampleContent fig (runStorage a.manifest) (sampleWrapEnv k) sampleWrapCmd =
        .ok a ∧
      handleWrap x sampleContent fig (runStorage a.manifest) (sampleWrapEnv k) sampleWrapCmd =
        .ok result ∧
      ArchiveWriter.Finalized (runStorage a.manifest) a.writer a.manifest (intoBytes a.signature)
        result.dir ∧
      validateArchive x (runStorage a.manifest) result.dir = .ok () := by
  have hp : Plain "generic" := by unfold Plain; decide
  obtain ⟨a, result, ha, hwrap, hfinal⟩ := sample_wrapped hbase hlength fig k hp
  obtain ⟨-, hcount, hcapped, -, -⟩ := sample_made fig _ k sampleContent_wellFormed hp ha
  obtain ⟨reader, w, chunks, out, deviceId, data, hmade⟩ := signArchive_eq_ok ha
  refine ⟨a, result, ha, hwrap, hfinal, ?_⟩
  refine validateArchive_finalized hmade hfinal rfl (by omega) hcapped (runStorage_parse _)
    sampleLossy_text ?_ (sample_valid fig _ k sampleContent_wellFormed ha)
  rw [hmade.signature]
  exact hshort _ _

end Wrapping

theorem sample_stored_head {job : ChunkJob} (hnonce : job.nonce = sampleDraws.nonce)
    {cek : ContentKey} (hcek : job.cek = some cek) {i : Nat} {chunks stored : List Bytes}
    (h : StoredFrom sampleContent job i chunks stored) {j : Nat} {bytes : Bytes}
    (hj : stored[j]? = some bytes) : ∃ rest, bytes = UInt8.ofNat (i + j) :: rest := by
  induction h generalizing j bytes with
  | nil => simp at hj
  | @cons i chunk first chunks stored head tail ih =>
    have hfirst : ∃ rest, first = UInt8.ofNat i :: rest := by
      unfold storeChunk at head
      rw [hcek] at head
      obtain ⟨ct, -, head⟩ := bind_eq_ok.mp head
      rw [← Except.ok.inj head, hnonce]
      exact ⟨_, rfl⟩
    exact Slices.forall_place_cons
      (P := fun place bytes => ∃ rest, bytes = UInt8.ofNat place :: rest)
      hfirst (fun _ _ htail => ih htail) j bytes hj

end Sealedge
