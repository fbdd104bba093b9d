import Sealedge.ArchiveWriter
import Sealedge.ContentCrypto
import Sealedge.WitnessJws

namespace Sealedge

open Fallible PieceReader

/-- The input of a wrap: its metadata and the reader that opening it gives. A read error stands
where the reader ends. -/
structure InputFile where
  path : String
  metadata : Except IoError Nat
  opened : Except IoError (Reader UInt8)
  readError : Option IoError

/-- The loop of `read_exact_or_eof`: reads are joined until the buffer is full or the file ends. -/
def fillBuffer (readError : Option IoError) (size : Nat) (reader : Reader UInt8) (buf : Bytes) :
    Except IoError (Bytes × Reader UInt8) :=
  if buf.length < size then
    if _h : (reader.read (size - buf.length)).1 = [] then
      match readError with
      | some e => .error e
      | none => .ok (buf, (reader.read (size - buf.length)).2)
    else
      fillBuffer readError size (reader.read (size - buf.length)).2
        (buf ++ (reader.read (size - buf.length)).1)
  else .ok (buf, reader)
termination_by reader.rest.length
decreasing_by exact Reader.read_rest_lt _h

def readExactOrEof (readError : Option IoError) (reader : Reader UInt8) (size : Nat) :
    Except IoError (Bytes × Reader UInt8) :=
  fillBuffer readError size reader []

/-- Whatever the pieces, the buffer takes what the reader has, up to its size. -/
theorem fillBuffer_eq_ok {readError : Option IoError} {size : Nat} {reader reader' : Reader UInt8}
    {buf out : Bytes} (hbuf : buf.length ≤ size)
    (h : fillBuffer readError size reader buf = .ok (out, reader')) :
    out = buf ++ reader.rest.take (size - buf.length) ∧
      reader'.rest = reader.rest.drop (size - buf.length) := by
  induction hn : reader.rest.length using Nat.strong_induction_on generalizing reader buf with
  | _ n ih =>
    unfold fillBuffer at h
    by_cases hroom : buf.length < size
    · rw [if_pos hroom] at h
      by_cases hend : (reader.read (size - buf.length)).1 = []
      · have hrest := (Reader.read_eq_nil (by omega)).mp hend
        rw [dif_pos hend] at h
        cases readError with
        | some e => cases h
        | none =>
          obtain ⟨hout, hreader⟩ := Prod.mk.inj (Except.ok.inj h)
          have happend := reader.read_append (size - buf.length)
          rw [hend, hreader] at happend
          rw [hrest] at happend ⊢
          exact ⟨by simp [hout], by simpa using happend⟩
      · rw [dif_neg hend] at h
        have hlt := Reader.read_rest_lt hend
        have happend := reader.read_append (size - buf.length)
        have hlen := reader.read_length_le (size - buf.length)
        obtain ⟨hout, hrest⟩ := ih _ (by omega) (by rw [List.length_append]; omega) h rfl
        have hsize : size - (buf ++ (reader.read (size - buf.length)).1).length =
            size - buf.length - (reader.read (size - buf.length)).1.length := by
          rw [List.length_append]
          omega
        rw [hsize] at hout hrest
        rw [hout, hrest, ← happend, List.take_append, List.drop_append]
        have htake : (reader.read (size - buf.length)).1.take (size - buf.length) =
            (reader.read (size - buf.length)).1 := List.take_of_length_le hlen
        have hdrop : (reader.read (size - buf.length)).1.drop (size - buf.length) = [] :=
          List.drop_of_length_le hlen
        rw [htake, hdrop, List.append_assoc]
        exact ⟨rfl, rfl⟩
    · rw [if_neg hroom] at h
      obtain ⟨hout, hreader⟩ := Prod.mk.inj (Except.ok.inj h)
      have hzero : size - buf.length = 0 := by omega
      rw [hzero, ← hout, ← hreader]
      simp

theorem readExactOrEof_eq_ok {readError : Option IoError} {size : Nat} {reader reader' : Reader UInt8}
    {chunk : Bytes} (h : readExactOrEof readError reader size = .ok (chunk, reader')) :
    chunk = reader.rest.take size ∧ reader'.rest = reader.rest.drop size := by
  simpa using fillBuffer_eq_ok (Nat.zero_le size) h

theorem readExactOrEof_rest_lt {readError : Option IoError} {size : Nat}
    {reader reader' : Reader UInt8} {chunk : Bytes}
    (h : readExactOrEof readError reader size = .ok (chunk, reader')) (hne : chunk ≠ []) :
    reader'.rest.length < reader.rest.length := by
  obtain ⟨hchunk, hrest⟩ := readExactOrEof_eq_ok h
  have hpos := List.length_pos_of_ne_nil hne
  rw [hchunk, List.length_take] at hpos
  rw [hrest, List.length_drop]
  omega

/-- What a wrap computes with floats and times: conversions from and to 32 bits, a count times a
float, three decimals, and the end of a capture from its start and two durations. -/
structure Figures where
  ofU32 : UInt32 → F64
  toU32 : F64 → UInt32
  times : Nat → F64 → F64
  fixed3 : F64 → String
  captureEnd : String → F64 → F64 → Except CliError String

structure WrapCmd where
  profile : String
  chunkSize : Nat
  chunkSeconds : Option F64
  fps : Option UInt32
  deviceKey : Option String
  seed : Option UInt64
  dataType : Option String
  source : Option String
  description : Option String
  mimeType : Option String
  sampleRate : Option F64
  unit : Option String
  sensorModel : Option String
  latitude : Option F64
  longitude : Option F64
  altitude : Option F64
  bitDepth : Option UInt16
  channels : Option UInt8
  codec : Option String
  application : Option String
  host : Option String
  logLevel : Option String
  logFormat : Option String
  backend : String
  recipients : List String
  signOnly : Bool
  chronicle : Option String
  prevArchive : Option SealDir
  prevHash : Option String
  prevSeq : Option UInt64

/-- The random draws of one wrap: the content key, a nonce for each chunk and the randomness of
each encapsulation. -/
structure Draws where
  cek : ContentKey
  nonce : Nat → Nonce24
  ephemeral : Nat → Bytes

/-- What a wrap finds around it. -/
structure WrapEnv where
  bundle : Except CliError DeviceBundle
  input : InputFile
  output : SealDir
  outputName : Option String
  stateFile : Node
  draws : Draws
  seeded : UInt64 → Draws
  startedAt : String
  updatedAt : String
  faults : Faults

/-- The checks of the arguments before any key is loaded. -/
def checkWrapArgs (args : WrapCmd) : Except CliError Unit := do
  failWhen (decide (maxChunkSizeBytes < args.chunkSize))
    (.other ("--chunk-size must not exceed 256 MB (" ++ maxChunkSizeBytes.repr ++
      " bytes), got " ++ args.chunkSize.repr ++ " bytes"))
  failWhen (args.backend == "yubikey" && args.deviceKey.isNone)
    (.other "--device-key is required with --backend yubikey")
  failWhen (args.backend == "yubikey" && !args.signOnly)
    (.other ("--backend yubikey currently requires --sign-only " ++
      "(C4 content encryption is software-backend only)"))

section Keys

variable (x : Crates)

/-- The signing key of the chosen backend, in a build without the hardware feature. -/
def signingPublicKey (args : WrapCmd) (bundle : DeviceBundle) : Except CliError String :=
  if args.backend = "software" then .ok (bundle.signing.public x)
  else if args.backend = "yubikey" then
    .error (.other "YubiKey support requires building with --features yubikey")
  else .error (.other ("Unknown backend '" ++ args.backend ++ "'. Use 'software' or 'yubikey'"))

/-- `pub_key_to_device_id`: the first 6 bytes of the key. -/
def pubKeyToDeviceId (pubKeyStr : String) : Except CliError String := do
  let rawB64 ← orFail
    ((Texts.stripPrefix "ed25519:" pubKeyStr).orElse
      (fun _ => Texts.stripPrefix "ecdsa-p256:" pubKeyStr))
    ("Unrecognized public key prefix in: " ++ pubKeyStr)
  let keyBytes ← withContext (x.base64Decode rawB64)
    "Failed to decode public key bytes for device_id"
  failWhen (decide (keyBytes.length < 6))
    (.other ("Public key bytes too short for device_id (got " ++ keyBytes.length.repr ++ " bytes)"))
  pure ("te:cam:" ++ Numerals.hexEncode (keyBytes.take 6))

end Keys

def openInput (input : InputFile) : Except CliError (Reader UInt8) := do
  let size ← withContext input.metadata ("Failed to read input file: " ++ input.path)
  failWhen (size == 0) (.other "Input file is empty")
  withContext input.opened ("Failed to read input file: " ++ input.path)

def checkOutputName (outputName : Option String) : Except CliError Unit := do
  let name ← orFail outputName "Invalid output path"
  failWhen (!Texts.endsWith name ".seal") (.other "Output directory must end with .seal")

/-- The chunk duration: 2 seconds of video by default, none of anything else. -/
def WrapCmd.duration (args : WrapCmd) : F64 :=
  if args.profile = "cam.video" then args.chunkSeconds.getD ⟨0x4000000000000000⟩
  else args.chunkSeconds.getD ⟨0⟩

/-- What the streaming loop is given beside its reader and its writer. -/
structure ChunkJob where
  input : InputFile
  chunkSize : Nat
  profile : String
  duration : F64
  cek : Option ContentKey
  nonce : Nat → Nonce24
  aad : Digest

structure ChunksOut where
  writer : ArchiveWriter
  segments : List SegmentInfo
  stored : List Bytes

section Streaming

variable (x : Crates) (c : ContentCrates) (fig : Figures) (faults : Faults)

/-- The stored form of a chunk: its nonce and ciphertext, or the chunk itself. -/
def storeChunk (job : ChunkJob) (i : Nat) (chunkData : Bytes) : Except CliError Bytes :=
  match job.cek with
  | some key => do
    let ct ← passOn ((encryptSegment c key (job.nonce i) chunkData job.aad.val).mapError
      CryptoError.display)
    pure ((job.nonce i).val ++ ct)
  | none => .ok chunkData

def segmentFor (job : ChunkJob) (i : Nat) (outcome : ChunkOutcome) : SegmentInfo where
  chunkFile := chunkFileName outcome.index.toNat
  blake3Hash := Numerals.hexEncode outcome.blake3.val
  startTime :=
    if job.profile = "cam.video" then fig.fixed3 (fig.times i job.duration) ++ "s"
    else "segment-" ++ i.repr
  durationSeconds := job.duration
  continuityHash := Numerals.hexEncode outcome.continuity.val

/-- The streaming loop: one chunk is read, stored and described after the other. -/
def wrapChunks (job : ChunkJob) (reader : Reader UInt8) (i : Nat) (writer : ArchiveWriter) :
    Except CliError ChunksOut :=
  match _hread : readExactOrEof job.input.readError reader job.chunkSize with
  | .error _ => .error (.other ("Failed to read input file: " ++ job.input.path))
  | .ok (chunkData, reader') =>
    if _hend : chunkData = [] then .ok ⟨writer, [], []⟩
    else do
      let stored ← storeChunk c job i chunkData
      let (outcome, writer') ← passOn ((writer.pushChunk x faults stored).mapError
        ArchiveError.display)
      let rest ← wrapChunks job reader' (i + 1) writer'
      pure
        { writer := rest.writer
          segments := segmentFor fig job i outcome :: rest.segments
          stored := stored :: rest.stored }
termination_by reader.rest.length
decreasing_by exact readExactOrEof_rest_lt _hread _hend

end Streaming

/-- The metadata of the profile; every profile that is not known is treated as generic. -/
def profileMetadata (fig : Figures) (args : WrapCmd) (startedAt : String) (chunkCount : Nat) :
    Except CliError ProfileMetadata :=
  if args.profile = "cam.video" then do
    let captureEndTime ←
      if 0 < chunkCount then
        fig.captureEnd startedAt (fig.times (chunkCount - 1) args.duration) args.duration
      else .ok startedAt
    pure (.camVideo
      { startedAt := startedAt
        endedAt := captureEndTime
        timezone := "UTC"
        fps := fig.ofU32 (args.fps.getD 30)
        resolution := "1920x1080"
        codec := "raw" })
  else if args.profile = "sensor" then do
    let sampleRate ← orFail args.sampleRate "--sample-rate is required for sensor profile"
    let unit ← orFail args.unit "--unit is required for sensor profile"
    let sensorModel ← orFail args.sensorModel "--sensor-model is required for sensor profile"
    pure (.sensor
      { startedAt := startedAt
        endedAt := startedAt
        sampleRateHz := sampleRate
        unit := unit
        sensorModel := sensorModel
        latitude := args.latitude
        longitude := args.longitude
        altitude := args.altitude
        labels := .empty })
  else if args.profile = "audio" then do
    let sampleRate ← orFail args.sampleRate "--sample-rate is required for audio profile"
    let bitDepth ← orFail args.bitDepth "--bit-depth is required for audio profile"
    let channels ← orFail args.channels "--channels is required for audio profile"
    let codec ← orFail args.codec "--codec is required for audio profile"
    pure (.audio
      { startedAt := startedAt
        endedAt := startedAt
        sampleRateHz := fig.toU32 sampleRate
        bitDepth := bitDepth
        channels := channels
        codec := codec })
  else if args.profile = "log" then do
    let application ← orFail args.application "--application is required for log profile"
    let host ← orFail args.host "--host is required for log profile"
    let logLevel ← orFail args.logLevel "--log-level is required for log profile"
    let logFormat ← orFail args.logFormat "--log-format is required for log profile"
    pure (.log
      { startedAt := startedAt
        endedAt := startedAt
        application := application
        host := host
        logLevel := logLevel
        logFormat := logFormat })
  else
    pure (.generic
      { startedAt := startedAt
        endedAt := startedAt
        dataType := args.dataType
        source := args.source
        description := args.description
        mimeType := args.mimeType
        labels := .empty })

/-- A resolved link into a chronicle, with the state file to advance. -/
structure ChronicleLink where
  sequence : UInt64
  prev : Option String
  keyEpoch : UInt32
  statePath : Option String
  deriving DecidableEq

section Chronicle

variable (x : Crates) (st : Storage)

/-- `ChronicleState::load`. -/
def ChronicleState.load (node : Node) : Except IoError ChronicleState := do
  let bytes ← node.read
  (st.parseState bytes).mapError .other

/-- `ChronicleState::save`: a temporary file that is renamed into place. -/
def ChronicleState.save (faults : Faults) (path : String) (state : ChronicleState) : Except IoError Node := do
  faults.attempt (path ++ ".tmp")
  faults.attempt path
  pure (.file (intoBytes (st.printState state)))

/-- `resolve_chronicle`. A sequence is incremented without a check, as in a release build. -/
def resolveChronicle (stateFile : Node) (args : WrapCmd) (publicKey : String) :
    Except CliError (Option ChronicleLink) :=
  match args.prevArchive with
  | some dir => do
    let (m, _) ← withContext (readManifest st dir) ("Failed to read --prev-archive: " ++ dir.path)
    let prevSeq ← orFail m.sequence
      ("--prev-archive points at a non-chronicle archive (no sequence); " ++
        "start a chronicle with --chronicle or supply --prev-hash/--prev-seq")
    pure (some
      { sequence := prevSeq + 1
        prev := some (formatArchiveId (m.archiveDigest x))
        keyEpoch := m.device.keyEpoch.getD 0
        statePath := args.chronicle })
  | none =>
    match args.prevHash, args.prevSeq with
    | some hash, some seq => do
      failWhen (!wellFormedDigest hash) (.other "--prev-hash must be 'b3:<64 hex>'")
      pure (some
        { sequence := seq + 1
          prev := some hash
          keyEpoch := 0
          statePath := args.chronicle })
    | some _, none => .error (.other "--prev-hash and --prev-seq must be supplied together")
    | none, some _ => .error (.other "--prev-hash and --prev-seq must be supplied together")
    | none, none =>
      match args.chronicle with
      | none => .ok none
      | some path =>
        if stateFile = .absent then
          -- No state file yet: this archive is the genesis.
          .ok (some { sequence := 0, prev := none, keyEpoch := 0, statePath := some path })
        else do
          let state ← withContext (ChronicleState.load st stateFile)
            ("Failed to read chronicle state: " ++ path)
          failWhen (state.devicePub != publicKey)
            (.other ("chronicle state belongs to device " ++ state.devicePub ++
              " but wrap is signing with " ++ publicKey))
          pure (some
            { sequence := state.sequence + 1
              prev := some state.tip
              keyEpoch := state.keyEpoch
              statePath := some path })

end Chronicle

/-- The manifest with its place in the chronicle. Epoch 0 is left out. -/
def TrstManifest.stamp (m : TrstManifest) : Option ChronicleLink → TrstManifest
  | none => m
  | some link =>
    { m with
      sequence := some link.sequence
      prevArchiveHash := link.prev
      device :=
        { m.device with keyEpoch := if 0 < link.keyEpoch then some link.keyEpoch else none } }

/-- The device's own key comes first; no key is listed twice. -/
def recipientPubs (kaPub : String) (recipients : List String) : List String :=
  recipients.foldl (fun pubs r => if pubs.contains r then pubs else pubs ++ [r]) [kaPub]

section Sealing

variable (x : Crates) (c : ContentCrates)

def sealRecipients (ephemeral : Nat → Bytes) (info aad : Bytes) (cek : ContentKey) :
    Nat → List String → Except CryptoError (List RecipientEntry)
  | _, [] => .ok []
  | i, pub :: rest => do
    let (enc, wrappedCek) ← hpkeSealCek x c (ephemeral i) pub info aad cek
    let id ← recipientId x pub
    let tail ← sealRecipients ephemeral info aad cek (i + 1) rest
    pure ({ recipientId := id, recipientPub := pub, enc := enc, wrappedCek := wrappedCek } :: tail)

/-- The content key is sealed to every recipient, bound to the manifest as it stands. -/
def sealManifest (args : WrapCmd) (ephemeral : Nat → Bytes) (cek : Option ContentKey)
    (publicKey kaPub : String) (m : TrstManifest) : Except CliError TrstManifest :=
  match cek with
  | some cek => do
    let preDigest := segmentHash x (m.toCanonicalBytes x.text)
    let info := cekWrapInfo publicKey m.trstVersion
    let recipients ← passOn
      ((sealRecipients x c ephemeral info preDigest.val cek 0
        (recipientPubs kaPub args.recipients)).mapError CryptoError.display)
    pure
      { m with
        encryption := some
          { contentAead := contentAeadId
            hpke := { kem := hpkeKemId, kdf := hpkeKdfId, aead := hpkeAeadId }
            recipients := recipients } }
  | none => do
    failWhen (!args.recipients.isEmpty)
      (.other ("--recipient cannot be combined with --sign-only " ++
        "(sign-only archives are unencrypted)"))
    pure m

end Sealing

/-- The manifest before it is linked, sealed and signed. -/
def unsignedManifest (args : WrapCmd) (deviceId publicKey kaPub : String)
    (metadata : ProfileMetadata) (segments : List SegmentInfo) : TrstManifest where
  trstVersion := "0.2.0"
  profile := args.profile
  device :=
    { id := deviceId
      model := "TrustEdgeRefCam"
      firmwareVersion := "1.0.0"
      publicKey := publicKey
      keyAgreementPublic := some kaPub
      keyEpoch := none }
  metadata := metadata
  chunk := { sizeBytes := UInt64.ofNat args.chunkSize, durationSeconds := args.duration }
  segments := segments
  claims := ["location:unknown"]
  encryption := none
  sequence := none
  prevArchiveHash := none
  signature := none

/-- What a wrap has made when its manifest is signed. -/
structure SignedArchive where
  bundle : DeviceBundle
  manifest : TrstManifest
  signature : String
  link : Option ChronicleLink
  writer : ArchiveWriter
  stored : List Bytes

def WrapEnv.drawsFor (env : WrapEnv) : Option UInt64 → Draws
  | some seed => env.seeded seed
  | none => env.draws

/-- A seeded run has a fixed time. -/
def WrapEnv.timeFor (env : WrapEnv) : Option UInt64 → String
  | some _ => "2025-01-01T00:00:00Z"
  | none => env.startedAt

structure WrapResult where
  dir : SealDir
  stateFile : Node
  signature : String
  chunkCount : Nat

section Handler

variable (x : Crates) (c : ContentCrates) (fig : Figures) (st : Storage)

def chunkJob (env : WrapEnv) (args : WrapCmd) (publicKey : String) : ChunkJob where
  input := env.input
  chunkSize := args.chunkSize
  profile := args.profile
  duration := args.duration
  cek := if args.signOnly then none else some (env.drawsFor args.seed).cek
  nonce := (env.drawsFor args.seed).nonce
  aad := chunkAadV2 x publicKey args.profile (env.timeFor args.seed)

/-- `handle_wrap` up to the signature: the chunks are on disk, the manifest is not. -/
def signArchive (env : WrapEnv) (args : WrapCmd) : Except CliError SignedArchive := do
  checkWrapArgs args
  let bundle ← env.bundle
  let publicKey ← signingPublicKey x args bundle
  let deviceId ← pubKeyToDeviceId x publicKey
  let reader ← openInput env.input
  checkOutputName env.outputName
  let writer ← withContext (ArchiveWriter.create x env.faults env.output)
    ("Failed to create archive: " ++ env.output.path)
  let job := chunkJob x env args publicKey
  let out ← wrapChunks x c fig env.faults job reader 0 writer
  let metadata ← profileMetadata fig args (env.timeFor args.seed) out.segments.length
  let kaPub := bundle.keyAgreement.publicString x c
  let unsigned := unsignedManifest args deviceId publicKey kaPub metadata out.segments
  let link ← resolveChronicle x st env.stateFile args publicKey
  let finished ← sealManifest x c args (env.drawsFor args.seed).ephemeral job.cek publicKey kaPub
    (unsigned.stamp link)
  let signature := signManifest x bundle.signing (finished.toCanonicalBytes x.text)
  pure
    { bundle := bundle
      manifest := { finished with signature := some signature }
      signature := signature
      link := link
      writer := out.writer
      stored := out.stored }

/-- The chronicle head after the archive was written. -/
def advanceState (env : WrapEnv) (a : SignedArchive) : Except CliError Node :=
  match a.link with
  | none => .ok env.stateFile
  | some link =>
    match link.statePath with
    | none => .ok env.stateFile
    | some path =>
      withContext
        (ChronicleState.save st env.faults path
          { devicePub := a.bundle.signing.public x
            sequence := link.sequence
            tip := formatArchiveId (a.manifest.archiveDigest x)
            keyEpoch := link.keyEpoch
            updatedAt := env.updatedAt })
        ("Failed to update chronicle state: " ++ path)

/-- `handle_wrap`. -/
def handleWrap (env : WrapEnv) (args : WrapCmd) : Except CliError WrapResult := do
  let a ← signArchive x c fig st env args
  let dir ← withContext
    (a.writer.finalize st env.faults a.manifest (intoBytes a.signature))
    ("Failed to finalize archive: " ++ env.output.path)
  let stateFile ← advanceState x st env a
  pure
    { dir := dir
      stateFile := stateFile
      signature := a.signature
      chunkCount := a.manifest.segments.length }

end Handler

end Sealedge
