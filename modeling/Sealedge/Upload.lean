import Sealedge.FrameCodec
import Sealedge.ServerConnection
import Sealedge.StreamWriter

namespace Sealedge

open Fallible Bincode PieceReader Dialogue FrameCodec

section TestChunks

/-- The loop that appends `padding...` to a test chunk. -/
def padTo (limit : Nat) (pt : Bytes) : Bytes :=
  if pt.length < limit then padTo limit (pt ++ intoBytes "padding...") else pt
termination_by limit - pt.length
decreasing_by
  have hpadding : (intoBytes "padding...").length = 10 := by decide
  rw [List.length_append, hpadding]
  omega

/-- The plaintext of a test chunk. It can be longer than the chunk size. -/
def testChunk (chunkSize seq : Nat) : Bytes :=
  padTo (min chunkSize 2048) (intoBytes ("This is encrypted test chunk #" ++ seq.repr ++ ". "))

end TestChunks

/-- What the client sends: a file, or so many test chunks. -/
inductive UploadSource
  | file (reader : Reader UInt8)
  | testChunks (count : Nat)

namespace UploadSource

/-- The plaintext of the chunk `seq`, if there is one. -/
def next (chunkSize seq : Nat) : UploadSource → Option (Bytes × UploadSource)
  | file reader =>
    if (reader.read chunkSize).1 = [] then none
    else some ((reader.read chunkSize).1, file (reader.read chunkSize).2)
  | testChunks count =>
    if seq ≤ count then some (testChunk chunkSize seq, testChunks count) else none

/-- All plaintexts from the chunk `seq` on. -/
def plaintexts (chunkSize seq : Nat) : UploadSource → List Bytes
  | file reader => reader.pieces chunkSize
  | testChunks count => (List.range' seq (count + 1 - seq)).map (testChunk chunkSize)

theorem plaintexts_nil {chunkSize seq : Nat} {source : UploadSource}
    (h : source.next chunkSize seq = none) : source.plaintexts chunkSize seq = [] := by
  cases source with
  | file reader =>
    have hend : (reader.read chunkSize).1 = [] := by simpa [next] using h
    exact Reader.pieces_nil hend
  | testChunks count =>
    have hpast : count < seq := by simpa [next] using h
    have hnone : count + 1 - seq = 0 := by omega
    rw [plaintexts, hnone]
    rfl

theorem plaintexts_cons {chunkSize seq : Nat} {source rest : UploadSource} {pt : Bytes}
    (h : source.next chunkSize seq = some (pt, rest)) :
    source.plaintexts chunkSize seq = pt :: rest.plaintexts chunkSize (seq + 1) := by
  cases source with
  | file reader =>
    rw [next] at h
    split at h
    next => contradiction
    next hmore =>
      obtain ⟨rfl, rfl⟩ := Prod.mk.inj (Option.some.inj h)
      exact Reader.pieces_cons hmore
  | testChunks count =>
    rw [next] at h
    split at h
    next hle =>
      obtain ⟨rfl, rfl⟩ := Prod.mk.inj (Option.some.inj h)
      have hmore : count + 1 - seq = count + 1 - (seq + 1) + 1 := by omega
      rw [plaintexts, hmore, List.range'_succ, List.map_cons]
      rfl
    next => contradiction

end UploadSource

/-- A call of the client: its arguments, what it draws at random, the environment variables it
reads, and its clock in milliseconds and in seconds when it makes a chunk. -/
structure UploadCall where
  hardened : Bool
  chunkSize : Nat
  source : UploadSource
  signing : DeviceKeypair
  noncePrefix : Fixed 4
  keyId : Fixed 16
  deviceId : String
  salt : String
  tsMs : Nat → UInt64
  timestamp : Nat → UInt64

/-- The error of a chunk that no frame has room for. -/
def frameTooBig : String :=
  "Failed to send chunk: Failed to send chunk via framed transport: frame size too big"

/-- The errors of a socket whose other end has been given up. -/
def lostConnection (closed : Bool) : List String :=
  if closed then ["Broken pipe (os error 32)", "Connection reset by peer (os error 104)"] else []

/-- The client after its authentication. -/
inductive ClientState
  | sending (key : Fixed 32) (source : UploadSource) (seq : Nat)
  | awaiting (key : Fixed 32) (source : UploadSource) (seq : Nat)
  | finished (result : Except String Unit)

section Client

variable (x : Crates) (ec : EnvelopeCrates)

namespace UploadCall

variable (u : UploadCall)

/-- Only the hardened sender of a file names a type. -/
def mimeType : Option String :=
  match u.hardened, u.source with
  | true, .file _ => some "application/octet-stream"
  | _, _ => none

/-- The header that `build_session_header` hashes and never sends. -/
def header : FileHeader where
  version := streamVersion
  aeadAlg := 1
  sigAlg := 1
  hashAlg := 1
  kdfAlg := 1
  reserved := ⟨List.replicate 3 0, List.length_replicate⟩
  keyId := u.keyId
  deviceIdHash := x.blake3 (intoBytes u.deviceId ++ intoBytes u.salt)
  noncePrefix := u.noncePrefix
  chunkSize := UInt32.ofNat u.chunkSize

def headerHash : Digest :=
  x.blake3 (u.header x).toBytes.val

def manifest (seq : Nat) (pt : Bytes) : Manifest where
  v := 1
  tsMs := u.tsMs seq
  seq := UInt64.ofNat seq
  headerHash := u.headerHash x
  ptHash := x.blake3 pt
  keyId := u.keyId
  aiUsed := false
  modelIds := []
  dataType := .file u.mimeType
  chunkLen := UInt32.ofNat pt.length

def signedManifest (seq : Nat) (pt : Bytes) : SignedManifest where
  manifest := (u.manifest x seq pt).bincode
  sig := signManifestWithDomain x u.signing (u.manifest x seq pt).bincode
  pubkey := u.signing.verifyingKey x

def aad (seq : Nat) (pt : Bytes) : Bytes :=
  buildAad (u.headerHash x) (UInt64.ofNat seq) (recordNonce u.noncePrefix (UInt64.ofNat seq))
    (x.blake3 (u.manifest x seq pt).bincode) (UInt32.ofNat pt.length)

/-- The chunk that the loop makes of a plaintext. -/
def networkChunk (key : Fixed 32) (seq : Nat) (pt : Bytes) : Except String NetworkChunk := do
  let nonce := recordNonce u.noncePrefix (UInt64.ofNat seq)
  let ciphertext ← (ec.aes256GcmEncrypt key nonce (u.aad x seq pt) pt).elim
    (.error "AES-GCM encrypt failed") .ok
  pure {
    sequence := UInt64.ofNat seq
    data := ciphertext
    manifest := (u.signedManifest x seq pt).bincode
    nonce
    timestamp := u.timestamp seq }

/-- The loop of `send_encrypted_file_hardened` and `send_encrypted_test_chunks_hardened`. Whatever
text comes back counts as the acknowledgement; the timers are in `upsets`. -/
def act : ClientState → FrameAct ClientState (Except String Unit)
  | .sending key source seq =>
    match source.next u.chunkSize seq with
    | none => .done (.ok ())
    | some (pt, rest) =>
      match u.networkChunk x ec key seq pt with
      | .error e => .done (.error e)
      | .ok chunk => .send chunk.bincode (.awaiting key rest seq)
          (.finished (.error frameTooBig))
  | .awaiting key source seq => .receive
      (fun frame =>
        match utf8Decode frame with
        | some _ => .sending key source (seq + 1)
        | none => .finished (.error "Failed to read ACK: ACK is not valid UTF-8"))
      (.finished (.error "Failed to read ACK: Connection closed while waiting for ACK"))
      (fun e => .finished (.error ("Failed to read ACK: Failed to receive ACK frame: " ++ e)))
  | .finished result => .done result

/-- What the client gives up with when a timer runs out or the connection breaks. -/
def upsets : Upsets ClientState
  | closed, .sending key source seq =>
    match source.next u.chunkSize seq with
    | none => []
    | some (pt, _) =>
      match u.networkChunk x ec key seq pt with
      | .error _ => []
      | .ok _ => ("Chunk send timeout: deadline has elapsed" ::
          (lostConnection closed).map
            ("Failed to send chunk: Failed to send chunk via framed transport: " ++ ·)).map
          (.finished ∘ .error)
  | closed, .awaiting _ _ _ => ("ACK read timeout: deadline has elapsed" ::
      (lostConnection closed).map ("Failed to read ACK: Failed to receive ACK frame: " ++ ·)).map
      (.finished ∘ .error)
  | _, .finished _ => []

end UploadCall

end Client

/-- The server behind the opening of a connection. The log has every frame that was received, with
what became of it. -/
inductive ServerState
  | serving (session : ProcessingSession) (log : List (Bytes × Reply))
  | answering (frame : Bytes) (text : String) (session : ProcessingSession)
      (log : List (Bytes × Reply))
  | refusing (frame : Bytes) (text : String) (log : List (Bytes × Reply))
  | finished (log : List (Bytes × Reply)) (result : Except String Unit)

namespace ConnectionConfig

variable (config : ConnectionConfig) (keyedHash : Bytes → Bytes → Bytes)

/-- What the loop does with a frame that it has received. -/
def onFrame (session : ProcessingSession) (log : List (Bytes × Reply)) (frame : Bytes) :
    ServerState :=
  match config.answerFrame keyedHash (session.track frame) frame with
  | (.acknowledged text, next) => .answering frame text next log
  | (.refused text, _) => .refusing frame text log
  | (reply, next) => .serving next (log ++ [(frame, reply)])

/-- The loop of `handle_hardened_connection`, apart from its timers. -/
def act : ServerState → FrameAct ServerState (List (Bytes × Reply) × Except String Unit)
  | .serving session log =>
    match config.checkLimits session with
    | .error e => .done (log, .error e)
    | .ok _ => .receive (config.onFrame keyedHash session log) (.finished log (.ok ()))
        (fun e => .finished log (.error ("Frame decode error: " ++ e)))
  | .answering frame text session log =>
    .send (intoBytes text) (.serving session (log ++ [(frame, .acknowledged text)]))
      (.finished (log ++ [(frame, .unsent text)]) (.ok ()))
  | .refusing frame text log =>
    .send (intoBytes text) (.finished (log ++ [(frame, .refused text)]) (.ok ()))
      (.finished (log ++ [(frame, .refused text)]) (.ok ()))
  | .finished log result => .done (log, result)

variable {config}

theorem act_serving {session : ProcessingSession} (h : config.checkLimits session = .ok ())
    (log : List (Bytes × Reply)) :
    config.act keyedHash (.serving session log) =
      .receive (config.onFrame keyedHash session log) (.finished log (.ok ()))
        (fun e => .finished log (.error ("Frame decode error: " ++ e))) := by
  rw [act, h]

variable (config)

/-- Where the loop goes when a timer runs out or the connection breaks. An answer that cannot be
sent ends it without an error. -/
def upsets : Upsets ServerState
  | closed, .serving session log =>
    match config.checkLimits session with
    | .error _ => []
    | .ok _ =>
      ([("Connection #" ++ session.connectionId.repr ++ " idle timeout: " ++
            durationDebug config.connectionTimeoutSecs),
          ("Connection #" ++ session.connectionId.repr ++ " read timeout")] ++
        (lostConnection closed).map ("Frame decode error: " ++ ·)).map
        (fun e => .finished log (.error e))
  | closed, .answering frame text _ log =>
    (lostConnection closed).map fun _ => .finished (log ++ [(frame, .unsent text)]) (.ok ())
  | closed, .refusing frame text log =>
    (lostConnection closed).map fun _ => .finished (log ++ [(frame, .refused text)]) (.ok ())
  | _, .finished _ _ => []

end ConnectionConfig

end Sealedge
