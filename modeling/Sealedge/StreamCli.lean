import Sealedge.PieceReader
import Sealedge.StreamFormat

namespace Sealedge

open Fallible Bincode PieceReader

/-- What encrypt mode reads from: a file, with its extension in lower case, or the audio chunks
that a capture delivers before its channel is gone. -/
inductive Input
  | file (extension : Option String) (reader : Reader UInt8)
  | liveAudio (sampleRate : UInt32) (channels : UInt16) (captured : List Bytes)

def mimeTypes : List (String × String) := [
  ("pdf", "application/pdf"),
  ("jpg", "image/jpeg"),
  ("jpeg", "image/jpeg"),
  ("png", "image/png"),
  ("gif", "image/gif"),
  ("webp", "image/webp"),
  ("mp3", "audio/mpeg"),
  ("wav", "audio/wav"),
  ("flac", "audio/flac"),
  ("ogg", "audio/ogg"),
  ("m4a", "audio/mp4"),
  ("mp4", "video/mp4"),
  ("avi", "video/x-msvideo"),
  ("mkv", "video/x-matroska"),
  ("webm", "video/webm"),
  ("mov", "video/quicktime"),
  ("txt", "text/plain"),
  ("md", "text/markdown"),
  ("html", "text/html"),
  ("htm", "text/html"),
  ("css", "text/css"),
  ("js", "application/javascript"),
  ("json", "application/json"),
  ("xml", "application/xml"),
  ("zip", "application/zip"),
  ("tar", "application/x-tar"),
  ("gz", "application/gzip"),
  ("7z", "application/x-7z-compressed"),
  ("docx", "application/vnd.openxmlformats-officedocument.wordprocessingml.document"),
  ("xlsx", "application/vnd.openxmlformats-officedocument.spreadsheetml.sheet"),
  ("pptx", "application/vnd.openxmlformats-officedocument.presentationml.presentation"),
  ("exe", "application/x-executable"),
  ("bin", "application/octet-stream"),
  ("dat", "application/octet-stream")]

def determineDataType : Input → DataType
  | .file extension _ =>
    .file (extension.map fun ext => (mimeTypes.lookup ext).getD "application/octet-stream")
  | .liveAudio sampleRate channels _ => .audio sampleRate channels .f32Le

namespace Input

def isLiveAudio : Input → Bool
  | file _ _ => false
  | liveAudio _ _ _ => true

/-- One `read_chunk` into a buffer; what an audio chunk holds beyond the buffer is dropped. -/
def readChunk (room : Nat) : Input → Except String (Bytes × Input)
  | file extension reader => .ok ((reader.read room).1, file extension (reader.read room).2)
  | liveAudio _ _ [] => .error "Audio capture channel disconnected"
  | liveAudio sampleRate channels (audioBytes :: captured) =>
    .ok (audioBytes.take room, liveAudio sampleRate channels captured)

/-- What is left to read, as a measure of the loop. -/
def remaining : Input → Nat
  | file _ reader => reader.rest.length
  | liveAudio _ _ captured => captured.length

theorem readChunk_remaining_lt {room : Nat} {input rest : Input} {buf : Bytes}
    (h : input.readChunk room = .ok (buf, rest)) (hmore : buf ≠ [] ∨ input.isLiveAudio = true) :
    rest.remaining < input.remaining := by
  cases input with
  | file extension reader =>
    obtain ⟨rfl, rfl⟩ := Prod.mk.inj (Except.ok.inj h)
    rcases hmore with hne | hlive
    · exact Reader.read_rest_lt hne
    · contradiction
  | liveAudio sampleRate channels captured =>
    cases captured with
    | nil => contradiction
    | cons audioBytes captured =>
      obtain ⟨rfl, rfl⟩ := Prod.mk.inj (Except.ok.inj h)
      exact Nat.lt_succ_self captured.length

end Input

/-- A call of encrypt mode with `--envelope`: its arguments, what it draws at random, the
environment variables it reads, the seconds passed when a round of the loop begins, and the clock
in that round. -/
structure EncryptCall where
  chunk : Nat
  input : Input
  maxDuration : UInt64
  noPlaintext : Bool
  signing : DeviceKeypair
  noncePrefix : Fixed 4
  keyId : Fixed 16
  deviceId : String
  salt : String
  elapsed : Nat → Nat
  tsMs : Nat → UInt64

/-- The session prefix and the sequence number. -/
def recordNonce (noncePrefix : Fixed 4) (seq : UInt64) : Fixed 12 :=
  ⟨noncePrefix.val ++ beBytes 8 seq.toNat, by simp [noncePrefix.property]⟩

section Encrypting

variable (x : Crates) (ec : EnvelopeCrates) (key : Fixed 32)

namespace EncryptCall

/-- The algorithms are AES-256-GCM, Ed25519, BLAKE3 and PBKDF2. -/
def header (call : EncryptCall) : FileHeader where
  version := streamVersion
  aeadAlg := 1
  sigAlg := 1
  hashAlg := 1
  kdfAlg := 1
  reserved := ⟨[0, 0, 0], rfl⟩
  keyId := call.keyId
  deviceIdHash := x.blake3 (intoBytes call.deviceId ++ intoBytes call.salt)
  noncePrefix := call.noncePrefix
  chunkSize := UInt32.ofNat call.chunk

def headerHash (call : EncryptCall) : Digest :=
  x.blake3 (call.header x).toBytes.val

def manifest (call : EncryptCall) (round : Nat) (seq : UInt64) (buf : Bytes) : Manifest where
  v := 1
  tsMs := call.tsMs round
  seq
  headerHash := call.headerHash x
  ptHash := x.blake3 buf
  keyId := call.keyId
  aiUsed := false
  modelIds := []
  dataType := determineDataType call.input
  chunkLen := UInt32.ofNat buf.length

/-- The associated data of the record for `buf`. -/
def aad (call : EncryptCall) (round : Nat) (seq : UInt64) (buf : Bytes) : Bytes :=
  buildAad (call.headerHash x) seq (recordNonce call.noncePrefix seq)
    (x.blake3 (call.manifest x round seq buf).bincode) (UInt32.ofNat buf.length)

/-- One record, checked and decrypted again before it is written. -/
def sealChunk (call : EncryptCall) (round : Nat) (seq : UInt64) (buf : Bytes) :
    Except String (Record × Bytes) := do
  let nonce := recordNonce call.noncePrefix seq
  let mBytes := (call.manifest x round seq buf).bincode
  let sm : SignedManifest := {
    manifest := mBytes
    sig := signManifestWithDomain x call.signing mBytes
    pubkey := call.signing.verifyingKey x }
  let ct ← (ec.aes256GcmEncrypt key nonce (call.aad x round seq buf) buf).elim
    (.error "AES-GCM encrypt failed") .ok
  let m2 ← (deserialize Manifest.get sm.manifest).elim (.error "manifest decode") .ok
  sm.checkSignature x
  let aadRx := buildAad (call.headerHash x) seq nonce (x.blake3 mBytes) m2.chunkLen
  let pt ← (ec.aes256GcmDecrypt key nonce aadRx ct).elim
    (.error "AES-GCM decrypt/verify failed") .ok
  failWhen (x.blake3 pt != x.blake3 buf) "pt hash mismatch"
  pure ({ seq, nonce, sm, ct }, pt)

/-- `--max-duration` is checked at the start of every round, for files as well. -/
def timeUp (call : EncryptCall) (round : Nat) : Bool :=
  decide (0 < call.maxDuration) && decide (call.maxDuration.toNat ≤ call.elapsed round)

/-- The loop over the input: what its body made of the chunks until the loop ended, and how it
ended. -/
def forEachChunk {β : Type} (call : EncryptCall) (body : Nat → UInt64 → Bytes → Except String β)
    (input : Input) (round seq : Nat) : List β × Except String Unit :=
  if call.timeUp round then ([], .ok ())
  else
    match hread : input.readChunk call.chunk with
    | .error err => ([], .error err)
    | .ok (buf, rest) =>
      if hend : buf = [] then
        if hlive : input.isLiveAudio = true then
          -- live audio waits for more until its time is up
          if 0 < call.maxDuration then forEachChunk call body rest (round + 1) seq
          else ([], .ok ())
        else ([], .ok ())
      else if 2 ^ 64 ≤ seq + 1 then ([], .error "seq overflow")
      else
        match body round (UInt64.ofNat (seq + 1)) buf with
        | .error err => ([], .error err)
        | .ok made =>
          let later := forEachChunk call body rest (round + 1) (seq + 1)
          (made :: later.1, later.2)
termination_by input.remaining
decreasing_by
  · exact Input.readChunk_remaining_lt hread (Or.inr hlive)
  · exact Input.readChunk_remaining_lt hread (Or.inl hend)

end EncryptCall

/-- What the two output files hold in the end. -/
structure EncryptedFiles where
  envelope : Bytes
  plaintext : Bytes

/-- `write_stream_header`. -/
def writeStreamHeader (sh : StreamHeader) : Bytes :=
  magic ++ streamVersion :: sh.bincode

def EncryptCall.streamHeader (call : EncryptCall) : StreamHeader where
  v := streamVersion
  header := (call.header x).toBytes.val
  headerHash := call.headerHash x

/-- Encrypt mode of `main`. -/
def encryptMode (call : EncryptCall) : Except String EncryptedFiles := do
  failWhen (call.chunk == 0) "chunk must be > 0"
  failWhen (decide (2 ^ 32 - 1 < call.chunk)) "chunk too large for header"
  let (written, result) := call.forEachChunk (call.sealChunk x ec key) call.input 0 0
  result
  pure {
    envelope := writeStreamHeader (call.streamHeader x) ++ written.flatMap fun w => w.1.bincode
    plaintext := if call.noPlaintext then [] else written.flatMap Prod.snd }

end Encrypting

/-- The counters of the record loop. -/
structure StreamState where
  expectedSeq : Nat
  recordCount : Nat
  streamSizeBytes : Nat
  deriving DecidableEq

/-- What a successful call read and wrote: the header bytes, and each record with its plaintext. -/
structure DecryptedStream where
  header : Bytes
  accepted : List (Record × Bytes)
  deriving DecidableEq

/-- The output file. -/
def DecryptedStream.output (d : DecryptedStream) : Bytes :=
  d.accepted.flatMap Prod.snd

section Decrypting

variable (x : Crates) (ec : EnvelopeCrates) (key : Fixed 32)

/-- The body of the record loop. -/
def acceptRecord (fh : FileHeader) (headerHash : Digest) (st : StreamState) (r : Record) :
    Except String (Bytes × StreamState) := do
  let recordCount := st.recordCount + 1
  failWhen (decide (2 ^ 64 ≤ recordCount)) "record count overflow"
  failWhen (decide (maxRecordsPerStream < recordCount))
    ("stream exceeds maximum record count: " ++ recordCount.repr ++ " > " ++
      maxRecordsPerStream.repr)
  let ctLimit := fh.chunkSize.toNat + aesGcmTagSize
  failWhen (decide (ctLimit < r.ct.length))
    ("ciphertext size " ++ r.ct.length.repr ++ " exceeds chunk_size + tag_size (" ++
      ctLimit.repr ++ ")")
  failWhen (r.nonce.val.take 4 != fh.noncePrefix.val)
    "record nonce prefix != stream header nonce_prefix"
  failWhen (r.nonce.val.drop 4 != beBytes 8 r.seq.toNat) "record nonce counter != record seq"
  failWhen (r.seq.toNat != st.expectedSeq)
    ("non-contiguous sequence: got " ++ r.seq.toNat.repr ++ ", expected " ++ st.expectedSeq.repr)
  failWhen (decide (2 ^ 64 ≤ st.expectedSeq + 1)) "seq overflow"
  r.sm.checkSignature x
  let m ← (deserialize Manifest.get r.sm.manifest).elim (.error "manifest decode") .ok
  failWhen (r.nonce.val.take 4 != fh.noncePrefix.val)
    "record nonce prefix != stream header nonce_prefix"
  failWhen (m.headerHash != headerHash) "manifest.header_hash != stream header_hash"
  failWhen (m.keyId != fh.keyId) "manifest.key_id != header.key_id"
  failWhen (m.seq != r.seq) "manifest.seq != record.seq"
  failWhen (m.chunkLen == 0 || decide (fh.chunkSize < m.chunkLen))
    ("manifest chunk_len " ++ m.chunkLen.toNat.repr ++ " exceeds header chunk_size " ++
      fh.chunkSize.toNat.repr)
  let aad := buildAad headerHash r.seq r.nonce (x.blake3 r.sm.manifest) m.chunkLen
  let pt ← (ec.aes256GcmDecrypt key r.nonce aad r.ct).elim
    (.error "AES-GCM decrypt/verify failed") .ok
  failWhen (pt.length != m.chunkLen.toNat)
    ("decrypted length " ++ pt.length.repr ++ " != manifest chunk_len " ++ m.chunkLen.toNat.repr)
  failWhen (x.blake3 pt != m.ptHash) "pt hash mismatch"
  let streamSizeBytes := st.streamSizeBytes + pt.length
  failWhen (decide (2 ^ 64 ≤ streamSizeBytes)) "stream size overflow"
  failWhen (decide (maxStreamSizeBytes < streamSizeBytes))
    ("stream exceeds maximum size: " ++ streamSizeBytes.repr ++ " > " ++
      maxStreamSizeBytes.repr ++ " bytes")
  pure (pt, { expectedSeq := st.expectedSeq + 1, recordCount, streamSizeBytes })

/-- The record loop. The fields of a record are numbers, arrays and vectors, so the only way its
reading fails is that the input ends, and then the loop ends as well. -/
def decryptRecords (fh : FileHeader) (headerHash : Digest) (st : StreamState) (bytes : Bytes) :
    Except String (List (Record × Bytes)) :=
  match hget : Record.get bytes with
  | none => .ok []
  | some (r, rest) =>
    match acceptRecord x ec key fh headerHash st r with
    | .error err => .error err
    | .ok (pt, st') =>
      match decryptRecords fh headerHash st' rest with
      | .error err => .error err
      | .ok accepted => .ok ((r, pt) :: accepted)
termination_by bytes.length
decreasing_by exact Record.get_local.rest_lt rfl hget

def decryptEnvelope (bytes : Bytes) : Except String DecryptedStream := do
  let (found, bytes) ← (getBytes 4 bytes).elim (.error "read magic") .ok
  failWhen (found != magic) "bad magic"
  let (version, bytes) ← (getByte bytes).elim (.error "read version") .ok
  failWhen (version != streamVersion) "unsupported version"
  let (sh, bytes) ← (StreamHeader.get bytes).elim (.error "read stream header") .ok
  if hlen : sh.header.length = 66 then do
    let fh ← (FileHeader.fromBytes ⟨sh.header, hlen⟩).mapError fun _ => "failed to parse FileHeader"
    failWhen (x.blake3 sh.header != sh.headerHash) "header_hash mismatch"
    failWhen (fh.chunkSize == 0 || decide (maxChunkSize < fh.chunkSize))
      ("chunk_size " ++ fh.chunkSize.toNat.repr ++ " exceeds maximum allowed size " ++
        maxChunkSize.toNat.repr)
    let accepted ← decryptRecords x ec key fh sh.headerHash ⟨1, 0, 0⟩ bytes
    pure ⟨sh.header, accepted⟩
  else .error "bad stream header length"

end Decrypting

end Sealedge
