import Sealedge.AuthProtocol

namespace Sealedge

open Fallible Bincode Numerals

/-- Switches and limits of a connection; a limit of zero is none. -/
structure ConnectionConfig where
  outputDir : Option String
  decrypt : Bool
  requireAuth : Bool
  sessionManager : Option SessionManager
  maxConnectionBytes : Nat
  maxConnectionChunks : Nat
  connectionTimeoutSecs : Nat
  secureAcks : Bool

/-- What the server keeps of a connection. Its counters, and the limits above, are `u64` in the
source: they are the same numbers as long as a connection carries less than `2 ^ 64` bytes. -/
structure ProcessingSession where
  connectionId : Nat
  outputFile : Option String
  expectedSeqNext : Nat
  streamNoncePrefix : Option Bytes
  headerVerified : Bool
  headerLocked : Bool
  authenticated : Bool
  sessionId : Option (Fixed 16)
  clientIdentity : Option String
  sessionKey : Option (Fixed 32)
  bytesReceived : Nat
  chunksReceived : Nat

/-- The session that `main` makes for a new connection. -/
def ProcessingSession.new (connectionId : Nat) (requireAuth : Bool) : ProcessingSession where
  connectionId
  outputFile := none
  expectedSeqNext := 1
  streamNoncePrefix := none
  headerVerified := false
  headerLocked := false
  authenticated := !requireAuth
  sessionId := none
  clientIdentity := none
  sessionKey := none
  bytesReceived := 0
  chunksReceived := 0

/-- The codec's `max_frame_length`. -/
def maxFrameLength : Nat := 16 * 1024 * 1024

/-- What the framed transport delivers next. -/
inductive Received
  | frame (bytes : Bytes)
  | broken (text : String)
  | closed

/-- One turn of the loop from outside: the time since the last frame and the wait for the next
one in nanoseconds, what comes, and whether the answer to it can be sent. -/
structure Arrival where
  idle : Nat
  wait : Nat
  received : Received
  sent : Bool

/-- What happens on a connection outside the handler. -/
structure Connection where
  peerAddr : Except String String
  serverAuthenticate : SessionManager → Except String SessionInfo
  createFile : String → Except String Unit
  arrivals : List Arrival

/-- What becomes of a frame that was received. -/
inductive Reply
  | skipped
  | acknowledged (text : String)
  | refused (text : String)
  | unsent (text : String)
  deriving DecidableEq

def NetworkChunk.noncePrefix (chunk : NetworkChunk) : Bytes :=
  chunk.nonce.val.take 4

/-- The stream's header: locked by the first chunk and compared with every later one. -/
def ProcessingSession.lockHeader (session : ProcessingSession) (chunkNoncePrefix : Bytes) :
    Except String ProcessingSession :=
  if !session.headerLocked then
    if !session.headerVerified then
      .ok { session with
        streamNoncePrefix := some chunkNoncePrefix
        headerVerified := true
        headerLocked := true }
    else .ok session
  else
    match session.streamNoncePrefix with
    | some expectedPrefix => do
      failWhen (chunkNoncePrefix != expectedPrefix)
        "Nonce prefix mismatch - stream header locked, renegotiation rejected"
      pure session
    | none => .ok session

def processChunkHardened (session : ProcessingSession) (chunk : NetworkChunk) :
    Except String (String × ProcessingSession) := do
  let session ← session.lockHeader chunk.noncePrefix
  failWhen (chunk.sequence.toNat != session.expectedSeqNext)
    ("Sequence mismatch: got " ++ chunk.sequence.toNat.repr ++ ", expected " ++
      session.expectedSeqNext.repr)
  pure ("ACK " ++ chunk.sequence.toNat.repr,
    { session with expectedSeqNext := session.expectedSeqNext + 1 })

/-- The acknowledgement with a code under the session's id; `keyedHash` is
`blake3::keyed_hash`. -/
def createSecureAck (keyedHash : Bytes → Bytes → Bytes) (session : ProcessingSession)
    (ackMsg : String) : String :=
  match session.sessionId with
  | some sessionId =>
    let macInput := hexEncode sessionId.val ++ ":" ++ ackMsg
    let mac := keyedHash (sessionId.val ++ sessionId.val) (intoBytes macInput)
    ackMsg ++ ":MAC:" ++ hexEncode (mac.take 8)
  | none => ackMsg

/-- `Debug` of a duration in whole seconds. -/
def durationDebug (secs : Nat) : String :=
  if secs = 0 then "0ns" else secs.repr ++ "s"

/-- The counters after a frame. -/
def ProcessingSession.track (session : ProcessingSession) (frame : Bytes) : ProcessingSession :=
  { session with
    bytesReceived := session.bytesReceived + frame.length
    chunksReceived := session.chunksReceived + 1 }

namespace ConnectionConfig

variable (config : ConnectionConfig)

/-- The client's authentication, where it is required. -/
def authenticate (c : Connection) (session : ProcessingSession) :
    Except String ProcessingSession :=
  if config.requireAuth then
    match config.sessionManager with
    | some mgr =>
      match c.serverAuthenticate mgr with
      | .ok authSession => .ok { session with
          authenticated := true
          sessionId := some authSession.sessionId
          clientIdentity := authSession.clientIdentity
          sessionKey := some authSession.sessionKey }
      | .error e => .error ("Authentication failed: " ++ e)
    | none => .error "Authentication required but no session manager available"
  else .ok session

/-- The output file of a connection that decrypts. -/
def createOutput (c : Connection) (session : ProcessingSession) :
    Except String ProcessingSession :=
  if config.decrypt then
    match config.outputDir with
    | some dir =>
      let filepath := dir ++ "/conn" ++ session.connectionId.repr ++ "_decrypted.bin"
      match c.createFile filepath with
      | .ok _ => .ok { session with outputFile := some filepath }
      | .error e => .error ("Failed to create output file: " ++ e)
    | none => .ok session
  else .ok session

/-- What comes before the loop. -/
def openConnection (c : Connection) (session : ProcessingSession) :
    Except String ProcessingSession := do
  let _ ← c.peerAddr.mapError fun e => "Failed to get peer address: " ++ e
  let session ← config.authenticate c session
  config.createOutput c session

def checkLimits (session : ProcessingSession) : Except String Unit := do
  failWhen (decide (0 < config.maxConnectionBytes) &&
      decide (config.maxConnectionBytes < session.bytesReceived))
    ("Connection #" ++ session.connectionId.repr ++ " exceeded byte limit: " ++
      session.bytesReceived.repr ++ " bytes (max: " ++ config.maxConnectionBytes.repr ++ ")")
  failWhen (decide (0 < config.maxConnectionChunks) &&
      decide (config.maxConnectionChunks < session.chunksReceived))
    ("Connection #" ++ session.connectionId.repr ++ " exceeded chunk limit: " ++
      session.chunksReceived.repr ++ " chunks (max: " ++ config.maxConnectionChunks.repr ++ ")")

def connectionTimeout : Nat := config.connectionTimeoutSecs * 1000000000

/-- The turn of the loop up to a frame; no frame when the client has closed. -/
def receiveFrame (session : ProcessingSession) (a : Arrival) : Except String (Option Bytes) := do
  config.checkLimits session
  failWhen (decide (config.connectionTimeout < a.idle))
    ("Connection #" ++ session.connectionId.repr ++ " idle timeout: " ++
      durationDebug config.connectionTimeoutSecs)
  failWhen (decide (config.connectionTimeout < a.wait))
    ("Connection #" ++ session.connectionId.repr ++ " read timeout")
  match a.received with
  | .frame bytes => do
    failWhen (decide (maxFrameLength < bytes.length)) "Frame decode error: frame size too big"
    pure (some bytes)
  | .broken e => .error ("Frame decode error: " ++ e)
  | .closed => pure none

/-- What a frame that was counted is answered with. A frame that is no chunk has no answer. -/
def answerFrame (keyedHash : Bytes → Bytes → Bytes) (session : ProcessingSession)
    (frame : Bytes) : Reply × ProcessingSession :=
  match deserialize NetworkChunk.get frame with
  | none => (.skipped, session)
  | some chunk =>
    match processChunkHardened session chunk with
    | .ok (ackMsg, session) =>
      (.acknowledged (if config.secureAcks then createSecureAck keyedHash session ackMsg
        else ackMsg), session)
    | .error e => (.refused ("ERROR: " ++ e), session)

/-- The loop: a reply for each frame received, and how the loop ends. When nothing more arrives
the wait for a frame runs out. -/
def serveFrames (keyedHash : Bytes → Bytes → Bytes) :
    ProcessingSession → List Arrival → List Reply × Except String Unit
  | session, [] => ([], do
      config.checkLimits session
      .error ("Connection #" ++ session.connectionId.repr ++ " read timeout"))
  | session, a :: rest =>
    match config.receiveFrame session a with
    | .error e => ([], .error e)
    | .ok none => ([], .ok ())
    | .ok (some frame) =>
      match config.answerFrame keyedHash (session.track frame) frame with
      | (.acknowledged text, next) =>
        if a.sent then
          let (replies, result) := serveFrames keyedHash next rest
          (.acknowledged text :: replies, result)
        else ([.unsent text], .ok ())
      | (.skipped, next) =>
        let (replies, result) := serveFrames keyedHash next rest
        (.skipped :: replies, result)
      | (reply, _) => ([reply], .ok ())

def handleHardenedConnection (keyedHash : Bytes → Bytes → Bytes) (c : Connection)
    (session : ProcessingSession) : List Reply × Except String Unit :=
  match config.openConnection c session with
  | .error e => ([], .error e)
  | .ok session => config.serveFrames keyedHash session c.arrivals

end ConnectionConfig

/-- The frame of an arrival. -/
def Arrival.frame (a : Arrival) : Bytes :=
  match a.received with
  | .frame bytes => bytes
  | _ => []

def Arrival.isFrame (a : Arrival) : Bool :=
  match a.received with
  | .frame _ => true
  | _ => false

/-- The chunk that an arrival carries, if its frame is one. -/
def Arrival.chunk (a : Arrival) : Option NetworkChunk :=
  if a.isFrame then deserialize NetworkChunk.get a.frame else none

def totalLength : List Arrival → Nat
  | [] => 0
  | a :: rest => a.frame.length + totalLength rest

def chunksOf (arrivals : List Arrival) : List NetworkChunk :=
  arrivals.filterMap Arrival.chunk

/-- The chunks are numbered from one on and agree in the nonce prefix of the first. -/
def InSequence (chunks : List NetworkChunk) : Prop :=
  ∀ i chunk, chunks[i]? = some chunk → chunk.sequence.toNat = i + 1 ∧
    ∀ first, chunks.head? = some first → chunk.noncePrefix = first.noncePrefix

namespace ConnectionConfig

variable (config : ConnectionConfig)

/-- The frame arrives whole and in time. -/
def Timely (a : Arrival) : Prop :=
  a.isFrame = true ∧ a.frame.length ≤ maxFrameLength ∧ a.idle ≤ config.connectionTimeout ∧
    a.wait ≤ config.connectionTimeout

/-- The arrivals are frames in time, the chunks among them come in sequence, and every answer to
one of them can be sent. -/
def Served (arrivals : List Arrival) : Prop :=
  (∀ a ∈ arrivals, config.Timely a ∧ (a.chunk.isSome = true → a.sent = true)) ∧
    InSequence (chunksOf arrivals)

/-- The counters after these arrivals are within the limits. -/
def LimitsAllow (arrivals : List Arrival) : Prop :=
  (0 < config.maxConnectionBytes → totalLength arrivals ≤ config.maxConnectionBytes) ∧
    (0 < config.maxConnectionChunks → arrivals.length ≤ config.maxConnectionChunks)

end ConnectionConfig

theorem totalLength_append (l₁ l₂ : List Arrival) :
    totalLength (l₁ ++ l₂) = totalLength l₁ + totalLength l₂ := by
  induction l₁ with
  | nil => exact (Nat.zero_add _).symm
  | cons a rest ih =>
    rw [List.cons_append, totalLength, totalLength, ih, Nat.add_assoc]

theorem totalLength_singleton (a : Arrival) : totalLength [a] = a.frame.length := by
  simp [totalLength]

theorem chunksOf_append (l₁ l₂ : List Arrival) :
    chunksOf (l₁ ++ l₂) = chunksOf l₁ ++ chunksOf l₂ :=
  List.filterMap_append

theorem chunksOf_singleton (a : Arrival) : chunksOf [a] = a.chunk.toList := by
  cases h : a.chunk with
  | none => simp [chunksOf, h]
  | some chunk => simp [chunksOf, h]

theorem InSequence.of_append {l₁ l₂ : List NetworkChunk} (h : InSequence (l₁ ++ l₂)) :
    InSequence l₁ := by
  intro i chunk hchunk
  have hlt : i < l₁.length := (List.getElem?_eq_some_iff.mp hchunk).1
  have hi := h i chunk (by rw [List.getElem?_append_left hlt, hchunk])
  refine ⟨hi.1, fun first hfirst => hi.2 first ?_⟩
  rw [List.head?_append, hfirst]
  rfl

/-- One more chunk in sequence: its number follows, and its prefix is that of the first. -/
theorem inSequence_concat {chunks : List NetworkChunk} {chunk : NetworkChunk} :
    InSequence (chunks ++ [chunk]) ↔ InSequence chunks ∧
      chunk.sequence.toNat = chunks.length + 1 ∧
      ∀ first, chunks.head? = some first → chunk.noncePrefix = first.noncePrefix := by
  have hhead : ∀ first, chunks.head? = some first → (chunks ++ [chunk]).head? = some first := by
    intro first hfirst
    rw [List.head?_append, hfirst]
    rfl
  constructor
  · intro h
    have hlast := h chunks.length chunk (by simp)
    exact ⟨h.of_append, hlast.1, fun first hfirst => hlast.2 first (hhead first hfirst)⟩
  · rintro ⟨hchunks, hnumber, hlocked⟩ i c hc
    have hagree : ∀ c first, c ∈ chunks ∨ c = chunk → (chunks ++ [chunk]).head? = some first →
        c.noncePrefix = first.noncePrefix := by
      intro c first hc hfirst
      cases hcs : chunks.head? with
      | none =>
        have hnil : chunks = [] := List.head?_eq_none_iff.mp hcs
        subst hnil
        simp only [List.not_mem_nil, false_or] at hc
        simp only [List.nil_append, List.head?_cons, Option.some.injEq] at hfirst
        rw [hc, hfirst]
      | some f =>
        have hf : f = first := by
          rw [hhead f hcs] at hfirst
          exact Option.some.inj hfirst
        subst hf
        rcases hc with hmem | rfl
        · obtain ⟨j, hj⟩ := List.getElem?_of_mem hmem
          exact (hchunks j c hj).2 f hcs
        · exact hlocked f hcs
    by_cases hlt : i < chunks.length
    · rw [List.getElem?_append_left hlt] at hc
      exact ⟨(hchunks i c hc).1, fun first => hagree c first (.inl (List.mem_of_getElem? hc))⟩
    · have hi : i = chunks.length ∧ c = chunk := by
        have hbound := (List.getElem?_eq_some_iff.mp hc).1
        rw [List.length_append, List.length_singleton] at hbound
        have hi : i = chunks.length := by omega
        subst hi
        simp at hc
        exact ⟨rfl, hc.symm⟩
      obtain ⟨rfl, rfl⟩ := hi
      exact ⟨hnumber, fun first => hagree c first (.inr rfl)⟩

namespace ConnectionConfig

variable {config : ConnectionConfig}

theorem served_concat {before : List Arrival} {a : Arrival} :
    config.Served (before ++ [a]) ↔ config.Served before ∧ config.Timely a ∧
      ∀ chunk, a.chunk = some chunk → a.sent = true ∧ InSequence (chunksOf before ++ [chunk]) := by
  unfold Served
  rw [chunksOf_append, chunksOf_singleton]
  simp only [List.mem_append, List.mem_singleton, or_imp, forall_and, forall_eq]
  cases hc : a.chunk with
  | none =>
    simp only [Option.toList_none, List.append_nil, Option.isSome_none, Bool.false_eq_true,
      false_imp_iff, reduceCtorEq, implies_true, and_true]
    tauto
  | some chunk =>
    simp only [Option.toList_some, Option.isSome_some, true_imp_iff, Option.some.injEq,
      forall_eq']
    constructor
    · rintro ⟨⟨⟨h1, h2⟩, h3, h4⟩, h5⟩
      exact ⟨⟨⟨h1, h3⟩, (inSequence_concat.mp h5).1⟩, h2, h4, h5⟩
    · rintro ⟨⟨⟨h1, h3⟩, -⟩, h2, h4, h5⟩
      exact ⟨⟨⟨h1, h2⟩, h3, h4⟩, h5⟩

theorem served_of_append {l₁ l₂ : List Arrival} (h : config.Served (l₁ ++ l₂)) :
    config.Served l₁ := by
  obtain ⟨hframes, hsequence⟩ := h
  rw [chunksOf_append] at hsequence
  exact ⟨fun a ha => hframes a (List.mem_append_left _ ha), hsequence.of_append⟩

theorem limitsAllow_of_append {l₁ l₂ : List Arrival} (h : config.LimitsAllow (l₁ ++ l₂)) :
    config.LimitsAllow l₁ := by
  obtain ⟨hbytes, hchunks⟩ := h
  rw [totalLength_append] at hbytes
  rw [List.length_append] at hchunks
  refine ⟨fun hpos => ?_, fun hpos => ?_⟩
  · have := hbytes hpos
    omega
  · have := hchunks hpos
    omega

end ConnectionConfig

/-- What a session knows of the stream after these chunks. -/
structure StreamAfter (chunks : List NetworkChunk) (session : ProcessingSession) : Prop where
  expected : session.expectedSeqNext = chunks.length + 1
  header : session.streamNoncePrefix = chunks.head?.map NetworkChunk.noncePrefix
  locked : session.headerLocked = chunks.head?.isSome
  verified : session.headerVerified = session.headerLocked

/-- What a session holds after it has served these arrivals. -/
structure SessionAfter (before : List Arrival) (session : ProcessingSession) : Prop
    extends StreamAfter (chunksOf before) session where
  bytes : session.bytesReceived = totalLength before
  frames : session.chunksReceived = before.length

namespace ConnectionConfig

variable {config : ConnectionConfig} {before : List Arrival} {session : ProcessingSession}

theorem checkLimits_eq_ok (hs : SessionAfter before session) :
    config.checkLimits session = .ok () ↔ config.LimitsAllow before := by
  simp only [checkLimits, bind_eq_ok, failWhen_eq_ok, exists_const, Bool.and_eq_false_iff,
    decide_eq_false_iff_not, hs.bytes, hs.frames, LimitsAllow]
  omega

/-- A frame is taken off the transport when the limits allow one more and it is in time. -/
theorem receiveFrame_eq_ok (hs : SessionAfter before session) {a : Arrival} {frame : Bytes} :
    config.receiveFrame session a = .ok (some frame) ↔
      config.LimitsAllow before ∧ config.Timely a ∧ a.frame = frame := by
  simp only [receiveFrame, bind_eq_ok, failWhen_eq_ok, exists_const, decide_eq_false_iff_not,
    Timely, Arrival.isFrame, Arrival.frame]
  have hlimits : config.checkLimits session = .ok () ↔ config.LimitsAllow before :=
    checkLimits_eq_ok hs
  cases hr : a.received with
  | frame bytes =>
    simp only [bind_eq_ok, failWhen_eq_ok, exists_const, decide_eq_false_iff_not, pure,
      Except.pure, Except.ok.injEq, Option.some.injEq, true_and, not_lt]
    constructor
    · rintro ⟨u, hl, hidle, hwait, hlen, rfl⟩
      exact ⟨hlimits.mp hl, ⟨hlen, hidle, hwait⟩, rfl⟩
    · rintro ⟨hl, ⟨hlen, hidle, hwait⟩, rfl⟩
      exact ⟨(), hlimits.mpr hl, hidle, hwait, hlen, rfl⟩
  | broken e => simp
  | closed => simp [pure, Except.pure]

end ConnectionConfig

theorem lockHeader_eq_ok {chunks : List NetworkChunk} {session locked : ProcessingSession}
    (hs : StreamAfter chunks session) {chunkNoncePrefix : Bytes} :
    session.lockHeader chunkNoncePrefix = .ok locked ↔
      (∀ first, chunks.head? = some first → chunkNoncePrefix = first.noncePrefix) ∧
      locked = { session with
        streamNoncePrefix := some chunkNoncePrefix
        headerVerified := true
        headerLocked := true } := by
  have hlocked := hs.locked
  have hheader := hs.header
  have hverified := hs.verified
  cases hfirst : chunks.head? with
  | none =>
    rw [hfirst] at hlocked hheader
    simp only [ProcessingSession.lockHeader, hlocked, hverified, Option.isSome_none, Bool.not_false,
      if_true, Except.ok.injEq, reduceCtorEq, false_imp_iff, implies_true, true_and]
    exact eq_comm
  | some first =>
    rw [hfirst] at hlocked hheader
    simp only [ProcessingSession.lockHeader, hlocked, hheader, Option.isSome_some, Bool.not_true,
      Bool.false_eq_true, if_false, Option.map_some, bind_eq_ok, failWhen_eq_ok, exists_const,
      bne_eq_false_iff_eq, pure, Except.pure, Except.ok.injEq, Option.some.injEq, forall_eq']
    constructor
    · rintro ⟨hp, rfl⟩
      refine ⟨hp, ?_⟩
      cases session
      simp_all
    · rintro ⟨hp, rfl⟩
      refine ⟨hp, ?_⟩
      cases session
      simp_all

/-- A chunk is accepted when it is the next one of the stream, and the session moves on. -/
theorem processChunkHardened_eq_ok {chunks : List NetworkChunk} {session next : ProcessingSession}
    (hs : StreamAfter chunks session) (hchunks : InSequence chunks) {chunk : NetworkChunk}
    {ackMsg : String} : processChunkHardened session chunk = .ok (ackMsg, next) ↔
      InSequence (chunks ++ [chunk]) ∧
      ackMsg = "ACK " ++ chunk.sequence.toNat.repr ∧
      next = { session with
        streamNoncePrefix := some chunk.noncePrefix
        headerVerified := true
        headerLocked := true
        expectedSeqNext := session.expectedSeqNext + 1 } := by
  simp only [processChunkHardened, bind_eq_ok, lockHeader_eq_ok hs, failWhen_eq_ok, exists_const,
    bne_eq_false_iff_eq, pure, Except.pure, Except.ok.injEq, Prod.mk.injEq, inSequence_concat]
  constructor
  · rintro ⟨locked, ⟨hlocked, rfl⟩, hnumber, rfl, rfl⟩
    exact ⟨⟨hchunks, hnumber.trans hs.expected, hlocked⟩, rfl, rfl⟩
  · rintro ⟨⟨-, hnumber, hlocked⟩, rfl, rfl⟩
    exact ⟨_, ⟨hlocked, rfl⟩, hnumber.trans hs.expected.symm, rfl, rfl⟩

theorem StreamAfter.concat {chunks : List NetworkChunk} {session : ProcessingSession}
    (hs : StreamAfter chunks session) {chunk : NetworkChunk}
    (hnext : InSequence (chunks ++ [chunk])) :
    StreamAfter (chunks ++ [chunk]) { session with
      streamNoncePrefix := some chunk.noncePrefix
      headerVerified := true
      headerLocked := true
      expectedSeqNext := session.expectedSeqNext + 1 } := by
  obtain ⟨-, -, hlocked⟩ := inSequence_concat.mp hnext
  refine ⟨by simp [hs.expected], ?_, by simp, rfl⟩
  cases hfirst : chunks.head? with
  | none => simp [hfirst]
  | some first => simp [hfirst, hlocked first hfirst]

def Reply.isAcknowledged : Reply → Bool
  | .acknowledged _ => true
  | _ => false

/-- The frame at a place is acknowledged. -/
def Acknowledged (replies : List Reply) (i : Nat) : Prop :=
  ∃ text, replies[i]? = some (.acknowledged text)

/-- The number of chunks acknowledged. -/
def acknowledgements (replies : List Reply) : Nat :=
  replies.countP Reply.isAcknowledged

namespace ConnectionConfig

variable {config : ConnectionConfig} (keyedHash : Bytes → Bytes → Bytes) {before : List Arrival}
  {session : ProcessingSession}

theorem answerFrame_served (hs : SessionAfter before session) (hserved : config.Served before)
    {a : Arrival} (htimely : config.Timely a) :
    (∃ reply next, config.answerFrame keyedHash (session.track a.frame) a.frame = (reply, next) ∧
      SessionAfter (before ++ [a]) next ∧
      (∀ chunk, a.chunk = some chunk → InSequence (chunksOf before ++ [chunk])) ∧
      ((a.chunk = none ∧ reply = .skipped) ∨
        (a.chunk.isSome = true ∧ ∃ text, reply = .acknowledged text))) ∨
    (∃ text next, config.answerFrame keyedHash (session.track a.frame) a.frame =
        (.refused text, next) ∧
      ∃ chunk, a.chunk = some chunk ∧ ¬ InSequence (chunksOf before ++ [chunk])) := by
  have hchunk : a.chunk = deserialize NetworkChunk.get a.frame := if_pos htimely.1
  have htrack : StreamAfter (chunksOf before) (session.track a.frame) :=
    ⟨hs.expected, hs.header, hs.locked, hs.verified⟩
  have hcount : ∀ next : ProcessingSession, StreamAfter (chunksOf (before ++ [a])) next →
      next.bytesReceived = session.bytesReceived + a.frame.length →
      next.chunksReceived = session.chunksReceived + 1 → SessionAfter (before ++ [a]) next := by
    intro next hstream hbytes hframes
    refine ⟨hstream, ?_, ?_⟩
    · rw [hbytes, hs.bytes, totalLength_append, totalLength_singleton]
    · rw [hframes, hs.frames, List.length_append, List.length_singleton]
  unfold answerFrame
  rw [← hchunk]
  cases hc : a.chunk with
  | none =>
    refine .inl ⟨_, _, rfl, hcount _ ?_ rfl rfl, by simp, .inl ⟨rfl, rfl⟩⟩
    rw [chunksOf_append, chunksOf_singleton, hc, Option.toList_none, List.append_nil]
    exact htrack
  | some chunk =>
    by_cases hnext : InSequence (chunksOf before ++ [chunk])
    · have hok := (processChunkHardened_eq_ok htrack hserved.2).mpr ⟨hnext, rfl, rfl⟩
      simp only [hok]
      refine .inl ⟨_, _, rfl, hcount _ ?_ rfl rfl, by simpa using hnext, .inr ⟨rfl, _, rfl⟩⟩
      rw [chunksOf_append, chunksOf_singleton, hc, Option.toList_some]
      exact htrack.concat hnext
    · obtain ⟨e, he⟩ : ∃ e, processChunkHardened (session.track a.frame) chunk = .error e := by
        apply exists_error_of_ne_ok
        rintro ⟨ackMsg, next⟩ hok
        exact hnext ((processChunkHardened_eq_ok htrack hserved.2).mp hok).1
      simp only [he]
      exact .inr ⟨_, _, rfl, chunk, rfl, hnext⟩

/-- One turn of the loop. Either it goes on, and the frame is acknowledged when it is a chunk, or
nothing is acknowledged any more. -/
theorem serveFrames_cons (hs : SessionAfter before session) (hserved : config.Served before)
    (a : Arrival) (rest : List Arrival) :
    (config.LimitsAllow before ∧ config.Served (before ++ [a]) ∧ ∃ reply next,
      SessionAfter (before ++ [a]) next ∧ reply.isAcknowledged = a.chunk.isSome ∧
      (config.serveFrames keyedHash session (a :: rest)).1 =
        reply :: (config.serveFrames keyedHash next rest).1) ∨
    (¬ (config.LimitsAllow before ∧ config.Served (before ++ [a])) ∧
      ∀ reply ∈ (config.serveFrames keyedHash session (a :: rest)).1,
        reply.isAcknowledged = false) := by
  by_cases hr : config.LimitsAllow before ∧ config.Timely a
  · obtain ⟨hlimits, htimely⟩ := hr
    have hframe := (receiveFrame_eq_ok hs).mpr ⟨hlimits, htimely, rfl⟩
    rcases answerFrame_served keyedHash hs hserved htimely with
      ⟨reply, next, hanswer, hnext, hsequence, hreply⟩ | ⟨text, next, hanswer, chunk, hc, hnot⟩
    · rcases hreply with ⟨hc, rfl⟩ | ⟨hc, text, rfl⟩
      · refine .inl ⟨hlimits, served_concat.mpr ⟨hserved, htimely, by simp [hc]⟩, .skipped, next,
          hnext, by simp [Reply.isAcknowledged, hc], ?_⟩
        simp only [serveFrames, hframe, hanswer]
      · by_cases hsent : a.sent = true
        · refine .inl ⟨hlimits, served_concat.mpr ⟨hserved, htimely, fun chunk h =>
            ⟨hsent, hsequence chunk h⟩⟩, .acknowledged text, next, hnext, hc.symm, ?_⟩
          simp only [serveFrames, hframe, hanswer, hsent, if_true]
        · refine .inr ⟨fun h => ?_, ?_⟩
          · obtain ⟨chunk, hchunk⟩ := Option.isSome_iff_exists.mp hc
            exact hsent ((served_concat.mp h.2).2.2 chunk hchunk).1
          · simp only [serveFrames, hframe, hanswer, hsent]
            simp [Reply.isAcknowledged]
    · refine .inr ⟨fun h => ?_, ?_⟩
      · exact hnot ((served_concat.mp h.2).2.2 chunk hc).2
      · simp only [serveFrames, hframe, hanswer]
        simp [Reply.isAcknowledged]
  · refine .inr ⟨fun h => hr ⟨h.1, (served_concat.mp h.2).2.1⟩, ?_⟩
    have hnone : ∀ frame, config.receiveFrame session a ≠ .ok (some frame) := by
      intro frame h
      obtain ⟨hlimits, htimely, -⟩ := (receiveFrame_eq_ok hs).mp h
      exact hr ⟨hlimits, htimely⟩
    cases hframe : config.receiveFrame session a with
    | error e => simp [serveFrames, hframe]
    | ok received =>
      cases received with
      | none => simp [serveFrames, hframe]
      | some frame => exact absurd hframe (hnone frame)

theorem acknowledged_cons {reply : Reply} {replies : List Reply} :
    Acknowledged (reply :: replies) 0 ↔ reply.isAcknowledged = true := by
  cases reply <;> simp [Acknowledged, Reply.isAcknowledged]

theorem not_acknowledged {replies : List Reply}
    (h : ∀ reply ∈ replies, reply.isAcknowledged = false) (i : Nat) : ¬ Acknowledged replies i := by
  rintro ⟨text, htext⟩
  exact absurd (h _ (List.mem_of_getElem? htext)) (by simp [Reply.isAcknowledged])

/-- What is acknowledged was served up to there, with the limits kept before it. -/
theorem acknowledged_served (hs : SessionAfter before session) (hserved : config.Served before)
    {rest : List Arrival} {i : Nat}
    (h : Acknowledged (config.serveFrames keyedHash session rest).1 i) :
    ∃ pre a post, rest = pre ++ a :: post ∧ pre.length = i ∧ a.chunk.isSome = true ∧
      config.LimitsAllow (before ++ pre) ∧ config.Served (before ++ (pre ++ [a])) ∧
      acknowledgements ((config.serveFrames keyedHash session rest).1.take (i + 1)) =
        (chunksOf (pre ++ [a])).length := by
  induction rest generalizing before session i with
  | nil =>
    obtain ⟨text, htext⟩ := h
    simp [serveFrames] at htext
  | cons a rest ih =>
    rcases serveFrames_cons keyedHash hs hserved a rest with
      ⟨hlimits, hnextServed, reply, next, hnext, hack, hreplies⟩ | ⟨-, hnone⟩
    · rw [hreplies] at h ⊢
      cases i with
      | zero =>
        have hchunk : a.chunk.isSome = true := hack ▸ acknowledged_cons.mp h
        obtain ⟨chunk, hc⟩ := Option.isSome_iff_exists.mp hchunk
        refine ⟨[], a, rest, rfl, rfl, hchunk, by simpa using hlimits, by simpa using hnextServed,
          ?_⟩
        simp [acknowledgements, chunksOf, hc, hack]
      | succ i =>
        have hrest : Acknowledged (config.serveFrames keyedHash next rest).1 i := h
        obtain ⟨pre, b, post, rfl, rfl, hb, hl, hsv, hcount⟩ := ih hnext hnextServed hrest
        refine ⟨a :: pre, b, post, rfl, rfl, hb, by simpa using hl, by simpa using hsv, ?_⟩
        rw [acknowledgements] at hcount ⊢
        rw [List.take_succ_cons, List.countP_cons, hcount, List.cons_append, chunksOf, chunksOf,
          List.filterMap_cons, hack]
        cases a.chunk <;> simp
    · exact absurd h (not_acknowledged hnone i)

/-- Arrivals that are served, with the limits kept before the last, have it acknowledged. -/
theorem acknowledged_of_served (hs : SessionAfter before session) {pre : List Arrival} {a : Arrival}
    (hchunk : a.chunk.isSome = true) (hlimits : config.LimitsAllow (before ++ pre))
    (hserved : config.Served (before ++ (pre ++ [a]))) (post : List Arrival) :
    Acknowledged (config.serveFrames keyedHash session (pre ++ a :: post)).1 pre.length := by
  induction pre generalizing before session with
  | nil =>
    rcases serveFrames_cons keyedHash hs (served_of_append hserved) a post with
      ⟨-, -, reply, next, -, hack, hreplies⟩ | ⟨hstop, -⟩
    · rw [List.nil_append, hreplies]
      exact acknowledged_cons.mpr (hack.trans hchunk)
    · exact absurd ⟨by simpa using hlimits, hserved⟩ hstop
  | cons b pre ih =>
    have hsplit : before ++ (b :: pre ++ [a]) = (before ++ [b]) ++ (pre ++ [a]) := by simp
    have hlimits' : config.LimitsAllow ((before ++ [b]) ++ pre) := by simpa using hlimits
    rw [hsplit] at hserved
    rcases serveFrames_cons keyedHash hs (served_of_append (served_of_append hserved)) b
        (pre ++ a :: post) with ⟨-, -, reply, next, hnext, -, hreplies⟩ | ⟨hstop, -⟩
    · have htail := ih hnext hlimits' hserved
      rw [List.cons_append, hreplies]
      exact htail
    · exact absurd ⟨limitsAllow_of_append hlimits, served_of_append hserved⟩ hstop

end ConnectionConfig

end Sealedge
