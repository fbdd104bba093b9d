import Mathlib.Data.Nat.Digits.Defs
import Sealedge.ConnectionLimits
import Sealedge.ReceiptText
import Sealedge.StreamRoundTrip
import Sealedge.Upload

namespace Sealedge

open Fallible Bincode PieceReader Dialogue FrameCodec

/-- A frame that arrives at once and whose answer can be sent. -/
def promptly (frame : Bytes) : Arrival where
  idle := 0
  wait := 0
  received := .frame frame
  sent := true

/-- The client has closed. -/
def closing : Arrival where
  idle := 0
  wait := 0
  received := .closed
  sent := true

/-- What the frames of a log were, as arrivals. -/
def arrivalsOf (log : List (Bytes × Reply)) : List Arrival :=
  log.map fun entry => promptly entry.1

section Frames

variable {x : Crates} {ec : EnvelopeCrates} {u : UploadCall} {key : Fixed 32}

theorem UploadCall.networkChunk_eq_ok {seq : Nat} {pt : Bytes} {chunk : NetworkChunk} :
    u.networkChunk x ec key seq pt = .ok chunk ↔
      ∃ ct, ec.aes256GcmEncrypt key (recordNonce u.noncePrefix (UInt64.ofNat seq)) (u.aad x seq pt)
          pt = some ct ∧
        chunk = {
          sequence := UInt64.ofNat seq
          data := ct
          manifest := (u.signedManifest x seq pt).bincode
          nonce := recordNonce u.noncePrefix (UInt64.ofNat seq)
          timestamp := u.timestamp seq } := by
  simp only [networkChunk, bind_eq_ok, elim_eq_ok, pure, Except.pure, Except.ok.injEq,
    eq_comm (b := chunk)]

theorem NetworkChunk.deserialize_bincode {chunk : NetworkChunk}
    (hfits : chunk.bincode.length ≤ maxFrameLength) :
    deserialize NetworkChunk.get chunk.bincode = some chunk := by
  simp only [NetworkChunk.bincode, putVec, List.length_append, maxFrameLength] at hfits
  exact (chunk.reads (by omega) (by omega)).deserialize

theorem promptly_chunk {chunk : NetworkChunk} (hfits : chunk.bincode.length ≤ maxFrameLength) :
    (promptly chunk.bincode).chunk = some chunk := by
  rw [Arrival.chunk]
  exact NetworkChunk.deserialize_bincode hfits

theorem ConnectionConfig.promptly_timely (config : ConnectionConfig) {frame : Bytes}
    (hfits : frame.length ≤ maxFrameLength) : config.Timely (promptly frame) :=
  ⟨rfl, hfits, Nat.zero_le _, Nat.zero_le _⟩

theorem UploadCall.inSequence_networkChunk {seq : Nat} {pt : Bytes} {chunk : NetworkChunk}
    {chunks : List NetworkChunk} (h : u.networkChunk x ec key seq pt = .ok chunk)
    (hchunks : InSequence chunks) (hagree : ∀ c ∈ chunks, c.noncePrefix = u.noncePrefix.val)
    (hseq : seq = chunks.length + 1) (hbound : seq < 2 ^ 64) :
    chunk.noncePrefix = u.noncePrefix.val ∧ InSequence (chunks ++ [chunk]) := by
  obtain ⟨ct, -, rfl⟩ := networkChunk_eq_ok.mp h
  have hown : (u.noncePrefix.val ++ beBytes 8 (UInt64.ofNat seq).toNat).take 4 =
      u.noncePrefix.val := List.take_left' u.noncePrefix.property
  refine ⟨hown, inSequence_concat.mpr ⟨hchunks, ?_, ?_⟩⟩
  · show (UInt64.ofNat seq).toNat = chunks.length + 1
    rw [UInt64.toNat_ofNat', Nat.mod_eq_of_lt hbound, hseq]
  · intro first hfirst
    exact hown.trans (hagree first (List.mem_of_head? hfirst)).symm

end Frames

section Answers

variable (config : ConnectionConfig) (keyedHash : Bytes → Bytes → Bytes)
  {session next : ProcessingSession}

theorem createSecureAck_length (session : ProcessingSession) (ackMsg : String) :
    (createSecureAck keyedHash session ackMsg).length ≤ ackMsg.length + 21 := by
  rw [createSecureAck]
  split
  next sessionId hid =>
    have hmac : ∀ mac : Bytes, (Numerals.hexEncode (mac.take 8)).length ≤ 16 := by
      intro mac
      have hhex := Numerals.hexEncode_length (mac.take 8)
      have htake := List.length_take_le 8 mac
      rw [String.length_toList] at hhex
      omega
    have hcode := hmac (keyedHash (sessionId.val ++ sessionId.val)
      (intoBytes (Numerals.hexEncode sessionId.val ++ ":" ++ ackMsg)))
    have hlabel : ":MAC:".length = 5 := rfl
    rw [String.length_append, String.length_append, hlabel]
    omega
  next => omega

theorem answerFrame_next {chunks : List NetworkChunk} {chunk : NetworkChunk} {frame : Bytes}
    (hs : StreamAfter chunks session) (hchunks : InSequence chunks)
    (hread : deserialize NetworkChunk.get frame = some chunk)
    (hnext : InSequence (chunks ++ [chunk])) :
    ∃ text next, config.answerFrame keyedHash (session.track frame) frame =
      (.acknowledged text, next) ∧ (intoBytes text).length ≤ maxFrameLength := by
  have htrack : StreamAfter chunks (session.track frame) :=
    ⟨hs.expected, hs.header, hs.locked, hs.verified⟩
  have hok := (processChunkHardened_eq_ok htrack hchunks).mpr ⟨hnext, rfl, rfl⟩
  rw [ConnectionConfig.answerFrame, hread]
  simp only [hok]
  refine ⟨_, _, rfl, ?_⟩
  have hnumber : chunk.sequence.toNat.repr.length ≤ 20 := by
    have hlt := chunk.sequence.toNat_lt
    exact Nat.repr_length _ _ (by omega) (by omega)
  have hack : ("ACK " ++ chunk.sequence.toNat.repr).length ≤ 24 := by
    have hlabel : "ACK ".length = 4 := rfl
    rw [String.length_append, hlabel]
    omega
  have hshort : ∀ s : String, s.length ≤ 45 → (intoBytes s).length ≤ maxFrameLength := by
    intro s hlength
    have hbytes := intoBytes_length_le s
    simp only [maxFrameLength]
    omega
  split
  next =>
    apply hshort
    exact (createSecureAck_length keyedHash _ _).trans (Nat.add_le_add_right hack 21)
  next =>
    apply hshort
    omega

end Answers

section Exchange

variable (x : Crates) (ec : EnvelopeCrates) (u : UploadCall) (key : Fixed 32)
  (config : ConnectionConfig) (keyedHash : Bytes → Bytes → Bytes)

/-- The frame for the chunk `seq`, or the error with which the client gives up. -/
def UploadCall.frame (seq : Nat) (pt : Bytes) : Except String Bytes := do
  let chunk ← u.networkChunk x ec key seq pt
  failWhen (decide (maxFrameLength < chunk.bincode.length)) frameTooBig
  pure chunk.bincode

variable {x ec u key config keyedHash}

theorem UploadCall.frame_eq_ok {seq : Nat} {pt frame : Bytes} :
    u.frame x ec key seq pt = .ok frame ↔ ∃ chunk, u.networkChunk x ec key seq pt = .ok chunk ∧
      chunk.bincode.length ≤ maxFrameLength ∧ frame = chunk.bincode := by
  simp only [UploadCall.frame, bind_eq_ok, failWhen_eq_ok, exists_const,
    decide_eq_false_iff_not, Nat.not_lt, pure, Except.pure, Except.ok.injEq, eq_comm (b := frame)]

namespace UploadCall

/-- The two programs without authentication. -/
abbrev sender (u : UploadCall) (x : Crates) (ec : EnvelopeCrates) :
    Peer (Framing ClientState) (Except String Unit) :=
  framed maxFrameLength (u.act x ec)

end UploadCall

abbrev ConnectionConfig.receiver (config : ConnectionConfig) (keyedHash : Bytes → Bytes → Bytes) :
    Peer (Framing ServerState) (List (Bytes × Reply) × Except String Unit) :=
  framed maxFrameLength (config.act keyedHash)

section Turns

variable {source rest : UploadSource} {seq : Nat} {pt : Bytes} {session next : ProcessingSession}
  {log : List (Bytes × Reply)} {toLeft toRight : List UInt8}

/-- Once the client has returned, the server finds the connection closed or a limit passed. -/
theorem endsWith_of_returned {s : Framing ClientState} {r : Except String Unit}
    (h : u.sender x ec s = .done r) :
    EndsWith (u.sender x ec) (config.receiver keyedHash) ⟨s, [], .ready (.serving session log), []⟩
      r (log, config.checkLimits session) := by
  cases hlimits : config.checkLimits session with
  | error e =>
    refine endsWith_of_reaches .refl h (framed_done ?_)
    rw [ConnectionConfig.act, hlimits]
  | ok done =>
    have hclosed : (u.sender x ec s).returned = true := by rw [h, Act.returned]
    have hact := ConnectionConfig.act_serving keyedHash hlimits log
    exact endsWith_of_reaches (reaches_right_closed hact hclosed) h (framed_done rfl)

theorem act_sending {chunk : NetworkChunk} (hnext : source.next u.chunkSize seq = some (pt, rest))
    (hchunk : u.networkChunk x ec key seq pt = .ok chunk) :
    u.act x ec (.sending key source seq) = .send chunk.bincode (.awaiting key rest seq)
      (.finished (.error frameTooBig)) := by
  rw [UploadCall.act, hnext]
  simp only [hchunk]

theorem endsWith_unsendable {e : String} (hnext : source.next u.chunkSize seq = some (pt, rest))
    (hframe : u.frame x ec key seq pt = .error e) :
    EndsWith (u.sender x ec) (config.receiver keyedHash)
      ⟨.ready (.sending key source seq), [], .ready (.serving session log), []⟩ (.error e)
      (log, config.checkLimits session) := by
  cases hchunk : u.networkChunk x ec key seq pt with
  | error e' =>
    rw [UploadCall.frame, hchunk] at hframe
    obtain rfl : e' = e := Except.error.inj hframe
    refine endsWith_of_returned (framed_done ?_)
    rw [UploadCall.act, hnext]
    simp only [hchunk]
  | ok chunk =>
    have hbig : maxFrameLength < chunk.bincode.length := by
      by_contra hfits
      have hok : u.frame x ec key seq pt = .ok chunk.bincode :=
        UploadCall.frame_eq_ok.mpr ⟨chunk, hchunk, Nat.not_lt.mp hfits, rfl⟩
      rw [hok] at hframe
      contradiction
    have herror : frameTooBig = e := by
      have hfail : u.frame x ec key seq pt =
          failWhen (decide (maxFrameLength < chunk.bincode.length)) frameTooBig >>= fun _ =>
            pure chunk.bincode := by
        rw [UploadCall.frame, hchunk]
        rfl
      rw [hfail, decide_eq_true hbig] at hframe
      exact Except.error.inj hframe
    rw [← herror]
    have hact := act_sending hnext hchunk
    refine EndsWith.of_reaches ?_ ((goes_tooBig hact hbig).turn_left _)
    exact endsWith_of_returned (framed_done rfl)

/-- The server has returned before it reads the frame. -/
theorem endsWith_limited {chunk : NetworkChunk} {e : String}
    (hnext : source.next u.chunkSize seq = some (pt, rest))
    (hchunk : u.networkChunk x ec key seq pt = .ok chunk)
    (hfits : chunk.bincode.length ≤ maxFrameLength)
    (hlimits : config.checkLimits session = .error e) :
    EndsWith (u.sender x ec) (config.receiver keyedHash)
      ⟨.ready (.sending key source seq), [], .ready (.serving session log), []⟩
      (.error "Failed to read ACK: Connection closed while waiting for ACK") (log, .error e) := by
  have hserver : config.receiver keyedHash (.ready (.serving session log)) =
      .done (log, .error e) := framed_done (by rw [ConnectionConfig.act, hlimits])
  have hclosed : (config.receiver keyedHash (.ready (.serving session log))).returned = true := by
    rw [hserver, Act.returned]
  have hsent := goes_sendFrame (act_sending hnext hchunk) hfits
  refine EndsWith.of_reaches ?_ (hsent.turn_left _)
  exact endsWith_of_reaches (reaches_left_closed rfl hclosed) (framed_done rfl) hserver

theorem goes_acknowledge {frame : Bytes} {text : String}
    (hlimits : config.checkLimits session = .ok ())
    (hanswer : config.answerFrame keyedHash (session.track frame) frame =
      (.acknowledged text, next))
    (hfits : frame.length ≤ maxFrameLength) (htext : (intoBytes text).length ≤ maxFrameLength) :
    Goes (config.receiver keyedHash) (.ready (.serving session log)) (encode frame)
      (encode (intoBytes text))
      (.ready (.serving next (log ++ [(frame, .acknowledged text)]))) := by
  have hreceive := goes_receiveFrame (ConnectionConfig.act_serving keyedHash hlimits log) hfits
    (by decide)
  rw [ConnectionConfig.onFrame, hanswer] at hreceive
  have hsend := hreceive.trans (goes_sendFrame rfl htext)
  rwa [List.append_nil, List.nil_append] at hsend

theorem goes_acknowledged {text : String} (htext : (intoBytes text).length ≤ maxFrameLength) :
    Goes (u.sender x ec) (.ready (.awaiting key source seq)) (encode (intoBytes text)) []
      (.ready (.sending key source (seq + 1))) := by
  have hreceive := goes_receiveFrame (p := u.act x ec) (s := .awaiting key source seq) rfl htext
    (by decide)
  rwa [utf8Decode_intoBytes] at hreceive

end Turns

/-- The session behind an acknowledgement has the frame among what it served. -/
theorem sessionAfter_acknowledged {before : List Arrival} {session next : ProcessingSession}
    {a : Arrival} {text : String} (hs : SessionAfter before session)
    (hserved : config.Served before) (htimely : config.Timely a)
    (h : config.answerFrame keyedHash (session.track a.frame) a.frame =
      (.acknowledged text, next)) : SessionAfter (before ++ [a]) next := by
  rcases ConnectionConfig.answerFrame_served keyedHash hs hserved htimely with
    ⟨reply, after, hanswer, hafter, -⟩ | ⟨refusal, after, hanswer, -⟩
  · obtain ⟨-, rfl⟩ := Prod.mk.inj (hanswer.symm.trans h)
    exact hafter
  · obtain ⟨hreply, -⟩ := Prod.mk.inj (hanswer.symm.trans h)
    contradiction

/-- The server has served these frames of the call, and the chunk `seq` is the next one. -/
structure UploadedTo (u : UploadCall) (config : ConnectionConfig) (before : List Arrival)
    (session : ProcessingSession) (seq : Nat) : Prop where
  session : SessionAfter before session
  served : config.Served before
  ownPrefix : ∀ c ∈ chunksOf before, c.noncePrefix = u.noncePrefix.val
  next : seq = (chunksOf before).length + 1

variable (keyedHash) in
theorem UploadedTo.acknowledged {before : List Arrival} {session : ProcessingSession} {seq : Nat}
    {pt : Bytes} {chunk : NetworkChunk} (h : UploadedTo u config before session seq)
    (hchunk : u.networkChunk x ec key seq pt = .ok chunk)
    (hfits : chunk.bincode.length ≤ maxFrameLength) (hbound : seq < 2 ^ 64) :
    ∃ text next, config.answerFrame keyedHash (session.track chunk.bincode) chunk.bincode =
        (.acknowledged text, next) ∧ (intoBytes text).length ≤ maxFrameLength ∧
      UploadedTo u config (before ++ [promptly chunk.bincode]) next (seq + 1) := by
  have hserved := h.served
  have htimely := config.promptly_timely hfits
  obtain ⟨hown, hsequence⟩ := UploadCall.inSequence_networkChunk hchunk hserved.2 h.ownPrefix
    h.next hbound
  obtain ⟨text, next, hanswer, htext⟩ := answerFrame_next config keyedHash
    h.session.toStreamAfter hserved.2
    (NetworkChunk.deserialize_bincode hfits) hsequence
  have hchunks : chunksOf (before ++ [promptly chunk.bincode]) = chunksOf before ++ [chunk] := by
    rw [chunksOf_append, chunksOf_singleton, promptly_chunk hfits, Option.toList_some]
  refine ⟨text, next, hanswer, htext, ?_, ?_, ?_, ?_⟩
  · exact sessionAfter_acknowledged h.session hserved htimely hanswer
  · refine ConnectionConfig.served_concat.mpr ⟨hserved, htimely, ?_⟩
    intro c hc
    rw [promptly_chunk hfits] at hc
    exact ⟨rfl, Option.some.inj hc ▸ hsequence⟩
  · rw [hchunks]
    intro c hc
    rcases List.mem_append.mp hc with hold | hnew
    · exact h.ownPrefix c hold
    · rw [List.mem_singleton.mp hnew]
      exact hown
  · rw [hchunks, List.length_append, List.length_singleton, ← h.next]

/-- What comes of so many chunks behind what the server has served: what the client returns, what
the server logs and what it returns. -/
structure Transferred (config : ConnectionConfig) (before : List Arrival) (count : Nat)
    (r : Except String Unit) (later : List (Bytes × Reply)) (result : Except String Unit) :
    Prop where
  acknowledged : ∀ entry ∈ later, ∃ text, entry.2 = .acknowledged text
  ok_iff : r = .ok () ↔ later.length = count
  result_iff : result = .ok () ↔ config.LimitsAllow (before ++ arrivalsOf later)

namespace Transferred

variable {before : List Arrival} {count : Nat} {r result : Except String Unit}
  {later : List (Bytes × Reply)}

theorem nothing {session : ProcessingSession} (hs : SessionAfter before session)
    (hr : r = .ok () ↔ 0 = count) :
    Transferred config before count r [] (config.checkLimits session) := by
  refine ⟨fun _ h => absurd h List.not_mem_nil, hr, ?_⟩
  rw [arrivalsOf, List.map_nil, List.append_nil]
  exact ConnectionConfig.checkLimits_eq_ok hs

theorem cons {frame : Bytes} {text : String}
    (h : Transferred config (before ++ [promptly frame]) count r later result) :
    Transferred config before (count + 1) r ((frame, .acknowledged text) :: later) result := by
  refine ⟨List.forall_mem_cons.mpr ⟨⟨text, rfl⟩, h.acknowledged⟩, ?_, ?_⟩
  · rw [List.length_cons, Nat.add_right_cancel_iff]
    exact h.ok_iff
  · rw [h.result_iff, List.append_assoc, List.singleton_append]
    rfl

end Transferred

variable (x ec key keyedHash) in
/-- The two programs end in one way, in whatever order they take their steps. -/
theorem upload_transfers {source : UploadSource} {session : ProcessingSession} {seq : Nat}
    {pts : List Bytes} {before : List Arrival}
    (hpts : source.plaintexts u.chunkSize seq = pts) (hto : UploadedTo u config before session seq)
    (hcount : seq + pts.length ≤ 2 ^ 64) (log : List (Bytes × Reply)) :
    ∃ r later result, Transferred config before pts.length r later result ∧
      EndsWith (u.sender x ec) (config.receiver keyedHash)
        ⟨.ready (.sending key source seq), [], .ready (.serving session log), []⟩ r
        (log ++ later, result) := by
  induction pts generalizing source session seq before log with
  | nil =>
    have hnext : source.next u.chunkSize seq = none := by
      cases hnext : source.next u.chunkSize seq with
      | none => rfl
      | some more =>
        rw [UploadSource.plaintexts_cons hnext] at hpts
        contradiction
    refine ⟨.ok (), [], _, .nothing hto.session (by simp), ?_⟩
    rw [List.append_nil]
    refine endsWith_of_returned (framed_done ?_)
    rw [UploadCall.act, hnext]
  | cons pt pts ih =>
    rw [List.length_cons] at hcount
    cases hnext : source.next u.chunkSize seq with
    | none =>
      rw [UploadSource.plaintexts_nil hnext] at hpts
      contradiction
    | some more =>
      obtain ⟨pt', rest⟩ := more
      rw [UploadSource.plaintexts_cons hnext] at hpts
      obtain ⟨rfl, hrest⟩ := List.cons.inj hpts
      cases hframe : u.frame x ec key seq pt' with
      | error e =>
        refine ⟨.error e, [], _, .nothing hto.session (by simp), ?_⟩
        rw [List.append_nil]
        exact endsWith_unsendable hnext hframe
      | ok frame =>
        obtain ⟨chunk, hchunk, hfits, rfl⟩ := UploadCall.frame_eq_ok.mp hframe
        cases hlimits : config.checkLimits session with
        | error e =>
          refine ⟨.error "Failed to read ACK: Connection closed while waiting for ACK", [], _,
            .nothing hto.session (by simp), ?_⟩
          rw [List.append_nil, hlimits]
          exact endsWith_limited hnext hchunk hfits hlimits
        | ok done =>
          obtain ⟨text, next, hanswer, htext, hnextTo⟩ := hto.acknowledged keyedHash hchunk hfits
            (by omega)
          obtain ⟨r, later, result, htransfer, hends⟩ :=
            ih hrest hnextTo (by omega) (log ++ [(chunk.bincode, .acknowledged text)])
          refine ⟨r, (chunk.bincode, .acknowledged text) :: later, result, htransfer.cons, ?_⟩
          rw [List.append_assoc, List.singleton_append] at hends
          refine hends.of_reaches ?_
          have hsent := goes_sendFrame (act_sending hnext hchunk) hfits
          refine (hsent.turn_left _).trans ?_
          refine ((goes_acknowledge hlimits hanswer hfits htext).turn_right _).trans ?_
          exact (goes_acknowledged htext).turn_left _

end Exchange

end Sealedge
