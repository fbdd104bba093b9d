import Sealedge.UploadRun

namespace Sealedge

open Fallible Bincode Dialogue FrameCodec

section Client

variable (x : Crates) (ec : EnvelopeCrates) (u : UploadCall) (key : Fixed 32)

/-- The frames of the plaintexts, up to the first one that the client cannot send. -/
def UploadCall.frames : Nat → List Bytes → List Bytes
  | _, [] => []
  | seq, pt :: pts =>
    match u.frame x ec key seq pt with
    | .error _ => []
    | .ok frame => frame :: UploadCall.frames (seq + 1) pts

/-- The client has sent these frames, and the chunk `seq` is the next one. -/
structure SentTo (frames : List Bytes) (count : Nat) (source : UploadSource) (seq : Nat)
    (sent : List Bytes) : Prop where
  frames_eq : frames = sent ++ u.frames x ec key seq (source.plaintexts u.chunkSize seq)
  count_eq : sent.length + (source.plaintexts u.chunkSize seq).length = count

/-- What the client has got and sent in each of its states. -/
inductive ClientAt (frames : List Bytes) (count : Nat) :
    List Bytes → List Bytes → ClientState → Prop
  | sending {source : UploadSource} {seq : Nat} {got sent : List Bytes}
      (h : SentTo x ec u key frames count source seq sent) (hgot : got.length = sent.length) :
      ClientAt frames count got sent (.sending key source seq)
  | awaiting {source : UploadSource} {seq : Nat} {got sent : List Bytes}
      (h : SentTo x ec u key frames count source (seq + 1) sent)
      (hgot : got.length + 1 = sent.length) :
      ClientAt frames count got sent (.awaiting key source seq)
  | failed {got sent : List Bytes} (hsent : sent <+: frames) (e : String) :
      ClientAt frames count got sent (.finished (.error e))

variable {x ec u key} {frames : List Bytes} {count : Nat} {source : UploadSource} {seq : Nat}
  {got sent : List Bytes} {s : ClientState}

theorem UploadCall.frames_getElem? {pts : List Bytes} {i : Nat} {frame : Bytes}
    (h : (u.frames x ec key seq pts)[i]? = some frame) :
    ∃ pt, pts[i]? = some pt ∧ u.frame x ec key (seq + i) pt = .ok frame := by
  induction pts generalizing seq i with
  | nil => simp [frames] at h
  | cons pt pts ih =>
    rw [frames] at h
    split at h
    next => simp at h
    next first hfirst =>
      cases i with
      | zero => exact ⟨pt, rfl, by rw [Nat.add_zero, hfirst, Option.some.inj h]⟩
      | succ i =>
        obtain ⟨pt', hpt, hframe⟩ := ih h
        exact ⟨pt', hpt, by rwa [Nat.add_right_comm] at hframe⟩

theorem act_sending_eq_send {payload : Bytes} {next tooBig : ClientState}
    (h : u.act x ec (.sending key source seq) = .send payload next tooBig) :
    ∃ pt rest chunk, source.next u.chunkSize seq = some (pt, rest) ∧
      u.networkChunk x ec key seq pt = .ok chunk ∧ payload = chunk.bincode ∧
      next = .awaiting key rest seq ∧ tooBig = .finished (.error frameTooBig) := by
  rw [UploadCall.act] at h
  split at h
  next => contradiction
  next pt rest hnext =>
    split at h
    next => contradiction
    next chunk hchunk =>
      obtain ⟨rfl, rfl, rfl⟩ := FrameAct.send.inj h
      exact ⟨pt, rest, chunk, hnext, hchunk, rfl, rfl, rfl⟩

theorem act_sending_ne_receive {next : Bytes → ClientState} {closed : ClientState}
    {broken : String → ClientState} :
    u.act x ec (.sending key source seq) ≠ .receive next closed broken := by
  intro h
  rw [UploadCall.act] at h
  split at h
  next => contradiction
  next =>
    split at h
    next => contradiction
    next => contradiction

theorem SentTo.send (h : SentTo x ec u key frames count source seq sent)
    {pt : Bytes} {rest : UploadSource} {chunk : NetworkChunk}
    (hnext : source.next u.chunkSize seq = some (pt, rest))
    (hchunk : u.networkChunk x ec key seq pt = .ok chunk)
    (hfits : chunk.bincode.length ≤ maxFrameLength) :
    SentTo x ec u key frames count rest (seq + 1) (sent ++ [chunk.bincode]) := by
  have hframe : u.frame x ec key seq pt = .ok chunk.bincode :=
    UploadCall.frame_eq_ok.mpr ⟨chunk, hchunk, hfits, rfl⟩
  have hcount := h.count_eq
  have hall := h.frames_eq
  rw [UploadSource.plaintexts_cons hnext] at hcount hall
  rw [UploadCall.frames, hframe] at hall
  rw [List.length_cons] at hcount
  constructor
  · rw [hall, List.append_assoc, List.singleton_append]
  · rw [List.length_append, List.length_singleton]
    omega

theorem UploadCall.mem_upsets {closed : Bool} {s s' : ClientState}
    (h : s' ∈ u.upsets x ec closed s) : ∃ e, s' = .finished (.error e) := by
  have herrors : ∀ texts : List String,
      s' ∈ texts.map (ClientState.finished ∘ .error) → ∃ e, s' = .finished (.error e) := by
    intro texts hmem
    obtain ⟨e, -, rfl⟩ := List.mem_map.mp hmem
    exact ⟨e, rfl⟩
  unfold upsets at h
  split at h
  next =>
    split at h
    next => contradiction
    next =>
      split at h
      next => contradiction
      next => exact herrors _ h
  next => exact herrors _ h
  next => contradiction

theorem UploadCall.givesUp_error {t : ClientState} (h : GivesUp (u.act x ec) (u.upsets x ec) s t) :
    ∃ e, t = .finished (.error e) := by
  cases h with
  | upset hmem => exact mem_upsets hmem
  | tooBig hact =>
    cases s with
    | sending key source seq =>
      obtain ⟨pt, rest, chunk, -, -, -, -, rfl⟩ := act_sending_eq_send hact
      exact ⟨_, rfl⟩
    | awaiting key source seq => contradiction
    | finished result => contradiction
  | closed hact =>
    cases s with
    | sending key source seq => exact absurd hact act_sending_ne_receive
    | awaiting key source seq =>
      obtain ⟨rfl, rfl, rfl⟩ := FrameAct.receive.inj hact
      exact ⟨_, rfl⟩
    | finished result => contradiction
  | broken hact e =>
    cases s with
    | sending key source seq => exact absurd hact act_sending_ne_receive
    | awaiting key source seq =>
      obtain ⟨rfl, rfl, rfl⟩ := FrameAct.receive.inj hact
      exact ⟨_, rfl⟩
    | finished result => contradiction

theorem UploadCall.returns : Returns (u.act x ec) (u.upsets x ec) := by
  intro s t h
  obtain ⟨e, rfl⟩ := givesUp_error h
  exact ⟨⟨_, rfl⟩, fun _ => rfl⟩

theorem clientAt_of_run
    (h : FrameRun maxFrameLength (u.act x ec) (.sending key source seq) got sent s) :
    ClientAt x ec u key (u.frames x ec key seq (source.plaintexts u.chunkSize seq))
      (source.plaintexts u.chunkSize seq).length got sent s := by
  induction h with
  | start => exact .sending ⟨rfl, Nat.zero_add _⟩ rfl
  | sent _ hact hfits ih =>
    cases ih with
    | sending h hgot =>
      obtain ⟨pt, rest, chunk, hnext, hchunk, rfl, rfl, -⟩ := act_sending_eq_send hact
      refine .awaiting (h.send hnext hchunk hfits) ?_
      rw [List.length_append, List.length_singleton, hgot]
    | awaiting h hgot => contradiction
    | failed hsent e => contradiction
  | received _ hact hfits ih =>
    cases ih with
    | sending h hgot => exact absurd hact act_sending_ne_receive
    | awaiting h hgot =>
      obtain ⟨rfl, rfl, rfl⟩ := FrameAct.receive.inj hact
      dsimp only
      split
      next => exact .sending h (by rw [List.length_append, List.length_singleton, hgot])
      next => exact .failed (h.frames_eq ▸ List.prefix_append _ _) _
    | failed hsent e => contradiction

theorem ClientAt.sent_prefix (h : ClientAt x ec u key frames count got sent s) :
    sent <+: frames := by
  cases h with
  | sending h hgot => exact h.frames_eq ▸ List.prefix_append _ _
  | awaiting h hgot => exact h.frames_eq ▸ List.prefix_append _ _
  | failed hsent e => exact hsent

theorem ClientAt.succeeded (h : ClientAt x ec u key frames count got sent s)
    (hdone : u.act x ec s = .done (.ok ())) : frames.length = count ∧ got.length = count := by
  cases h with
  | sending h hgot =>
    rw [UploadCall.act] at hdone
    split at hdone
    next hnext =>
      have hcount := h.count_eq
      have hframes := h.frames_eq
      rw [UploadSource.plaintexts_nil hnext] at hcount hframes
      rw [UploadCall.frames, List.append_nil] at hframes
      exact ⟨hframes ▸ hcount, hgot.trans hcount⟩
    next =>
      split at hdone
      next => simp at hdone
      next => contradiction
  | awaiting h hgot => contradiction
  | failed hsent e => simp [UploadCall.act] at hdone

end Client

section Server

variable (u : UploadCall) (config : ConnectionConfig) (keyedHash : Bytes → Bytes → Bytes)

/-- The frames that have an answer, or cannot get theirs. -/
def ServerState.log : ServerState → List (Bytes × Reply)
  | .serving _ log => log
  | .answering _ _ _ log => log
  | .refusing _ _ log => log
  | .finished log _ => log

/-- The server has acknowledged the frames of its log, which are the first ones of the call, and
has come to this session with them. -/
structure ServedTo (frames : List Bytes) (start session : ProcessingSession)
    (log : List (Bytes × Reply)) (later : List Bytes) : Prop where
  frames_eq : frames = log.map Prod.fst ++ later
  acknowledged : ∀ entry ∈ log, ∃ text, entry.2 = .acknowledged text
  uploaded : UploadedTo u config (arrivalsOf log) session (log.length + 1)
  loop : ∀ rest, config.serveFrames keyedHash start (arrivalsOf log ++ rest) =
    (log.map Prod.snd ++ (config.serveFrames keyedHash session rest).1,
      (config.serveFrames keyedHash session rest).2)

/-- The loop ends here, as with some last arrival. -/
def EndsLoop (session : ProcessingSession) (log : List (Bytes × Reply)) (s : ServerState) : Prop :=
  ∃ last result, s = .finished log result ∧
    config.serveFrames keyedHash session [last] = ([], result)

/-- What the server has got and sent in each of its states. -/
inductive ServerAt (frames : List Bytes) (start : ProcessingSession) :
    List Bytes → List Bytes → ServerState → Prop
  | serving {session : ProcessingSession} {log : List (Bytes × Reply)} {sent later : List Bytes}
      (h : ServedTo u config keyedHash frames start session log later)
      (hsent : sent.length = log.length) :
      ServerAt frames start (log.map Prod.fst) sent (.serving session log)
  | answering {session next : ProcessingSession} {log : List (Bytes × Reply)}
      {sent later : List Bytes} {frame : Bytes} {text : String}
      (hbefore : ServedTo u config keyedHash frames start session log (frame :: later))
      (hafter : ServedTo u config keyedHash frames start next
        (log ++ [(frame, .acknowledged text)]) later)
      (hunsent : ∃ last, config.serveFrames keyedHash session [last] = ([.unsent text], .ok ()))
      (hsent : sent.length = log.length) :
      ServerAt frames start (log.map Prod.fst ++ [frame]) sent (.answering frame text next log)

variable {u config keyedHash} {frames : List Bytes} {start session : ProcessingSession}
  {log : List (Bytes × Reply)} {later : List Bytes}

theorem ConnectionConfig.receiveFrame_frame {frame : Bytes}
    (hlimits : config.checkLimits session = .ok ()) (hfits : frame.length ≤ maxFrameLength)
    (sent : Bool) : config.receiveFrame session ⟨0, 0, .frame frame, sent⟩ = .ok (some frame) := by
  have hlength : failWhen (decide (maxFrameLength < frame.length))
      "Frame decode error: frame size too big" = .ok () :=
    failWhen_eq_ok.mpr (decide_eq_false (Nat.not_lt.mpr hfits))
  simp only [receiveFrame, hlimits, hlength, Nat.not_lt_zero, decide_false]
  rfl

theorem ServedTo.next {frame : Bytes} {text : String} {next : ProcessingSession}
    (h : ServedTo u config keyedHash frames start session log (frame :: later))
    (hlimits : config.checkLimits session = .ok ()) (hfits : frame.length ≤ maxFrameLength)
    (hanswer : config.answerFrame keyedHash (session.track frame) frame =
      (.acknowledged text, next))
    (hto : UploadedTo u config (arrivalsOf log ++ [promptly frame]) next (log.length + 1 + 1)) :
    ServedTo u config keyedHash frames start next (log ++ [(frame, .acknowledged text)]) later := by
  have harrivals : arrivalsOf (log ++ [(frame, Reply.acknowledged text)]) =
      arrivalsOf log ++ [promptly frame] := by
    rw [arrivalsOf, List.map_append]
    rfl
  refine ⟨?_, ?_, ?_, ?_⟩
  · rw [h.frames_eq, List.map_append, List.append_assoc]
    rfl
  · rw [List.forall_mem_append, List.forall_mem_singleton]
    exact ⟨h.acknowledged, text, rfl⟩
  · rwa [harrivals, List.length_append, List.length_singleton]
  · intro rest
    have hreceive : config.receiveFrame session (promptly frame) = .ok (some frame) :=
      ConnectionConfig.receiveFrame_frame hlimits hfits true
    rw [harrivals, List.append_assoc, List.singleton_append, h.loop]
    simp only [ConnectionConfig.serveFrames, hreceive, hanswer, List.map_append, List.append_assoc]
    rfl

theorem serveFrames_error {a : Arrival} {e : String}
    (h : config.receiveFrame session a = .error e) :
    config.serveFrames keyedHash session [a] = ([], .error e) := by
  simp only [ConnectionConfig.serveFrames, h]

theorem endsLoop_broken (hlimits : config.checkLimits session = .ok ()) (e : String) :
    EndsLoop config keyedHash session log
      (.finished log (.error ("Frame decode error: " ++ e))) := by
  refine ⟨⟨0, 0, .broken e, true⟩, _, rfl, serveFrames_error ?_⟩
  simp only [ConnectionConfig.receiveFrame, hlimits, Nat.not_lt_zero, decide_false]
  rfl

theorem endsLoop_closed (hlimits : config.checkLimits session = .ok ()) :
    EndsLoop config keyedHash session log (.finished log (.ok ())) := by
  refine ⟨closing, _, rfl, ?_⟩
  have hnone : config.receiveFrame session closing = .ok none := by
    simp only [ConnectionConfig.receiveFrame, closing, hlimits, Nat.not_lt_zero, decide_false]
    rfl
  simp only [ConnectionConfig.serveFrames, hnone]

theorem endsLoop_upset {closed : Bool} {s : ServerState}
    (h : s ∈ config.upsets closed (.serving session log)) :
    EndsLoop config keyedHash session log s := by
  rw [ConnectionConfig.upsets] at h
  split at h
  next => contradiction
  next hlimits =>
    obtain ⟨e, he, rfl⟩ := List.mem_map.mp h
    rcases List.mem_append.mp he with htimer | hlost
    · have hlate : config.connectionTimeout < config.connectionTimeout + 1 := Nat.lt_succ_self _
      rcases List.mem_cons.mp htimer with rfl | hread
      · refine ⟨⟨config.connectionTimeout + 1, 0, .closed, true⟩, _, rfl, serveFrames_error ?_⟩
        simp only [ConnectionConfig.receiveFrame, hlimits, hlate, decide_true]
        rfl
      · obtain rfl := List.mem_singleton.mp hread
        refine ⟨⟨0, config.connectionTimeout + 1, .closed, true⟩, _, rfl, serveFrames_error ?_⟩
        simp only [ConnectionConfig.receiveFrame, hlimits, hlate, Nat.not_lt_zero, decide_true,
          decide_false]
        rfl
    · obtain ⟨text, -, rfl⟩ := List.mem_map.mp hlost
      exact endsLoop_broken hlimits text

theorem act_serving_receive {next : Bytes → ServerState} {closed : ServerState}
    {broken : String → ServerState}
    (h : config.act keyedHash (.serving session log) = .receive next closed broken) :
    config.checkLimits session = .ok () ∧ next = config.onFrame keyedHash session log ∧
      closed = .finished log (.ok ()) ∧
      broken = fun e => .finished log (.error ("Frame decode error: " ++ e)) := by
  rw [ConnectionConfig.act] at h
  split at h
  next => contradiction
  next hlimits =>
    obtain ⟨rfl, rfl, rfl⟩ := FrameAct.receive.inj h
    exact ⟨hlimits, rfl, rfl, rfl⟩

theorem act_serving_ne_send {payload : Bytes} {next tooBig : ServerState} :
    config.act keyedHash (.serving session log) ≠ .send payload next tooBig := by
  intro h
  rw [ConnectionConfig.act] at h
  split at h
  next => contradiction
  next => contradiction

theorem endsLoop_of_givesUp {t : ServerState}
    (h : GivesUp (config.act keyedHash) config.upsets (.serving session log) t) :
    EndsLoop config keyedHash session log t := by
  cases h with
  | tooBig hact => exact absurd hact act_serving_ne_send
  | closed hact =>
    obtain ⟨hlimits, -, rfl, -⟩ := act_serving_receive hact
    exact endsLoop_closed hlimits
  | broken hact e =>
    obtain ⟨hlimits, -, -, rfl⟩ := act_serving_receive hact
    exact endsLoop_broken hlimits e
  | upset hmem => exact endsLoop_upset hmem

theorem unsent_of_givesUp {frame : Bytes} {text : String} {t : ServerState}
    (h : GivesUp (config.act keyedHash) config.upsets (.answering frame text session log) t) :
    t = .finished (log ++ [(frame, .unsent text)]) (.ok ()) := by
  cases h with
  | tooBig hact =>
    obtain ⟨rfl, rfl, rfl⟩ := FrameAct.send.inj hact
    rfl
  | closed hact => contradiction
  | broken hact e => contradiction
  | upset hmem =>
    obtain ⟨_, -, rfl⟩ := List.mem_map.mp hmem
    rfl

theorem ConnectionConfig.returns : Returns (config.act keyedHash) config.upsets := by
  intro s t h
  have hfinished : ∃ log result, t = .finished log result := by
    cases s with
    | serving session log =>
      obtain ⟨last, result, rfl, -⟩ := endsLoop_of_givesUp h
      exact ⟨_, _, rfl⟩
    | answering frame text session log => exact ⟨_, _, unsent_of_givesUp h⟩
    | refusing frame text log =>
      cases h with
      | tooBig hact =>
        obtain ⟨rfl, rfl, rfl⟩ := FrameAct.send.inj hact
        exact ⟨_, _, rfl⟩
      | closed hact => contradiction
      | broken hact e => contradiction
      | upset hmem =>
        obtain ⟨_, -, rfl⟩ := List.mem_map.mp hmem
        exact ⟨_, _, rfl⟩
    | finished log result =>
      cases h with
      | tooBig hact => contradiction
      | closed hact => contradiction
      | broken hact e => contradiction
      | upset hmem => contradiction
  obtain ⟨log, result, rfl⟩ := hfinished
  exact ⟨⟨_, rfl⟩, fun _ => rfl⟩

variable {x : Crates} {ec : EnvelopeCrates} {key : Fixed 32} {got sent : List Bytes}
  {s : ServerState}

theorem ServedTo.onFrame {frame : Bytes} {pt : Bytes}
    (h : ServedTo u config keyedHash frames start session log (frame :: later))
    (hlimits : config.checkLimits session = .ok ())
    (hframe : u.frame x ec key (log.length + 1) pt = .ok frame) (hbound : log.length + 1 < 2 ^ 64)
    (hsent : sent.length = log.length) :
    ServerAt u config keyedHash frames start (log.map Prod.fst ++ [frame]) sent
      (config.onFrame keyedHash session log frame) := by
  obtain ⟨chunk, hchunk, hfits, rfl⟩ := UploadCall.frame_eq_ok.mp hframe
  obtain ⟨text, next, hanswer, -, hto⟩ := h.uploaded.acknowledged keyedHash hchunk hfits hbound
  rw [ConnectionConfig.onFrame, hanswer]
  refine .answering h (h.next hlimits hfits hanswer hto) ⟨⟨0, 0, .frame chunk.bincode, false⟩, ?_⟩
    hsent
  simp only [ConnectionConfig.serveFrames, hanswer,
    ConnectionConfig.receiveFrame_frame hlimits hfits false]
  rfl

theorem uploadedTo_start (h : SessionAfter [] session) : UploadedTo u config [] session 1 :=
  ⟨h, ConnectionConfig.served_nil, fun _ hc => absurd hc List.not_mem_nil, rfl⟩

/-- What the server has got and sent in any run in which it gets nothing but the call's frames. -/
theorem serverAt_of_run
    (hcall : ∀ i frame, frames[i]? = some frame →
      i + 1 < 2 ^ 64 ∧ ∃ pt, u.frame x ec key (i + 1) pt = .ok frame)
    (hstart : SessionAfter [] start)
    (h : FrameRun maxFrameLength (config.act keyedHash) (.serving start []) got sent s)
    (hgot : got <+: frames) : ServerAt u config keyedHash frames start got sent s := by
  induction h with
  | start =>
    exact .serving ⟨rfl, fun _ hmem => absurd hmem List.not_mem_nil, uploadedTo_start hstart,
      fun _ => rfl⟩ rfl
  | sent _ hact hfits ih =>
    cases ih hgot with
    | serving h hsent => exact absurd hact act_serving_ne_send
    | answering hbefore hafter hunsent hsent =>
      obtain ⟨rfl, rfl, rfl⟩ := FrameAct.send.inj hact
      have hgot' : ∀ log : List (Bytes × Reply), ∀ frame text,
          log.map Prod.fst ++ [frame] =
            (log ++ [(frame, Reply.acknowledged text)]).map Prod.fst := by
        intro log frame text
        rw [List.map_append]
        rfl
      rw [hgot']
      refine .serving hafter ?_
      rw [List.length_append, List.length_append, hsent]
      rfl
  | @received t closed next broken got sent frame _ hact hfits ih =>
    cases ih ((List.prefix_append _ _).trans hgot) with
    | @serving session log _ later h hsent =>
      obtain ⟨hlimits, rfl, -, -⟩ := act_serving_receive hact
      obtain ⟨rest, hrest⟩ := hgot
      obtain rfl : frame :: rest = later := by
        rw [h.frames_eq, List.append_assoc] at hrest
        exact List.append_cancel_left hrest
      have hi : frames[log.length]? = some frame := by
        rw [h.frames_eq, List.getElem?_append_right (by simp)]
        simp
      obtain ⟨hbound, pt, hframe⟩ := hcall _ _ hi
      exact h.onFrame hlimits hframe hbound hsent
    | answering hbefore hafter hunsent hsent => contradiction

/-- What the log of the server is at any time. -/
structure Logged (config : ConnectionConfig) (keyedHash : Bytes → Bytes → Bytes)
    (frames : List Bytes) (start : ProcessingSession) (sent : List Bytes)
    (s : ServerState) (served lost : List (Bytes × Reply)) : Prop where
  log_eq : s.log = served ++ lost
  frames_prefix : (served ++ lost).map Prod.fst <+: frames
  acknowledged : ∀ entry ∈ served, ∃ text, entry.2 = .acknowledged text
  unsent : lost = [] ∨ ∃ frame text, lost = [(frame, .unsent text)]
  sent_length : sent.length = served.length
  result : ∀ log result, config.act keyedHash s = .done (log, result) →
    ∃ last, config.serveFrames keyedHash start (arrivalsOf served ++ [last]) =
      (log.map Prod.snd, result)

theorem ServedTo.logged (h : ServedTo u config keyedHash frames start session log later)
    (hlog : s.log = log) (hsent : sent.length = log.length)
    (hresult : ∀ log' result, config.act keyedHash s = .done (log', result) → log' = log ∧
      ∃ last, config.serveFrames keyedHash session [last] = ([], result)) :
    Logged config keyedHash frames start sent s log [] := by
  refine ⟨by rw [hlog, List.append_nil], ?_, h.acknowledged, .inl rfl, hsent, ?_⟩
  · rw [h.frames_eq, List.append_nil]
    exact List.prefix_append _ _
  · intro log' result hdone
    obtain ⟨rfl, last, hlast⟩ := hresult log' result hdone
    refine ⟨last, ?_⟩
    rw [h.loop, hlast, List.append_nil]

theorem ServerAt.logged (h : ServerAt u config keyedHash frames start got sent s)
    {d : Framing ServerState} (hstands : StandsAt (config.act keyedHash) config.upsets s d) :
    ∃ served lost, Logged config keyedHash frames start sent d.state served lost := by
  cases h with
  | @serving session log _ later h hsent =>
    rcases hstands with hstate | ⟨t, hgives, rfl⟩
    · refine ⟨log, [], h.logged (by rw [hstate]; rfl) hsent fun log' result hdone => ?_⟩
      rw [hstate, ConnectionConfig.act] at hdone
      split at hdone
      next e hlimits =>
        obtain ⟨rfl, rfl⟩ := Prod.mk.inj (FrameAct.done.inj hdone)
        exact ⟨rfl, closing,
          serveFrames_error (by rw [ConnectionConfig.receiveFrame, hlimits]; rfl)⟩
      next => contradiction
    · obtain ⟨last, result, rfl, hlast⟩ := endsLoop_of_givesUp hgives
      refine ⟨log, [], h.logged rfl hsent fun log' result' hdone => ?_⟩
      obtain ⟨rfl, rfl⟩ := Prod.mk.inj (FrameAct.done.inj hdone)
      exact ⟨rfl, last, hlast⟩
  | @answering session next log _ later frame text hbefore hafter hunsent hsent =>
    rcases hstands with hstate | ⟨t, hgives, rfl⟩
    · refine ⟨log, [], hbefore.logged (by rw [hstate]; rfl) hsent fun log' result hdone => ?_⟩
      rw [hstate] at hdone
      contradiction
    · obtain rfl := unsent_of_givesUp hgives
      obtain ⟨last, hlast⟩ := hunsent
      refine ⟨log, [(frame, .unsent text)], rfl, ?_, hbefore.acknowledged,
        .inr ⟨frame, text, rfl⟩, hsent, ?_⟩
      · rw [hbefore.frames_eq, List.map_append]
        exact ⟨later, by simp⟩
      · intro log' result hdone
        obtain ⟨rfl, rfl⟩ := Prod.mk.inj (FrameAct.done.inj hdone)
        refine ⟨last, ?_⟩
        rw [hbefore.loop, hlast, List.map_append]
        rfl

end Server

end Sealedge
