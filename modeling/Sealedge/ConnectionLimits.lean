import Sealedge.ServerConnection

namespace Sealedge

open Fallible

namespace ConnectionConfig

variable {config : ConnectionConfig}

/-- The connection gets to the loop: its address is known, the client authenticates where that
is required, and the output file can be made. -/
def Opens (config : ConnectionConfig) (c : Connection) (connectionId : Nat) : Prop :=
  (∃ addr, c.peerAddr = .ok addr) ∧
  (config.requireAuth = true → ∃ mgr authSession, config.sessionManager = some mgr ∧
    c.serverAuthenticate mgr = .ok authSession) ∧
  (config.decrypt = true → ∀ dir, config.outputDir = some dir →
    c.createFile (dir ++ "/conn" ++ connectionId.repr ++ "_decrypted.bin") = .ok ())

/-- The last arrival is the next chunk of the stream, comes with the limits kept before it, and
is the one that passes a limit. -/
def Overshoots (config : ConnectionConfig) (before : List Arrival) (last : Arrival) : Prop :=
  config.Served (before ++ [last]) ∧ last.chunk.isSome = true ∧ config.LimitsAllow before ∧
  (config.maxConnectionBytes < totalLength (before ++ [last]) ∨
    config.maxConnectionChunks < (chunksOf (before ++ [last])).length)

theorem served_nil : config.Served [] := by
  refine ⟨by simp, ?_⟩
  intro i chunk hchunk
  simp [chunksOf] at hchunk

theorem authenticate_eq_ok {c : Connection} {session authed : ProcessingSession}
    (h : config.authenticate c session = .ok authed) :
    (config.requireAuth = true → ∃ mgr authSession, config.sessionManager = some mgr ∧
      c.serverAuthenticate mgr = .ok authSession) ∧
    (∀ before, SessionAfter before session → SessionAfter before authed) ∧
    authed.connectionId = session.connectionId := by
  unfold authenticate at h
  split at h
  next hrequired =>
    split at h
    next mgr hmgr =>
      split at h
      next authSession hauth =>
        cases h
        exact ⟨fun _ => ⟨mgr, authSession, hmgr, hauth⟩,
          fun _ hs => ⟨⟨hs.expected, hs.header, hs.locked, hs.verified⟩, hs.bytes, hs.frames⟩, rfl⟩
      next => simp at h
    next => simp at h
  next hnot =>
    cases h
    exact ⟨fun hrequired => absurd hrequired hnot, fun _ hs => hs, rfl⟩

theorem createOutput_eq_ok {c : Connection} {session opened : ProcessingSession}
    (h : config.createOutput c session = .ok opened) :
    (config.decrypt = true → ∀ dir, config.outputDir = some dir →
      c.createFile (dir ++ "/conn" ++ session.connectionId.repr ++ "_decrypted.bin") = .ok ()) ∧
    (∀ before, SessionAfter before session → SessionAfter before opened) := by
  unfold createOutput at h
  split at h
  next hdecrypt =>
    split at h
    next dir hdir =>
      simp only at h
      split at h
      next hcreate =>
        cases h
        refine ⟨fun _ dir' hdir' => ?_,
          fun _ hs => ⟨⟨hs.expected, hs.header, hs.locked, hs.verified⟩, hs.bytes, hs.frames⟩⟩
        rw [hdir, Option.some.injEq] at hdir'
        rw [← hdir']
        exact hcreate
      next => simp at h
    next hnone =>
      cases h
      refine ⟨fun _ dir hdir => ?_, fun _ hs => hs⟩
      rw [hnone] at hdir
      cases hdir
  next hnot =>
    cases h
    exact ⟨fun hdecrypt => absurd hdecrypt hnot, fun _ hs => hs⟩

theorem openConnection_eq_ok {c : Connection} {connectionId : Nat} {requireAuth : Bool}
    {session : ProcessingSession}
    (h : config.openConnection c (.new connectionId requireAuth) = .ok session) :
    config.Opens c connectionId ∧ SessionAfter [] session := by
  simp only [openConnection, bind_eq_ok, mapError_eq_ok] at h
  obtain ⟨addr, haddr, authed, hauthed, houtput⟩ := h
  obtain ⟨hauth, hsession, hid⟩ := authenticate_eq_ok hauthed
  obtain ⟨hfile, hopened⟩ := createOutput_eq_ok houtput
  have hnew : SessionAfter [] (.new connectionId requireAuth) := ⟨⟨rfl, rfl, rfl, rfl⟩, rfl, rfl⟩
  rw [hid] at hfile
  exact ⟨⟨⟨addr, haddr⟩, hauth, hfile⟩, hopened [] (hsession [] hnew)⟩

theorem openConnection_of_opens {c : Connection} {connectionId : Nat} {requireAuth : Bool}
    (h : config.Opens c connectionId) :
    ∃ session, config.openConnection c (.new connectionId requireAuth) = .ok session := by
  obtain ⟨⟨addr, haddr⟩, hauth, hfile⟩ := h
  simp only [openConnection, bind_eq_ok, mapError_eq_ok]
  obtain ⟨authed, hauthed⟩ : ∃ authed,
      config.authenticate c (.new connectionId requireAuth) = .ok authed := by
    unfold authenticate
    by_cases hrequired : config.requireAuth = true
    · obtain ⟨mgr, authSession, hmgr, hok⟩ := hauth hrequired
      rw [if_pos hrequired, hmgr]
      simp only [hok]
      exact ⟨_, rfl⟩
    · exact ⟨_, if_neg hrequired⟩
  have hid : authed.connectionId = connectionId := (authenticate_eq_ok hauthed).2.2
  obtain ⟨opened, hopened⟩ : ∃ opened, config.createOutput c authed = .ok opened := by
    unfold createOutput
    by_cases hdecrypt : config.decrypt = true
    · rw [if_pos hdecrypt]
      cases hdir : config.outputDir with
      | none => exact ⟨_, rfl⟩
      | some dir =>
        simp only [hid, hfile hdecrypt dir hdir]
        exact ⟨_, rfl⟩
    · exact ⟨_, if_neg hdecrypt⟩
  exact ⟨opened, addr, haddr, authed, hauthed, hopened⟩

end ConnectionConfig

theorem acknowledgements_le {replies : List Reply} {n : Nat}
    (h : ∀ i, Acknowledged replies i → acknowledgements (replies.take (i + 1)) ≤ n) :
    acknowledgements replies ≤ n := by
  induction replies generalizing n with
  | nil => exact Nat.zero_le n
  | cons reply replies ih =>
    cases hack : reply.isAcknowledged with
    | true =>
      have hfirst := h 0 (ConnectionConfig.acknowledged_cons.mpr hack)
      have hn : 1 ≤ n := by simpa [acknowledgements, hack] using hfirst
      have hrest : acknowledgements replies ≤ n - 1 := by
        refine ih fun i hi => ?_
        have hi' := h (i + 1) hi
        simp only [acknowledgements, List.take_succ_cons, List.countP_cons, hack, if_true] at hi'
        unfold acknowledgements
        omega
      simp only [acknowledgements, List.countP_cons, hack, if_true] at hrest ⊢
      omega
    | false =>
      have hrest : acknowledgements replies ≤ n := by
        refine ih fun i hi => ?_
        have hi' := h (i + 1) hi
        simpa [acknowledgements, hack] using hi'
      simpa [acknowledgements, hack] using hrest

theorem take_front (pre : List Arrival) (a : Arrival) (post : List Arrival) :
    (pre ++ a :: post).take (pre.length + 1) = pre ++ [a] := by
  rw [List.append_cons]
  exact List.take_left' (by simp)

/-- The loop keeps the limits exactly when no frame overshoots. -/
theorem serveFrames_limits_kept_iff (keyedHash : Bytes → Bytes → Bytes) {config : ConnectionConfig}
    {session : ProcessingSession} (hsession : SessionAfter [] session) (arrivals : List Arrival) :
    (acknowledgements (config.serveFrames keyedHash session arrivals).1 ≤
        config.maxConnectionChunks ∧
      ∀ i, Acknowledged (config.serveFrames keyedHash session arrivals).1 i →
        totalLength (arrivals.take (i + 1)) ≤ config.maxConnectionBytes) ↔
    ¬ ∃ before last after, arrivals = before ++ last :: after ∧
      config.Overshoots before last := by
  have hserved : ∀ i, Acknowledged (config.serveFrames keyedHash session arrivals).1 i → _ :=
    fun i => ConnectionConfig.acknowledged_served keyedHash hsession ConnectionConfig.served_nil
  constructor
  · rintro ⟨hfew, hshort⟩ ⟨before, last, after, harrivals, hlast, hchunk, hlimits, hpass⟩
    have hack := ConnectionConfig.acknowledged_of_served keyedHash hsession hchunk hlimits
      hlast after
    rw [← harrivals] at hack
    obtain ⟨pre, a, post, hsplit, hlength, -, -, -, hcount⟩ := hserved _ hack
    have htake : arrivals.take (before.length + 1) = before ++ [last] := by
      rw [harrivals, take_front]
    have htake' : arrivals.take (before.length + 1) = pre ++ [a] := by
      rw [hsplit, ← hlength, take_front]
    have htotal := hshort before.length hack
    rw [htake] at htotal
    have hsub : acknowledgements ((config.serveFrames keyedHash session arrivals).1.take
        (before.length + 1)) ≤ acknowledgements (config.serveFrames keyedHash session arrivals).1 :=
      (List.take_sublist _ _).countP_le
    rw [hcount, ← htake', htake] at hsub
    omega
  · intro hnone
    have hall : ∀ i, Acknowledged (config.serveFrames keyedHash session arrivals).1 i →
        totalLength (arrivals.take (i + 1)) ≤ config.maxConnectionBytes ∧
        acknowledgements ((config.serveFrames keyedHash session arrivals).1.take (i + 1)) ≤
          config.maxConnectionChunks := by
      intro i hack
      obtain ⟨pre, a, post, hsplit, hlength, hchunk, hlimits, hlast, hcount⟩ := hserved i hack
      have htake : arrivals.take (i + 1) = pre ++ [a] := by
        rw [hsplit, ← hlength, take_front]
      rw [htake, hcount]
      by_contra hpass
      refine hnone ⟨pre, a, post, hsplit, hlast, hchunk, hlimits, ?_⟩
      omega
    exact ⟨acknowledgements_le fun i hack => (hall i hack).2, fun i hack => (hall i hack).1⟩

/-- A connection keeps its limits exactly when no next chunk of the stream is the frame that
passes one of them. -/
theorem connection_limits_kept_iff (keyedHash : Bytes → Bytes → Bytes) (config : ConnectionConfig)
    (c : Connection) (connectionId : Nat) :
    (acknowledgements (config.handleHardenedConnection keyedHash c
        (.new connectionId config.requireAuth)).1 ≤ config.maxConnectionChunks ∧
      ∀ i, Acknowledged (config.handleHardenedConnection keyedHash c
          (.new connectionId config.requireAuth)).1 i →
        totalLength (c.arrivals.take (i + 1)) ≤ config.maxConnectionBytes) ↔
    ¬ ∃ before last after, c.arrivals = before ++ last :: after ∧
      config.Opens c connectionId ∧ config.Overshoots before last := by
  unfold ConnectionConfig.handleHardenedConnection
  cases hopen : config.openConnection c (.new connectionId config.requireAuth) with
  | error e =>
    have hclosed : ¬ config.Opens c connectionId := by
      intro h
      obtain ⟨session, hsession⟩ := ConnectionConfig.openConnection_of_opens h
      rw [hopen] at hsession
      cases hsession
    simp [acknowledgements, Acknowledged, hclosed]
  | ok session =>
    obtain ⟨hopens, hsession⟩ := ConnectionConfig.openConnection_eq_ok hopen
    simp only [hopens, true_and]
    exact serveFrames_limits_kept_iff keyedHash hsession c.arrivals

/-- A connection that allows one chunk of at most a hundred bytes. -/
def oneChunkConfig : ConnectionConfig where
  outputDir := none
  decrypt := false
  requireAuth := false
  sessionManager := none
  maxConnectionBytes := 100
  maxConnectionChunks := 1
  connectionTimeoutSecs := 30
  secureAcks := false

/-- The frame of an empty chunk with this number. -/
def emptyChunkArrival (sequence : UInt64) : Arrival where
  idle := 0
  wait := 0
  received := .frame (NetworkChunk.bincode {
    sequence
    data := []
    manifest := []
    nonce := ⟨List.replicate 12 7, rfl⟩
    timestamp := 0 })
  sent := true

/-- A client that sends two chunks and closes. -/
def twoChunkConnection : Connection where
  peerAddr := .ok "127.0.0.1:40000"
  serverAuthenticate _ := .error "no client"
  createFile _ := .ok ()
  arrivals := [emptyChunkArrival 1, emptyChunkArrival 2]

/-- Two chunks are acknowledged where one is allowed. -/
theorem second_chunk_acknowledged :
    0 < oneChunkConfig.maxConnectionChunks ∧ 0 < oneChunkConfig.maxConnectionBytes ∧
    ¬ (acknowledgements (oneChunkConfig.handleHardenedConnection (fun _ bytes => bytes)
        twoChunkConnection (.new 1 oneChunkConfig.requireAuth)).1 ≤
          oneChunkConfig.maxConnectionChunks ∧
      ∀ i, Acknowledged (oneChunkConfig.handleHardenedConnection (fun _ bytes => bytes)
          twoChunkConnection (.new 1 oneChunkConfig.requireAuth)).1 i →
        totalLength (twoChunkConnection.arrivals.take (i + 1)) ≤
          oneChunkConfig.maxConnectionBytes) := by
  refine ⟨by decide, by decide, fun h => absurd h.1 ?_⟩
  decide +kernel

end Sealedge
