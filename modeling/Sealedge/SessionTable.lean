import Sealedge.AuthRuns

namespace Sealedge

def SessionInfo.isValid (session : SessionInfo) (now : Nat) : Bool :=
  session.authenticated && decide (now < session.expiresAt)

namespace SessionManager

/-- `sessions.get`. -/
def findSession (m : SessionManager) (sessionId : Fixed 16) : Option SessionInfo :=
  (m.sessions.find? fun p => p.1 == sessionId).map Prod.snd

def cleanupExpiredSessions (m : SessionManager) (now : Nat) : SessionManager :=
  { m with sessions := m.sessions.filter fun p => decide (now < p.2.expiresAt) }

def removeSession (m : SessionManager) (sessionId : Fixed 16) : SessionManager :=
  { m with sessions := m.sessions.filter fun p => p.1 != sessionId }

/-- The cleanup and the check read the clock on their own. -/
def validateSession (m : SessionManager) (sessionId : Fixed 16) (cleanedAt now : Nat) :
    Except String SessionInfo × SessionManager :=
  let cleaned := m.cleanupExpiredSessions cleanedAt
  match cleaned.findSession sessionId with
  | none => (.error "Session not found", cleaned)
  | some session =>
    if session.isValid now then (.ok session, cleaned)
    else (.error "Session expired or invalid", cleaned)

end SessionManager

/-- The calls that change the table of sessions. -/
inductive SessionOp
  | authenticate (challenge : AuthChallenge) (response : ClientAuthResponse) (now : Nat)
      (sessionId : Fixed 16)
  | validate (sessionId : Fixed 16) (cleanedAt now : Nat)
  | cleanup (now : Nat)
  | remove (sessionId : Fixed 16)

section Runs

variable (x : Crates) (ac : AuthCrates)

def SessionManager.perform (m : SessionManager) : SessionOp → SessionManager
  | .authenticate challenge response now sessionId =>
    match m.authenticateClient x ac challenge response now sessionId with
    | .ok (_, later) => later
    | .error _ => m
  | .validate sessionId cleanedAt now => (m.validateSession sessionId cleanedAt now).2
  | .cleanup now => m.cleanupExpiredSessions now
  | .remove sessionId => m.removeSession sessionId

def SessionManager.performAll (m : SessionManager) : List SessionOp → SessionManager
  | [] => m
  | op :: ops => (m.perform x ac op).performAll ops

end Runs

/-- The id is not drawn a second time. -/
def SessionOp.LeavesFresh (sessionId : Fixed 16) : SessionOp → Prop
  | .authenticate _ _ _ drawn => drawn ≠ sessionId
  | _ => True

/-- The call does not remove the session and does not clean up after it expires. -/
def SessionOp.Spares (session : SessionInfo) : SessionOp → Prop
  | .authenticate _ _ _ _ => True
  | .validate _ cleanedAt _ => cleanedAt < session.expiresAt
  | .cleanup now => now < session.expiresAt
  | .remove sessionId => sessionId ≠ session.sessionId

namespace SessionManager

/-- The table has the session, and no other one under its id. -/
structure Holds (m : SessionManager) (session : SessionInfo) : Prop where
  mem : (session.sessionId, session) ∈ m.sessions
  only : ∀ p ∈ m.sessions, p.1 = session.sessionId → p.2 = session

def Lacks (m : SessionManager) (sessionId : Fixed 16) : Prop :=
  ∀ p ∈ m.sessions, p.1 ≠ sessionId

section Table

variable {m : SessionManager} {session : SessionInfo} {sessionId : Fixed 16}

theorem holds_insertSession : (m.insertSession session).Holds session := by
  refine ⟨List.mem_cons_self, ?_⟩
  intro p hp hid
  rcases List.mem_cons.mp hp with rfl | hp
  · rfl
  · obtain ⟨-, hne⟩ := List.mem_filter.mp hp
    simp [hid] at hne

theorem Holds.insert {other : SessionInfo} (h : m.Holds session)
    (hne : other.sessionId ≠ session.sessionId) : (m.insertSession other).Holds session := by
  refine ⟨?_, ?_⟩
  · refine List.mem_cons_of_mem _ (List.mem_filter.mpr ⟨h.mem, ?_⟩)
    simpa using Ne.symm hne
  · intro p hp hid
    rcases List.mem_cons.mp hp with rfl | hp
    · exact absurd hid hne
    · exact h.only p (List.mem_filter.mp hp).1 hid

theorem Holds.filter {keep : Fixed 16 × SessionInfo → Bool} (h : m.Holds session)
    (hkeep : keep (session.sessionId, session) = true) :
    ({ m with sessions := m.sessions.filter keep } : SessionManager).Holds session := by
  refine ⟨List.mem_filter.mpr ⟨h.mem, hkeep⟩, ?_⟩
  intro p hp hid
  exact h.only p (List.mem_filter.mp hp).1 hid

theorem Holds.lacks_of_filter {keep : Fixed 16 × SessionInfo → Bool} (h : m.Holds session)
    (hdrop : keep (session.sessionId, session) = false) :
    ({ m with sessions := m.sessions.filter keep } : SessionManager).Lacks session.sessionId := by
  intro p hp hid
  obtain ⟨hmem, hkept⟩ := List.mem_filter.mp hp
  have hp : p = (session.sessionId, session) := Prod.ext hid (h.only p hmem hid)
  rw [hp, hdrop] at hkept
  contradiction

theorem Lacks.filter {keep : Fixed 16 × SessionInfo → Bool} (h : m.Lacks sessionId) :
    ({ m with sessions := m.sessions.filter keep } : SessionManager).Lacks sessionId := by
  intro p hp
  exact h p (List.mem_filter.mp hp).1

theorem Lacks.insert {other : SessionInfo} (h : m.Lacks sessionId)
    (hne : other.sessionId ≠ sessionId) : (m.insertSession other).Lacks sessionId := by
  intro p hp
  rcases List.mem_cons.mp hp with rfl | hp
  · exact hne
  · exact h p (List.mem_filter.mp hp).1

theorem Holds.findSession (h : m.Holds session) :
    m.findSession session.sessionId = some session := by
  cases hfind : m.sessions.find? fun p => p.1 == session.sessionId with
  | none =>
    have hne := List.find?_eq_none.mp hfind _ h.mem
    simp at hne
  | some p =>
    have hbeq := List.find?_some hfind
    have hid : p.1 = session.sessionId := eq_of_beq hbeq
    rw [SessionManager.findSession, hfind, ← h.only p (List.mem_of_find?_eq_some hfind) hid]
    rfl

theorem Lacks.findSession (h : m.Lacks sessionId) : m.findSession sessionId = none := by
  have hnone : m.sessions.find? (fun p => p.1 == sessionId) = none := by
    rw [List.find?_eq_none]
    intro p hp
    exact fun hid => h p hp (eq_of_beq hid)
  rw [SessionManager.findSession, hnone]
  rfl

end Table

section Steps

variable {x : Crates} {ac : AuthCrates} {m : SessionManager} {session : SessionInfo}
  {sessionId : Fixed 16}

theorem validateSession_snd (m : SessionManager) (sessionId : Fixed 16) (cleanedAt now : Nat) :
    (m.validateSession sessionId cleanedAt now).2 = m.cleanupExpiredSessions cleanedAt := by
  unfold validateSession
  dsimp only
  split
  next => rfl
  next => split <;> rfl

theorem perform_cases (m : SessionManager) (op : SessionOp) :
    (∃ challenge response now drawn other, op = .authenticate challenge response now drawn ∧
        other.sessionId = drawn ∧ m.perform x ac op = m.insertSession other) ∨
      (∃ challenge response now drawn, op = .authenticate challenge response now drawn ∧
        m.perform x ac op = m) ∨
      ∃ keep, m.perform x ac op = { m with sessions := m.sessions.filter keep } ∧
        ∀ session, op.Spares session ↔ keep (session.sessionId, session) = true := by
  cases op with
  | authenticate challenge response now drawn =>
    cases hauth : m.authenticateClient x ac challenge response now drawn with
    | error e => exact .inr (.inl ⟨_, _, _, _, rfl, by simp [perform, hauth]⟩)
    | ok p =>
      obtain ⟨other, later⟩ := p
      obtain ⟨-, -, -, -, key, -, rfl, rfl⟩ := authenticateClient_eq_ok.mp hauth
      refine .inl ⟨_, _, _, _, sessionOf response now drawn key, rfl, rfl, ?_⟩
      simp only [perform, hauth]
  | validate sessionId cleanedAt now =>
    refine .inr (.inr ⟨_, validateSession_snd m sessionId cleanedAt now, ?_⟩)
    intro session
    simp [SessionOp.Spares]
  | cleanup now =>
    refine .inr (.inr ⟨_, rfl, ?_⟩)
    intro session
    simp [SessionOp.Spares]
  | remove sessionId =>
    refine .inr (.inr ⟨_, rfl, ?_⟩)
    intro session
    rw [SessionOp.Spares, bne_iff_ne]
    exact ne_comm

theorem Holds.perform (h : m.Holds session) {op : SessionOp}
    (hfresh : op.LeavesFresh session.sessionId) :
    (op.Spares session ∧ (m.perform x ac op).Holds session) ∨
      (¬ op.Spares session ∧ (m.perform x ac op).Lacks session.sessionId) := by
  rcases perform_cases (x := x) m op with ⟨_, _, _, _, other, rfl, rfl, hstep⟩ |
      ⟨_, _, _, _, rfl, hstep⟩ | ⟨keep, hstep, hspares⟩
  · rw [hstep]
    exact .inl ⟨trivial, h.insert hfresh⟩
  · rw [hstep]
    exact .inl ⟨trivial, h⟩
  · rw [hstep, hspares]
    cases hkeep : keep (session.sessionId, session) with
    | true => exact .inl ⟨rfl, h.filter hkeep⟩
    | false => exact .inr ⟨Bool.false_ne_true, h.lacks_of_filter hkeep⟩

theorem Lacks.perform (h : m.Lacks sessionId) {op : SessionOp} (hfresh : op.LeavesFresh sessionId) :
    (m.perform x ac op).Lacks sessionId := by
  rcases perform_cases (x := x) m op with ⟨_, _, _, _, other, rfl, rfl, hstep⟩ |
      ⟨_, _, _, _, rfl, hstep⟩ | ⟨keep, hstep, -⟩
  · rw [hstep]
    exact h.insert hfresh
  · rwa [hstep]
  · rw [hstep]
    exact h.filter

theorem Lacks.performAll {ops : List SessionOp} (h : m.Lacks sessionId)
    (hfresh : ∀ op ∈ ops, op.LeavesFresh sessionId) :
    (m.performAll x ac ops).Lacks sessionId := by
  induction ops generalizing m with
  | nil => exact h
  | cons op ops ih =>
    exact ih (h.perform (hfresh op List.mem_cons_self))
      fun op' hop' => hfresh op' (List.mem_cons_of_mem op hop')

/-- A session stays in the table as long as every call spares it, and does not come back. -/
theorem Holds.performAll {ops : List SessionOp} (h : m.Holds session)
    (hfresh : ∀ op ∈ ops, op.LeavesFresh session.sessionId) :
    ((∀ op ∈ ops, op.Spares session) ∧ (m.performAll x ac ops).Holds session) ∨
      (¬ (∀ op ∈ ops, op.Spares session) ∧ (m.performAll x ac ops).Lacks session.sessionId) := by
  induction ops generalizing m with
  | nil => exact .inl ⟨by simp, h⟩
  | cons op ops ih =>
    have hlater : ∀ op' ∈ ops, op'.LeavesFresh session.sessionId := fun op' hop' =>
      hfresh op' (List.mem_cons_of_mem op hop')
    rw [List.forall_mem_cons]
    rcases h.perform (x := x) (hfresh op List.mem_cons_self) with ⟨hspares, hholds⟩ | ⟨hnot, hlacks⟩
    · rcases ih hholds hlater with ⟨hall, hend⟩ | ⟨hnot, hend⟩
      · exact .inl ⟨⟨hspares, hall⟩, hend⟩
      · exact .inr ⟨fun hboth => hnot hboth.2, hend⟩
    · exact .inr ⟨fun hboth => hnot hboth.1, hlacks.performAll hlater⟩

theorem Lacks.validateSession (h : m.Lacks sessionId) (cleanedAt now : Nat) :
    (m.validateSession sessionId cleanedAt now).1 = .error "Session not found" := by
  have hnone : (m.cleanupExpiredSessions cleanedAt).findSession sessionId = none :=
    h.filter.findSession
  simp only [SessionManager.validateSession, hnone]

theorem Holds.validateSession (h : m.Holds session) (hauth : session.authenticated = true)
    (cleanedAt now : Nat) :
    (m.validateSession session.sessionId cleanedAt now).1 = .ok session ↔
      cleanedAt < session.expiresAt ∧ now < session.expiresAt := by
  by_cases hcleaned : cleanedAt < session.expiresAt
  · have hfind : (m.cleanupExpiredSessions cleanedAt).findSession session.sessionId =
        some session := (h.filter (decide_eq_true hcleaned)).findSession
    by_cases hnow : now < session.expiresAt
    · simp [SessionManager.validateSession, hfind, SessionInfo.isValid, hauth, hcleaned, hnow]
    · simp [SessionManager.validateSession, hfind, SessionInfo.isValid, hauth, hnow]
  · have hlacks : (m.cleanupExpiredSessions cleanedAt).findSession session.sessionId = none :=
      (h.lacks_of_filter (decide_eq_false hcleaned)).findSession
    simp [SessionManager.validateSession, hlacks, hcleaned]

theorem Holds.validateSession_performAll {ops : List SessionOp} (h : m.Holds session)
    (hauth : session.authenticated = true)
    (hfresh : ∀ op ∈ ops, op.LeavesFresh session.sessionId) (cleanedAt now : Nat) :
    ((m.performAll x ac ops).validateSession session.sessionId cleanedAt now).1 = .ok session ↔
      (∀ op ∈ ops, op.Spares session) ∧ cleanedAt < session.expiresAt ∧
        now < session.expiresAt := by
  rcases h.performAll (x := x) hfresh with ⟨hspares, hholds⟩ | ⟨hnot, hlacks⟩
  · rw [hholds.validateSession hauth]
    exact ⟨fun htimes => ⟨hspares, htimes⟩, fun hall => hall.2⟩
  · rw [hlacks.validateSession]
    exact ⟨fun herror => by contradiction, fun hall => absurd hall.1 hnot⟩

end Steps

end SessionManager

end Sealedge
