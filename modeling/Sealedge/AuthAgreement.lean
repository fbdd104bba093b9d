import Sealedge.AuthOrigin

namespace Sealedge

open Fallible Numerals EventTrace

section Keys

variable {x : Crates} {ac : AuthCrates}

theorem sortedKeys_comm (a b : Bytes) : sortedKeys a b = sortedKeys b a := by
  unfold sortedKeys
  by_cases hab : a < b
  · rw [if_pos hab, if_neg (List.lt_asymm hab)]
  · rw [if_neg hab]
    by_cases hba : b < a
    · rw [if_pos hba]
    · rw [if_neg hba, List.le_antisymm (List.not_lt.mp hab) (List.not_lt.mp hba)]

theorem deriveSessionKey_comm {a b : DeviceKeypair}
    (hcommutes : ac.x25519 a (b.verifyingKey x) = ac.x25519 b (a.verifyingKey x))
    (challenge : Fixed 32) :
    deriveSessionKey x ac a (b.verifyingKey x) challenge =
      deriveSessionKey x ac b (a.verifyingKey x) challenge := by
  simp only [deriveSessionKey]
  rw [hcommutes, sortedKeys_comm]

end Keys

section Agreement

variable (x : Crates) (ac : AuthCrates) (C : DeviceKeypair) (S : SessionManager)

/-- Deliveries in turn: no two client runs are given one challenge, and a client run pinned to the
server gets the confirmation that the server sent for the run's challenge, before the session
expires. -/
def InTurn : AuthEvent → List AuthEvent → Prop
  | .clientRespond _ _ challenge _, h => ∀ e ∈ h, e.given ≠ some challenge.challenge
  | .clientDone run now confirm _, h =>
    (∃ identity, .clientStart run (S.publicKey x) identity ∈ h) →
      now < confirm.sessionExpiresAt ∧
      ∀ t challenge answer, .clientRespond run t challenge answer ∈ h →
        ∃ server before drawn after response session, .serverChallenge server before drawn ∈ h ∧
          drawn.challenge = challenge.challenge ∧
          .serverSession server after response session confirm ∈ h
  | _, _ => True

/-- The session of a server run, made after the events `before`, is the one that a client run is
about which ends at the time `now` with this result. -/
structure Corresponds (before : List AuthEvent) (run now : Nat) (result : ClientAuthResult)
    (server : Nat) (session : SessionInfo) : Prop where
  started : ∃ identity, .clientStart run (S.publicKey x) identity ∈ before
  client : session.clientPublicKey = C.verifyingKey x
  sessionId : session.sessionId = result.sessionId
  sessionKey : session.sessionKey = result.sessionKey
  live : now < session.expiresAt
  challenge : ∃ t drawn t' given answer, .serverChallenge server t drawn ∈ before ∧
    .clientRespond run t' given answer ∈ before ∧ given.challenge = drawn.challenge

variable {x ac C S}

theorem given_fresh {e : AuthEvent} {h : List AuthEvent} {k : Fixed 32} (hturn : InTurn x S e h)
    (hk : e.given = some k) : ∀ e' ∈ h, e'.given ≠ some k := by
  cases e with
  | clientRespond run now challenge response =>
    obtain rfl := Option.some.inj hk
    exact hturn
  | _ => contradiction

theorem given_unique {h : List AuthEvent} (hrun : Execution (InTurn x S) h)
    {run run' now now' : Nat} {challenge challenge' : AuthChallenge}
    {answer answer' : ClientAuthResponse} (hmem : .clientRespond run now challenge answer ∈ h)
    (hmem' : .clientRespond run' now' challenge' answer' ∈ h)
    (hvalue : challenge.challenge = challenge'.challenge) :
    run = run' := by
  have hname : AuthEvent.given (.clientRespond run now challenge answer) =
      some challenge'.challenge := congrArg some hvalue
  have heq := hrun.unique AuthEvent.given (fun _ _ _ => given_fresh) hmem hmem' hname rfl
  exact (AuthEvent.clientRespond.inj heq).1

/-- What the client has checked when it ends: the confirmation is of a session of the server for
the client, and the key comes from the challenge that it was given. -/
theorem clientDone_checked {h : List AuthEvent} (hrun : Execution (AuthAllowed x ac C S) h)
    {run now : Nat} {confirm : ServerAuthConfirm} {result : ClientAuthResult}
    {identity : Option String} (hstart : .clientStart run (S.publicKey x) identity ∈ h)
    (hdone : AuthAllowed x ac C S (.clientDone run now confirm result) h) :
    (∃ server t response session sent, .serverSession server t response session sent ∈ h ∧
      session.sessionId = confirm.sessionId ∧ session.clientPublicKey = C.verifyingKey x) ∧
    result.sessionId = confirm.sessionId ∧
    ∃ t given answer, .clientRespond run t given answer ∈ h ∧
      deriveSessionKey x ac C (S.publicKey x) given.challenge = .ok result.sessionKey := by
  obtain ⟨-, t, given, answer, hrespond, hreply, hunforged⟩ := hdone
  obtain ⟨-, hverify, hderive, hid, -⟩ := clientOnReply_eq_ok.mp hreply
  obtain ⟨pinned, identity', hstart', hcert⟩ := respond_started hrun hrespond
  obtain ⟨rfl, -⟩ := start_unique hrun hstart hstart'
  have hsigned := hunforged hverify (Or.inr hcert)
  rw [hcert] at hsigned hderive
  obtain ⟨server, t', response, session, sent, hmem, hsession, hclient, -⟩ :=
    session_of_signed hsigned
  exact ⟨⟨server, t', response, session, sent, hmem, hsession, hclient⟩, hid, t, given, answer,
    hrespond, hderive⟩

/-- A client run that ends in turn is about a session that the server made during the run. -/
theorem clientDone_corresponds (hx : x.SignsLawfully)
    (hcommutes : ac.x25519 C (S.publicKey x) = ac.x25519 S.serverSigningKey (C.verifyingKey x))
    {h : List AuthEvent} (hrun : Execution (AuthAllowed x ac C S) h)
    (hturns : Execution (InTurn x S) h) {run now : Nat} {confirm : ServerAuthConfirm}
    {result : ClientAuthResult} {identity : Option String}
    (hstart : .clientStart run (S.publicKey x) identity ∈ h)
    (hdone : AuthAllowed x ac C S (.clientDone run now confirm result) h)
    (hturn : InTurn x S (.clientDone run now confirm result) h) :
    ∃ later before server t response session sent,
      h = later ++ .serverSession server t response session sent :: before ∧
        Corresponds x C S before run now result server session := by
  obtain ⟨⟨_, _, _, signed, _, hsigned, hsignedId, hsignedClient⟩, hid, t, given, answer, hrespond,
    hderive⟩ := clientDone_checked hrun hstart hdone
  obtain ⟨hlive, hdelivered⟩ := hturn ⟨identity, hstart⟩
  obtain ⟨server, _, drawn, now', response, session, hdrawn, hvalue, hsession⟩ :=
    hdelivered t given answer hrespond
  obtain ⟨later, before, rfl⟩ := List.append_of_mem hsession
  have hsub := earlier_subset later (.serverSession server now' response session confirm) before
  obtain ⟨hmake, hbefore⟩ := hrun.split
  obtain ⟨t', drawn', hdrawn', hmade⟩ := session_made hx hmake
  obtain rfl : drawn = drawn' := challenge_unique hrun hdrawn (hsub hdrawn')
  obtain ⟨-, rfl⟩ := session_unique hrun hsession hsigned (hmade.confirmId.symm.trans hsignedId.symm)
  -- the run that was given the challenge before the session was made is this one
  obtain ⟨run', t'', given', answer', hgiven, hvalue'⟩ := hmade.given hsignedClient
  obtain rfl : run = run' :=
    given_unique hturns hrespond (hsub hgiven) (hvalue.symm.trans hvalue'.symm)
  obtain ⟨pinned, identity', hstart', -⟩ := respond_started hbefore hgiven
  obtain ⟨rfl, -⟩ := start_unique hrun hstart (hsub hstart')
  have hkey := hmade.derived
  rw [hsignedClient, hvalue, ← deriveSessionKey_comm hcommutes] at hkey
  refine ⟨later, before, server, now', response, session, confirm, rfl, ⟨identity', hstart'⟩,
    hsignedClient, hmade.confirmId.symm.trans hid.symm, ?_, ?_,
    ⟨t', drawn, t'', given', answer', hdrawn', hgiven, hvalue'⟩⟩
  · exact Except.ok.inj (hkey.symm.trans hderive)
  · rw [← hmade.confirmExpires]
    exact hlive

theorem corresponds_unique {h : List AuthEvent} (hrun : Execution (AuthAllowed x ac C S) h)
    (hturns : Execution (InTurn x S) h) {before before' : List AuthEvent}
    {run run' now now' server server' t t' : Nat} {result result' : ClientAuthResult}
    {response response' : ClientAuthResponse} {session session' : SessionInfo}
    {confirm confirm' : ServerAuthConfirm}
    (hmem : .serverSession server t response session confirm ∈ h) (hsub : before ⊆ h)
    (hmem' : .serverSession server' t' response' session' confirm' ∈ h) (hsub' : before' ⊆ h)
    (hcorresponds : Corresponds x C S before run now result server session)
    (hcorresponds' : Corresponds x C S before' run' now' result' server' session')
    (hid : result.sessionId = result'.sessionId) : run = run' := by
  obtain ⟨_, drawn, _, given, _, hdrawn, hgiven, hvalue⟩ := hcorresponds.challenge
  obtain ⟨_, drawn', _, given', _, hdrawn', hgiven', hvalue'⟩ := hcorresponds'.challenge
  have hids : session.sessionId = session'.sessionId :=
    hcorresponds.sessionId.trans (hid.trans hcorresponds'.sessionId.symm)
  obtain ⟨rfl, -⟩ := session_unique hrun hmem hmem' hids
  obtain rfl : drawn = drawn' := challenge_unique hrun (hsub hdrawn) (hsub' hdrawn')
  exact given_unique hturns (hsub hgiven) (hsub' hgiven') (hvalue.trans hvalue'.symm)

/-- A client run that has ended in a history is about a session of the history. -/
theorem ended_corresponds (hx : x.SignsLawfully)
    (hcommutes : ac.x25519 C (S.publicKey x) = ac.x25519 S.serverSigningKey (C.verifyingKey x))
    {h : List AuthEvent}
    (hrun : Execution (fun e h => AuthAllowed x ac C S e h ∧ InTurn x S e h) h) {run now : Nat}
    {confirm : ServerAuthConfirm} {result : ClientAuthResult} {identity : Option String}
    (hdone : .clientDone run now confirm result ∈ h)
    (hstart : .clientStart run (S.publicKey x) identity ∈ h) :
    ∃ before server t response session sent,
      .serverSession server t response session sent ∈ h ∧ before ⊆ h ∧
        Corresponds x C S before run now result server session := by
  have hplain : Execution (AuthAllowed x ac C S) h := hrun.left
  obtain ⟨earlier, ⟨hallowed, hturn⟩, hearlier, hsub⟩ := hrun.allowed_of_mem hdone
  have hplain' : Execution (AuthAllowed x ac C S) earlier := hearlier.left
  have hrespond := hallowed
  obtain ⟨-, t, given, answer, hrespond, -, -⟩ := hrespond
  obtain ⟨pinned, identity', hstart', -⟩ := respond_started hplain' hrespond
  obtain ⟨rfl, -⟩ := start_unique hplain hstart (hsub hstart')
  obtain ⟨later, before, server, t', response, session, sent, rfl, hcorresponds⟩ :=
    clientDone_corresponds hx hcommutes hplain' hearlier.right hstart' hallowed hturn
  exact ⟨before, server, t', response, session, sent, hsub (by simp),
    fun _ he => hsub (earlier_subset later _ before he), hcorresponds⟩

/-- In every execution with deliveries in turn, each client run pinned to the server that ends is
about a session that the server made for the client during the run, and different runs are about
different sessions. -/
theorem finished_runs_agree (hx : x.SignsLawfully)
    (hcommutes : ac.x25519 C (S.publicKey x) = ac.x25519 S.serverSigningKey (C.verifyingKey x))
    {h : List AuthEvent}
    (hrun : Execution (fun e h => AuthAllowed x ac C S e h ∧ InTurn x S e h) h) :
    (∀ later run now confirm result earlier identity,
      h = later ++ .clientDone run now confirm result :: earlier →
        .clientStart run (S.publicKey x) identity ∈ earlier →
          ∃ between before server t response session sent,
            earlier = between ++ .serverSession server t response session sent :: before ∧
              Corresponds x C S before run now result server session) ∧
    ∀ run run' now now' confirm confirm' result result' identity identity',
      .clientDone run now confirm result ∈ h → .clientDone run' now' confirm' result' ∈ h →
        .clientStart run (S.publicKey x) identity ∈ h →
          .clientStart run' (S.publicKey x) identity' ∈ h → run ≠ run' →
            result.sessionId ≠ result'.sessionId := by
  constructor
  · rintro later run now confirm result earlier identity rfl hstart
    obtain ⟨⟨hdone, hturn⟩, hearlier⟩ := hrun.split
    exact clientDone_corresponds hx hcommutes hearlier.left hearlier.right hstart hdone hturn
  · intro run run' now now' confirm confirm' result result' identity identity' hdone hdone' hstart
      hstart' hne hid
    obtain ⟨before, server, t, response, session, sent, hmem, hsub, hcorresponds⟩ :=
      ended_corresponds hx hcommutes hrun hdone hstart
    obtain ⟨before', server', t', response', session', sent', hmem', hsub', hcorresponds'⟩ :=
      ended_corresponds hx hcommutes hrun hdone' hstart'
    exact hne (corresponds_unique hrun.left hrun.right hmem hsub hmem' hsub' hcorresponds
      hcorresponds' hid)

end Agreement

section Building

variable {x : Crates} {ac : AuthCrates} {C : DeviceKeypair} {S : SessionManager}
  {h : List AuthEvent}

/-- A client run ends with the confirmation of any session that the server made for the client. -/
theorem clientDone_allowed (hx : x.SignsLawfully) {run now t server t' : Nat}
    {challenge : AuthChallenge} {answer response : ClientAuthResponse} {session : SessionInfo}
    {sessionKey : Fixed 32} (hfirst : ∀ e ∈ h, e.doneRun ≠ some run)
    (hrespond : .clientRespond run t challenge answer ∈ h)
    (hcert : challenge.serverCert.publicKey = S.publicKey x)
    (hsession : .serverSession server t' response session (S.createAuthConfirm x session) ∈ h)
    (hclient : session.clientPublicKey = C.verifyingKey x)
    (hderive : deriveSessionKey x ac C (S.publicKey x) challenge.challenge = .ok sessionKey) :
    AuthAllowed x ac C S (.clientDone run now (S.createAuthConfirm x session)
      ⟨session.sessionId, challenge.serverCert, sessionKey⟩) h := by
  have hkey : x.ed25519Key (S.publicKey x) = .ok () := hx.publicKey S.serverSigningKey.secret
  have hverify := hx.verifies S.serverSigningKey.secret
    (intoBytes (sessionData session.sessionId session.clientPublicKey session.expiresAt))
  refine ⟨hfirst, t, challenge, answer, hrespond, clientOnReply_eq_ok.mpr ⟨?_, ?_, ?_, rfl, rfl⟩, ?_⟩
  · rwa [hcert]
  · rw [hcert, ← hclient]
    exact hverify
  · rwa [hcert]
  · intro _ _
    refine Or.inr ⟨hcert, Or.inr ⟨server, t', response, session, _, hsession, ?_⟩⟩
    rw [hclient]
    rfl

theorem handshake_inTurn {certIdentity : String} {k : DeviceKeypair}
    {passed shown : Option String} {draw : Fixed 32} {sessionId : Fixed 16}
    {sessionKey : Fixed 32} {start now : Nat} :
    Execution (InTurn x S) (handshake x C S k certIdentity passed shown draw sessionId sessionKey
      start now) := by
  refine .cons trivial (.cons ?_ (.cons trivial (.cons trivial .nil)))
  simp [InTurn, AuthEvent.given]

end Building

section Sample

theorem sample_commutes : sampleAuth.x25519 (sampleKey 1) (sampleServer.publicKey sampleCrates) =
    sampleAuth.x25519 sampleServer.serverSigningKey ((sampleKey 1).verifyingKey sampleCrates) :=
  sampleEnvelope_correct.commutes (sampleKey 1) (sampleKey 2)

theorem sample_client_derives (challenge : Fixed 32) : ∃ sessionKey, deriveSessionKey sampleCrates
    sampleAuth (sampleKey 1) (sampleServer.publicKey sampleCrates) challenge = .ok sessionKey := by
  obtain ⟨sessionKey, hderive⟩ := sample_derives challenge
  exact ⟨sessionKey, (deriveSessionKey_comm sample_commutes challenge).trans hderive⟩

/-- An old confirmation ends a later client run: no session is made during the run, and the one of
the confirmation has expired. -/
theorem replayed_confirmation : ∃ challenge answer confirm result first,
    Execution (AuthAllowed sampleCrates sampleAuth (sampleKey 1) sampleServer)
      (.clientDone 1 9000 confirm result :: .clientRespond 1 9000 challenge answer ::
        .clientStart 1 (sampleServer.publicKey sampleCrates) (some "alice") :: first) ∧
    ∀ server t response session sent, .serverSession server t response session sent ∈ first →
      session.expiresAt < 9000 := by
  obtain ⟨sessionKey, hrun⟩ := ownHandshake_execution
  obtain ⟨laterKey, hlater⟩ := sample_client_derives (sampleDraw 6)
  refine ⟨⟨sampleDraw 6, sampleServer.serverCertificate, 9000⟩, _, _, _, ownHandshake sessionKey,
    .cons (clientDone_allowed sampleCrates_signsLawfully ?_ List.mem_cons_self rfl
      (List.mem_cons_of_mem _ (List.mem_cons_of_mem _ List.mem_cons_self)) rfl hlater)
    (.cons (clientRespond_allowed sampleCrates_signsLawfully rfl List.mem_cons_self ?_ (by omega)
      (by omega) (by decide)) (.cons ?_ hrun)), ?_⟩
  · simp [ownHandshake, handshake, AuthEvent.doneRun]
  · simp [ownHandshake, handshake, AuthEvent.respondedRun]
  · simp [AuthAllowed, ownHandshake, handshake, AuthEvent.startedRun]
  · intro server t response session sent hmem
    simp only [ownHandshake, handshake, List.mem_cons, reduceCtorEq, List.not_mem_nil,
      or_false] at hmem
    obtain ⟨-, -, -, rfl, -⟩ := AuthEvent.serverSession.inj hmem
    show 2000 + sessionTimeout < 9000
    decide

/-- A client run of which every message is passed on as it is. -/
theorem finished_runs_sample : ∃ confirm result earlier,
    Execution (fun e h => AuthAllowed sampleCrates sampleAuth (sampleKey 1) sampleServer e h ∧
        InTurn sampleCrates sampleServer e h) (.clientDone 0 2000 confirm result :: earlier) ∧
    ∃ between before server t response session sent,
      earlier = between ++ .serverSession server t response session sent :: before ∧
        Corresponds sampleCrates (sampleKey 1) sampleServer before 0 2000 result server session := by
  obtain ⟨sessionKey, hallowed⟩ := ownHandshake_execution
  obtain ⟨clientKey, hderive⟩ := sample_client_derives (sampleDraw 5)
  have hrun : ∃ confirm result,
      Execution (fun e h => AuthAllowed sampleCrates sampleAuth (sampleKey 1) sampleServer e h ∧
        InTurn sampleCrates sampleServer e h)
        (.clientDone 0 2000 confirm result :: ownHandshake sessionKey) := by
    refine ⟨_, _, .cons ⟨clientDone_allowed sampleCrates_signsLawfully ?_
      (List.mem_cons_of_mem _ List.mem_cons_self) rfl List.mem_cons_self rfl hderive, ?_⟩
      (hallowed.and handshake_inTurn)⟩
    · simp [ownHandshake, handshake, AuthEvent.doneRun]
    · intro _
      refine ⟨by show 2000 < 2000 + sessionTimeout; decide, ?_⟩
      intro t challenge answer hmem
      simp only [ownHandshake, handshake, List.mem_cons, reduceCtorEq, List.not_mem_nil, false_or,
        or_false] at hmem
      obtain ⟨-, -, rfl, -⟩ := AuthEvent.clientRespond.inj hmem
      exact ⟨0, 2000, _, 2000, _, _,
        List.mem_cons_of_mem _ (List.mem_cons_of_mem _ List.mem_cons_self), rfl, List.mem_cons_self⟩
  obtain ⟨confirm, result, hrun⟩ := hrun
  refine ⟨confirm, result, _, hrun, (finished_runs_agree sampleCrates_signsLawfully sample_commutes
    hrun).1 [] 0 2000 confirm result _ (some "alice") rfl ?_⟩
  simp [ownHandshake, handshake, sampleServer, SessionManager.publicKey,
    SessionManager.withSigningKey]

end Sample

end Sealedge
