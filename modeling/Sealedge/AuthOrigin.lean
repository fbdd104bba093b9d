import Sealedge.AuthRuns
import Sealedge.EnvelopeRoundTrip

namespace Sealedge

open Fallible Numerals EventTrace

section Origin

variable (x : Crates) (ac : AuthCrates) (C : DeviceKeypair) (S : SessionManager)

/-- Deliveries without a relay and without a changed identity: a challenge that the server drew
reaches only client runs pinned to the server, and a response with the client's key reaches the
server with the identity of the client runs that were given the challenge. -/
def Unrelayed : AuthEvent → List AuthEvent → Prop
  | .clientRespond run _ challenge _, h =>
    (∃ e ∈ h, e.drawn = some challenge.challenge) →
      ∃ identity, .clientStart run (S.publicKey x) identity ∈ h
  | .serverSession run _ response _ _, h => response.clientPublicKey = C.verifyingKey x →
    ∀ before challenge client now given answer pinned identity,
      .serverChallenge run before challenge ∈ h → .clientRespond client now given answer ∈ h →
        given.challenge = challenge.challenge → .clientStart client pinned identity ∈ h →
          response.clientIdentity = identity
  | _, _ => True

variable {x ac C S}

/-- A client run that was given a challenge of the server was given it after the server drew it. -/
theorem drawn_before_given {h : List AuthEvent} (hrun : Execution (AuthAllowed x ac C S) h)
    {run now client t : Nat} {challenge given : AuthChallenge} {answer : ClientAuthResponse}
    (hchallenge : .serverChallenge run now challenge ∈ h)
    (hgiven : .clientRespond client t given answer ∈ h)
    (hvalue : given.challenge = challenge.challenge) :
    ∃ later earlier, h = later ++ .clientRespond client t given answer :: earlier ∧
      .serverChallenge run now challenge ∈ earlier := by
  rcases eq_or_earlier hgiven hchallenge with heq | hafter | ⟨later, earlier, rfl, hbefore⟩
  · contradiction
  · exact hafter
  · obtain ⟨-, hfresh, -⟩ := hrun.split.1
    exact absurd (congrArg some hvalue) (hfresh _ hbefore).2

/-- In every execution without relay and with unchanged identities, a session for the client's key
goes back to a client run pinned to this server, with this challenge and this identity. -/
theorem session_speaks_for_client (hx : x.SignsLawfully) {h : List AuthEvent}
    (hrun : Execution (fun e h => AuthAllowed x ac C S e h ∧ Unrelayed x C S e h) h)
    {later earlier : List AuthEvent} {run now : Nat} {response : ClientAuthResponse}
    {session : SessionInfo} {confirm : ServerAuthConfirm}
    (hsplit : h = later ++ .serverSession run now response session confirm :: earlier)
    (hclient : session.clientPublicKey = C.verifyingKey x) :
    ∃ before challenge client t given answer, .serverChallenge run before challenge ∈ earlier ∧
      .clientStart client (S.publicKey x) session.clientIdentity ∈ earlier ∧
      .clientRespond client t given answer ∈ earlier ∧ given.challenge = challenge.challenge := by
  subst hsplit
  obtain ⟨⟨hallowed, hdelivered⟩, hearlier⟩ := hrun.split
  have hplain : Execution (AuthAllowed x ac C S) earlier := hearlier.left
  obtain ⟨before, challenge, hchallenge, hmade⟩ := session_made hx hallowed
  obtain ⟨client, t, given, answer, hgiven, hvalue⟩ := hmade.given hclient
  obtain ⟨between, first, rfl, hdrawn⟩ := drawn_before_given hplain hchallenge hgiven hvalue
  obtain ⟨identity, hstart⟩ := hearlier.split.1.2 ⟨_, hdrawn, congrArg some hvalue.symm⟩
  have hstart' : .clientStart client (S.publicKey x) identity ∈
      between ++ .clientRespond client t given answer :: first :=
    earlier_subset _ _ _ hstart
  have hidentity := hdelivered (hmade.client.symm.trans hclient) before challenge client t given
    answer _ identity hchallenge hgiven hvalue hstart'
  refine ⟨before, challenge, client, t, given, answer, hchallenge, ?_, hgiven, hvalue⟩
  rw [hmade.identity, hidentity]
  exact hstart'

end Origin

section Building

variable {x : Crates} {ac : AuthCrates} {C : DeviceKeypair} {S : SessionManager}
  {h : List AuthEvent}

theorem newSelfSigned_verify (hx : x.SignsLawfully) (identity : String) (k : DeviceKeypair)
    {days start now : Nat} (hstart : start ≤ now) (hend : now ≤ start + days * 24 * 3600) :
    (ServerCertificate.newSelfSigned x identity k days start).verify x now = .ok () := by
  have hkey : x.ed25519Key (k.verifyingKey x) = .ok () := hx.publicKey k.secret
  have hverify := hx.verifies k.secret
    (ServerCertificate.newSelfSigned x identity k days start).data
  simp only [ServerCertificate.verify, bind_eq_ok, failWhen_eq_ok, mapError_eq_ok, exists_const,
    Bool.or_eq_false_iff, decide_eq_false_iff_not, Bool.not_eq_false']
  exact ⟨⟨Nat.not_lt.mpr hstart, Nat.not_lt.mpr hend⟩, (), hkey, hverify⟩

/-- A client run takes a challenge with a certificate of the key that it is pinned to. -/
theorem clientRespond_allowed (hx : x.SignsLawfully) {run now days start : Nat} {k : DeviceKeypair}
    {certIdentity : String} {identity : Option String} {challenge : AuthChallenge}
    (hcert : challenge.serverCert = .newSelfSigned x certIdentity k days start)
    (hmem : .clientStart run (k.verifyingKey x) identity ∈ h)
    (hfirst : ∀ e ∈ h, e.respondedRun ≠ some run) (hstart : start ≤ now)
    (hend : now ≤ start + days * 24 * 3600)
    (hhonest : k.verifyingKey x = C.verifyingKey x → k.verifyingKey x = S.publicKey x) :
    AuthAllowed x ac C S (.clientRespond run now challenge
      (clientResponse x C now identity challenge)) h := by
  have hverify := newSelfSigned_verify hx certIdentity k hstart hend
  refine ⟨hfirst, ⟨_, identity, hmem, clientOnChallenge_eq_ok.mpr ⟨?_, ?_, rfl, rfl⟩⟩, ?_⟩
  · rw [hcert]
    exact hverify
  · rw [hcert]
    rfl
  · intro _ hkey
    rw [hcert] at hkey ⊢
    have hserver : k.verifyingKey x = S.publicKey x := hkey.elim hhonest id
    exact Or.inr ⟨hserver, Or.inl ⟨_, _, _, rfl⟩⟩

theorem serverSession_allowed (hx : x.SignsLawfully) {run now before : Nat}
    {challenge : AuthChallenge} {response : ClientAuthResponse} {sessionId : Fixed 16}
    {sessionKey : Fixed 32} (hmem : .serverChallenge run before challenge ∈ h)
    (hfirst : ∀ e ∈ h, e.sessionRun ≠ some run) (hfresh : ∀ e ∈ h, e.drawnId ≠ some sessionId)
    (htime : response.timestamp = now) (hkey : response.clientPublicKey = C.verifyingKey x)
    (hsig : response.challengeSignature = x.ed25519Sign C.secret challenge.challenge.val)
    (hderive : deriveSessionKey x ac S.serverSigningKey (C.verifyingKey x) challenge.challenge =
      .ok sessionKey)
    (hsigned : ∃ client t given answer, .clientRespond client t given answer ∈ h ∧
      given.challenge = challenge.challenge) :
    AuthAllowed x ac C S (.serverSession run now response (sessionOf response now sessionId
      sessionKey) (S.createAuthConfirm x (sessionOf response now sessionId sessionKey))) h := by
  have hpublic : x.ed25519Key (C.verifyingKey x) = .ok () := hx.publicKey C.secret
  have hverify : x.ed25519Verify (C.verifyingKey x) challenge.challenge.val
      (x.ed25519Sign C.secret challenge.challenge.val) = true := hx.verifies C.secret _
  have hauth : (S.after h).authenticateClient x ac challenge response now sessionId =
      .ok (sessionOf response now sessionId sessionKey,
        (S.after h).insertSession (sessionOf response now sessionId sessionKey)) := by
    refine authenticateClient_eq_ok.mpr ⟨by omega, by omega, ?_, ?_, sessionKey, ?_, rfl, rfl⟩
    · rwa [hkey]
    · rwa [hkey, hsig]
    · rwa [hkey, S.after_signingKey]
  refine ⟨hfirst, hfresh, before, challenge, hmem, ⟨sessionId, _, serverOnAuth_eq_ok.mpr
    ⟨hauth, ?_⟩⟩, ?_⟩
  · simp only [SessionManager.createAuthConfirm, SessionManager.insertSession, S.after_signingKey]
  · intro _ _
    obtain ⟨client, t, given, answer, hgiven, hvalue⟩ := hsigned
    exact Or.inl ⟨hkey, client, t, given, answer, hgiven, congrArg Subtype.val hvalue.symm⟩

variable (x C S) in
/-- A client run takes a challenge of the server with a certificate of the key `k`, and its response
makes a session under the identity `shown`. -/
def handshake (k : DeviceKeypair) (certIdentity : String) (passed shown : Option String)
    (draw : Fixed 32) (sessionId : Fixed 16) (sessionKey : Fixed 32) (start now : Nat) :
    List AuthEvent :=
  let challenge : AuthChallenge := ⟨draw, .newSelfSigned x certIdentity k 365 start, now⟩
  let response := clientResponse x C now passed challenge
  let delivered := { response with clientIdentity := shown }
  let session := sessionOf delivered now sessionId sessionKey
  [.serverSession 0 now delivered session (S.createAuthConfirm x session),
    .clientRespond 0 now challenge response,
    .serverChallenge 0 now (S.createChallenge draw now),
    .clientStart 0 (k.verifyingKey x) passed]

theorem handshake_execution (hx : x.SignsLawfully) {k : DeviceKeypair} {certIdentity : String}
    {passed shown : Option String} {draw : Fixed 32} {sessionId : Fixed 16} {sessionKey : Fixed 32}
    {start now : Nat} (hstart : start ≤ now) (hend : now ≤ start + 365 * 24 * 3600)
    (hhonest : k.verifyingKey x = C.verifyingKey x → k.verifyingKey x = S.publicKey x)
    (hderive : deriveSessionKey x ac S.serverSigningKey (C.verifyingKey x) draw =
      .ok sessionKey) :
    Execution (AuthAllowed x ac C S)
      (handshake x C S k certIdentity passed shown draw sessionId sessionKey start now) := by
  refine .cons ?_ (.cons ?_ (.cons ?_ (.cons ?_ .nil)))
  · exact serverSession_allowed hx (List.mem_cons_of_mem _ List.mem_cons_self)
      (by simp [AuthEvent.sessionRun]) (by simp [AuthEvent.drawnId]) rfl rfl rfl hderive
      ⟨0, now, _, _, List.mem_cons_self, rfl⟩
  · exact clientRespond_allowed hx rfl (by simp) (by simp [AuthEvent.respondedRun]) hstart hend
      hhonest
  · exact ⟨by simp [AuthEvent.challengedRun], by simp [AuthEvent.drawn, AuthEvent.given], draw,
      clientHello, rfl⟩
  · intro e he
    contradiction

theorem handshake_unrelayed {certIdentity : String} {passed : Option String} {draw : Fixed 32}
    {sessionId : Fixed 16} {sessionKey : Fixed 32} {start now : Nat} :
    Execution (Unrelayed x C S) (handshake x C S S.serverSigningKey certIdentity passed passed draw
      sessionId sessionKey start now) := by
  refine .cons ?_ (.cons ?_ (.cons trivial (.cons trivial .nil)))
  · intro _ before challenge client t given answer pinned identity _ _ _ hstart
    simp only [List.mem_cons, reduceCtorEq, List.not_mem_nil, false_or, or_false] at hstart
    exact (AuthEvent.clientStart.inj hstart).2.2.symm
  · intro _
    exact ⟨passed, List.mem_cons_of_mem _ List.mem_cons_self⟩

end Building

section Sample

def sampleAuth : AuthCrates where
  x25519 := sampleEnvelope.x25519
  deriveKey context material := sampleHash (intoBytes context ++ material)

def sampleServer : SessionManager := .withSigningKey sampleCrates "server" (sampleKey 2) 1000

def sampleDraw (b : UInt8) : Fixed 32 := sampleHash [b]

def sampleSessionId : Fixed 16 := ⟨List.replicate 16 4, List.length_replicate⟩

theorem sample_derives (challenge : Fixed 32) : ∃ sessionKey, deriveSessionKey sampleCrates
    sampleAuth sampleServer.serverSigningKey ((sampleKey 1).verifyingKey sampleCrates) challenge =
      .ok sessionKey := by
  have hshared : (sampleAuth.x25519 (sampleKey 2)
      ((sampleKey 1).verifyingKey sampleCrates)).val.all (· == 0) = false := by decide
  exact ⟨_, bind_eq_ok.mpr ⟨(), failWhen_eq_ok.mpr hshared, rfl⟩⟩

/-- A client that only contacts another server gets a session at this one, under an identity that
it never used: the other server passes the challenge on, and the response back. -/
theorem relayed_session : ∃ run now response session confirm earlier,
    Execution (AuthAllowed sampleCrates sampleAuth (sampleKey 1) sampleServer)
        (.serverSession run now response session confirm :: earlier) ∧
      session.clientPublicKey = (sampleKey 1).verifyingKey sampleCrates ∧
      session.clientIdentity = some "mallory" ∧
      ∀ client pinned identity, .clientStart client pinned identity ∈ earlier →
        pinned ≠ sampleServer.publicKey sampleCrates ∧ identity ≠ some "mallory" := by
  obtain ⟨sessionKey, hderive⟩ := sample_derives (sampleDraw 5)
  have hrun : Execution (AuthAllowed sampleCrates sampleAuth (sampleKey 1) sampleServer)
      (handshake sampleCrates (sampleKey 1) sampleServer (sampleKey 3) "other" (some "alice")
        (some "mallory") (sampleDraw 5) sampleSessionId sessionKey 1000 2000) :=
    handshake_execution sampleCrates_signsLawfully (by omega) (by omega) (by decide) hderive
  refine ⟨_, _, _, _, _, _, hrun, rfl, rfl, ?_⟩
  intro client pinned identity hmem
  simp only [List.mem_cons, reduceCtorEq, List.not_mem_nil, false_or, or_false] at hmem
  obtain ⟨-, rfl, rfl⟩ := AuthEvent.clientStart.inj hmem
  decide

/-- A client pinned to the server, whose messages are passed on as they are. -/
def ownHandshake (sessionKey : Fixed 32) : List AuthEvent :=
  handshake sampleCrates (sampleKey 1) sampleServer (sampleKey 2) "server" (some "alice")
    (some "alice") (sampleDraw 5) sampleSessionId sessionKey 1000 2000

theorem ownHandshake_execution : ∃ sessionKey,
    Execution (AuthAllowed sampleCrates sampleAuth (sampleKey 1) sampleServer)
      (ownHandshake sessionKey) := by
  obtain ⟨sessionKey, hderive⟩ := sample_derives (sampleDraw 5)
  exact ⟨sessionKey, handshake_execution sampleCrates_signsLawfully (by omega) (by omega)
    (by decide) hderive⟩

theorem own_session_sample : ∃ response session confirm earlier,
    Execution (fun e h => AuthAllowed sampleCrates sampleAuth (sampleKey 1) sampleServer e h ∧
        Unrelayed sampleCrates (sampleKey 1) sampleServer e h)
      (.serverSession 0 2000 response session confirm :: earlier) ∧
    session.clientPublicKey = (sampleKey 1).verifyingKey sampleCrates ∧
    session.clientIdentity = some "alice" ∧
    ∃ before challenge client t given answer, .serverChallenge 0 before challenge ∈ earlier ∧
      .clientStart client (sampleServer.publicKey sampleCrates) session.clientIdentity ∈ earlier ∧
      .clientRespond client t given answer ∈ earlier ∧ given.challenge = challenge.challenge := by
  obtain ⟨sessionKey, hallowed⟩ := ownHandshake_execution
  have hrun := hallowed.and (handshake_unrelayed (S := sampleServer))
  exact ⟨_, _, _, _, hrun, rfl, rfl,
    session_speaks_for_client sampleCrates_signsLawfully hrun (List.nil_append _).symm rfl⟩

end Sample

end Sealedge
