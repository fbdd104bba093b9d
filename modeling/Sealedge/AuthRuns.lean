import Sealedge.AuthProtocol
import Sealedge.Delimited
import Sealedge.EventTrace

namespace Sealedge

open Fallible Numerals Delimited EventTrace

/-- What happens in the runs of the honest client and the honest server. A client run begins, takes
a challenge and responds, and takes a confirmation; a server run sends a challenge, and takes a
response and makes a session. -/
inductive AuthEvent
  | clientStart (run : Nat) (pinned : Bytes) (identity : Option String)
  | clientRespond (run now : Nat) (challenge : AuthChallenge) (response : ClientAuthResponse)
  | clientDone (run now : Nat) (confirm : ServerAuthConfirm) (result : ClientAuthResult)
  | serverChallenge (run now : Nat) (challenge : AuthChallenge)
  | serverSession (run now : Nat) (response : ClientAuthResponse) (session : SessionInfo)
      (confirm : ServerAuthConfirm)
  deriving DecidableEq

namespace AuthEvent

def startedRun : AuthEvent → Option Nat
  | clientStart run _ _ => some run
  | _ => none

def respondedRun : AuthEvent → Option Nat
  | clientRespond run _ _ _ => some run
  | _ => none

def doneRun : AuthEvent → Option Nat
  | clientDone run _ _ _ => some run
  | _ => none

def challengedRun : AuthEvent → Option Nat
  | serverChallenge run _ _ => some run
  | _ => none

def sessionRun : AuthEvent → Option Nat
  | serverSession run _ _ _ _ => some run
  | _ => none

/-- The challenge bytes that the client was given. -/
def given : AuthEvent → Option (Fixed 32)
  | clientRespond _ _ challenge _ => some challenge.challenge
  | _ => none

/-- The challenge bytes that the server drew. -/
def drawn : AuthEvent → Option (Fixed 32)
  | serverChallenge _ _ challenge => some challenge.challenge
  | _ => none

def drawnId : AuthEvent → Option (Fixed 16)
  | serverSession _ _ _ session _ => some session.sessionId
  | _ => none

end AuthEvent

/-- The session manager after the sessions of a history. -/
def SessionManager.after (m : SessionManager) : List AuthEvent → SessionManager
  | [] => m
  | .serverSession _ _ _ session _ :: earlier => (m.after earlier).insertSession session
  | _ :: earlier => m.after earlier

theorem SessionManager.after_signingKey (m : SessionManager) (h : List AuthEvent) :
    (m.after h).serverSigningKey = m.serverSigningKey := by
  induction h with
  | nil => rfl
  | cons e h ih =>
    cases e with
    | serverSession run now response session confirm => exact ih
    | _ => exact ih

section Runs

variable (x : Crates) (ac : AuthCrates) (C : DeviceKeypair) (S : SessionManager)

/-- The public key of the honest server. -/
def SessionManager.publicKey (m : SessionManager) : Bytes :=
  m.serverSigningKey.verifyingKey x

/-- What the honest keys have signed: the client challenges that it was given, the server its
certificates and the data of its sessions. -/
def SignedIn (h : List AuthEvent) (key msg : Bytes) : Prop :=
  (key = C.verifyingKey x ∧ ∃ run now challenge response,
    .clientRespond run now challenge response ∈ h ∧ msg = challenge.challenge.val) ∨
  key = S.publicKey x ∧
    ((∃ identity validFrom validUntil,
      msg = intoBytes (certData identity key validFrom validUntil)) ∨
    ∃ run now response session confirm, .serverSession run now response session confirm ∈ h ∧
      msg = intoBytes (sessionData session.sessionId session.clientPublicKey session.expiresAt))

/-- Signatures are unforgeable: one that passes under an honest key was made with it. -/
def Unforged (h : List AuthEvent) (key msg sig : Bytes) : Prop :=
  x.ed25519Verify key msg sig = true → key = C.verifyingKey x ∨ key = S.publicKey x →
    SignedIn x C S h key msg

/-- The steps of the handshakes in a network that delivers whatever messages it likes. The random
values are fresh: a challenge was neither drawn nor given to a client before, and a session
identifier was not drawn before. -/
def AuthAllowed : AuthEvent → List AuthEvent → Prop
  | .clientStart run _ _, h => ∀ e ∈ h, e.startedRun ≠ some run
  | .clientRespond run now challenge response, h =>
    (∀ e ∈ h, e.respondedRun ≠ some run) ∧
    (∃ pinned identity, .clientStart run pinned identity ∈ h ∧
      clientOnChallenge x now C identity pinned (.serverChallenge challenge) =
        .ok (challenge, response)) ∧
    Unforged x C S h challenge.serverCert.publicKey challenge.serverCert.data
      challenge.serverCert.signature
  | .clientDone run _ confirm result, h =>
    (∀ e ∈ h, e.doneRun ≠ some run) ∧
    ∃ before challenge response, .clientRespond run before challenge response ∈ h ∧
      clientOnReply x ac C challenge (.serverConfirm confirm) = .ok result ∧
      Unforged x C S h challenge.serverCert.publicKey
        (intoBytes (sessionData confirm.sessionId (C.verifyingKey x) confirm.sessionExpiresAt))
        confirm.sessionSignature
  | .serverChallenge run now challenge, h =>
    (∀ e ∈ h, e.challengedRun ≠ some run) ∧
    (∀ e ∈ h, e.drawn ≠ some challenge.challenge ∧ e.given ≠ some challenge.challenge) ∧
    ∃ bytes hello, serverOnHello (S.after h) bytes now hello = .ok challenge
  | .serverSession run now response session confirm, h =>
    (∀ e ∈ h, e.sessionRun ≠ some run) ∧ (∀ e ∈ h, e.drawnId ≠ some session.sessionId) ∧
    ∃ before challenge, .serverChallenge run before challenge ∈ h ∧
      (∃ sessionId later, serverOnAuth x ac (S.after h) challenge now sessionId
        (.clientAuth response) = (some (.serverConfirm confirm), .ok (session, later))) ∧
      Unforged x C S h response.clientPublicKey challenge.challenge.val
        response.challengeSignature

end Runs

section Texts

theorem colon_not_mem_hexEncode (bytes : Bytes) : ':' ∉ (hexEncode bytes).toList := by
  intro hmem
  rw [hexEncode, String.toList_ofList] at hmem
  obtain ⟨b, -, hb⟩ := List.mem_flatMap.mp hmem
  have hdigits : ∀ d < 16, Nat.digitChar d ≠ ':' := by decide
  have hlt := b.toNat_lt
  rcases List.mem_pair.mp hb with h | h
  · exact hdigits _ (by omega) h.symm
  · exact hdigits _ (by omega) h.symm

theorem colon_not_mem_repr (n : Nat) : ':' ∉ n.repr.toList := by
  intro hmem
  have hdigit := repr_isDigit hmem
  contradiction

theorem sessionData_inj {id id' : Fixed 16} {key key' : Bytes} {expires expires' : Nat}
    (h : sessionData id key expires = sessionData id' key' expires') :
    id = id' ∧ key = key' ∧ expires = expires' := by
  have hhex : ∀ bytes, Bare (· = ':') (hexEncode bytes) := by
    rintro bytes c hc rfl
    exact colon_not_mem_hexEncode bytes hc
  have hcolon : ∀ rest, HeadIs (· = ':') (":" ++ rest) := by
    intro rest
    exact ⟨':', rest.toList, by simp, rfl⟩
  simp only [sessionData, String.append_assoc] at h
  obtain ⟨hid, h⟩ := bare_append_inj (hhex _) (hhex _) (hcolon _) (hcolon _) h
  obtain ⟨hkey, h⟩ := bare_append_inj (hhex _) (hhex _) (hcolon _) (hcolon _)
    ((String.append_right_inj _).mp h)
  exact ⟨Subtype.ext (hexEncode_injective hid), hexEncode_injective hkey,
    repr_injective ((String.append_right_inj _).mp h)⟩

/-- The data of a session has two colons, those of a certificate at least three. -/
theorem sessionData_ne_certData (id : Fixed 16) (key : Bytes) (expires : Nat) (identity : String)
    (publicKey : Bytes) (validFrom validUntil : Nat) :
    sessionData id key expires ≠ certData identity publicKey validFrom validUntil := by
  intro h
  have hcount := congrArg (fun s : String => s.toList.count ':') h
  have hhex := fun bytes => List.count_eq_zero.mpr (colon_not_mem_hexEncode bytes)
  have hdec := fun n => List.count_eq_zero.mpr (colon_not_mem_repr n)
  simp only [sessionData, certData, String.toList_append, List.count_append, hhex, hdec] at hcount
  have hone : (":" : String).toList.count ':' = 1 := by decide
  omega

theorem length_le_intoBytes (s : String) : s.toList.length ≤ (intoBytes s).length := by
  rw [intoBytes_eq_flatMap]
  induction s.toList with
  | nil => exact Nat.le_refl 0
  | cons c cs ih =>
    have hc := c.utf8Size_pos
    rw [List.flatMap_cons, List.length_append, String.length_utf8EncodeChar, List.length_cons]
    omega

theorem sessionData_ne_challenge (id : Fixed 16) (key : Bytes) (expires : Nat)
    (challenge : Fixed 32) : intoBytes (sessionData id key expires) ≠ challenge.val := by
  intro h
  have hlen := length_le_intoBytes (sessionData id key expires)
  have hid := Numerals.hexEncode_length id.val
  have hcolon : (":" : String).toList.length = 1 := by decide
  rw [h, challenge.property] at hlen
  simp only [sessionData, String.toList_append, List.length_append, hcolon, id.property] at hlen hid
  omega

theorem certData_ne_challenge {publicKey : Bytes} (hkey : publicKey.length = 32)
    (identity : String) (validFrom validUntil : Nat) (challenge : Fixed 32) :
    intoBytes (certData identity publicKey validFrom validUntil) ≠ challenge.val := by
  intro h
  have hlen := length_le_intoBytes (certData identity publicKey validFrom validUntil)
  have hhex := Numerals.hexEncode_length publicKey
  rw [h, challenge.property] at hlen
  simp only [certData, String.toList_append, List.length_append] at hlen
  omega

end Texts

section Steps

variable {x : Crates} {ac : AuthCrates} {C : DeviceKeypair} {S : SessionManager}

variable (x C) in
/-- The response of the client to a challenge. -/
def clientResponse (now : Nat) (identity : Option String) (challenge : AuthChallenge) :
    ClientAuthResponse where
  clientPublicKey := C.verifyingKey x
  challengeSignature := x.ed25519Sign C.secret challenge.challenge.val
  clientIdentity := identity
  timestamp := now

theorem clientOnChallenge_eq_ok {now : Nat} {identity : Option String} {pinned : Bytes}
    {challenge challenge' : AuthChallenge} {response : ClientAuthResponse} :
    clientOnChallenge x now C identity pinned (.serverChallenge challenge) =
        .ok (challenge', response) ↔
      challenge.serverCert.verify x now = .ok () ∧ challenge.serverCert.publicKey = pinned ∧
        challenge' = challenge ∧ response = clientResponse x C now identity challenge := by
  simp only [clientOnChallenge, ServerCertificate.verifyPinned, bind_eq_ok, mapError_eq_ok,
    failWhen_eq_ok, exists_const, bne_eq_false_iff_eq, pure, Except.pure, Except.ok.injEq,
    Prod.mk.injEq]
  constructor
  · rintro ⟨u, hverify, hpinned, rfl, rfl⟩
    exact ⟨hverify, hpinned, rfl, rfl⟩
  · rintro ⟨hverify, hpinned, rfl, rfl⟩
    exact ⟨(), hverify, hpinned, rfl, rfl⟩

theorem clientOnReply_eq_ok {challenge : AuthChallenge} {confirm : ServerAuthConfirm}
    {result : ClientAuthResult} :
    clientOnReply x ac C challenge (.serverConfirm confirm) = .ok result ↔
      x.ed25519Key challenge.serverCert.publicKey = .ok () ∧
        x.ed25519Verify challenge.serverCert.publicKey (intoBytes (sessionData confirm.sessionId
          (C.verifyingKey x) confirm.sessionExpiresAt)) confirm.sessionSignature = true ∧
        deriveSessionKey x ac C challenge.serverCert.publicKey challenge.challenge =
          .ok result.sessionKey ∧
        result.sessionId = confirm.sessionId ∧
        result.serverCertificate = challenge.serverCert := by
  simp only [clientOnReply, bind_eq_ok, failWhen_eq_ok, exists_const, Bool.not_eq_false', pure,
    Except.pure, Except.ok.injEq]
  constructor
  · rintro ⟨u, hkey, hverify, sessionKey, hderive, rfl⟩
    exact ⟨hkey, hverify, hderive, rfl, rfl⟩
  · rintro ⟨hkey, hverify, hderive, hid, hcert⟩
    refine ⟨(), hkey, hverify, result.sessionKey, hderive, ?_⟩
    rw [← hid, ← hcert]

/-- The session that a response makes. -/
def sessionOf (response : ClientAuthResponse) (now : Nat) (sessionId : Fixed 16)
    (sessionKey : Fixed 32) : SessionInfo where
  sessionId
  clientPublicKey := response.clientPublicKey
  clientIdentity := response.clientIdentity
  createdAt := now
  expiresAt := now + sessionTimeout
  authenticated := true
  sessionKey

theorem authenticateClient_eq_ok {m later : SessionManager} {challenge : AuthChallenge}
    {response : ClientAuthResponse} {now : Nat} {sessionId : Fixed 16} {session : SessionInfo} :
    m.authenticateClient x ac challenge response now sessionId = .ok (session, later) ↔
      response.timestamp ≤ now + futureToleranceSecs ∧
        now - response.timestamp ≤ pastToleranceSecs ∧
        x.ed25519Key response.clientPublicKey = .ok () ∧
        x.ed25519Verify response.clientPublicKey challenge.challenge.val
          response.challengeSignature = true ∧
        ∃ sessionKey, deriveSessionKey x ac m.serverSigningKey response.clientPublicKey
            challenge.challenge = .ok sessionKey ∧
          session = sessionOf response now sessionId sessionKey ∧
          later = m.insertSession session := by
  simp only [SessionManager.authenticateClient, bind_eq_ok, failWhen_eq_ok, mapError_eq_ok,
    exists_const, decide_eq_false_iff_not, Nat.not_lt, Bool.not_eq_false', pure, Except.pure,
    Except.ok.injEq, Prod.mk.injEq]
  constructor
  · rintro ⟨hfuture, hpast, u, hkey, hverify, sessionKey, hderive, rfl, rfl⟩
    exact ⟨hfuture, hpast, hkey, hverify, sessionKey, hderive, rfl, rfl⟩
  · rintro ⟨hfuture, hpast, hkey, hverify, sessionKey, hderive, rfl, rfl⟩
    exact ⟨hfuture, hpast, (), hkey, hverify, sessionKey, hderive, rfl, rfl⟩

theorem serverOnAuth_eq_ok {m later : SessionManager} {challenge : AuthChallenge}
    {response : ClientAuthResponse} {now : Nat} {sessionId : Fixed 16} {session : SessionInfo}
    {confirm : ServerAuthConfirm} :
    serverOnAuth x ac m challenge now sessionId (.clientAuth response) =
        (some (.serverConfirm confirm), .ok (session, later)) ↔
      m.authenticateClient x ac challenge response now sessionId = .ok (session, later) ∧
        confirm = later.createAuthConfirm x session := by
  cases hauth : m.authenticateClient x ac challenge response now sessionId with
  | error e => simp [serverOnAuth, hauth]
  | ok p =>
    obtain ⟨made, after⟩ := p
    simp only [serverOnAuth, hauth, Prod.mk.injEq, Option.some.injEq,
      AuthMessage.serverConfirm.injEq, Except.ok.injEq]
    constructor
    · rintro ⟨rfl, rfl, rfl⟩
      exact ⟨⟨rfl, rfl⟩, rfl⟩
    · rintro ⟨⟨rfl, rfl⟩, rfl⟩
      exact ⟨rfl, rfl, rfl⟩

theorem started_fresh {e : AuthEvent} {h : List AuthEvent} {k : Nat}
    (hallowed : AuthAllowed x ac C S e h) (hk : e.startedRun = some k) :
    ∀ e' ∈ h, e'.startedRun ≠ some k := by
  cases e with
  | clientStart run pinned identity =>
    obtain rfl := Option.some.inj hk
    exact hallowed
  | _ => contradiction

theorem challenged_fresh {e : AuthEvent} {h : List AuthEvent} {k : Nat}
    (hallowed : AuthAllowed x ac C S e h) (hk : e.challengedRun = some k) :
    ∀ e' ∈ h, e'.challengedRun ≠ some k := by
  cases e with
  | serverChallenge run now challenge =>
    obtain rfl := Option.some.inj hk
    exact hallowed.1
  | _ => contradiction

theorem drawnId_fresh {e : AuthEvent} {h : List AuthEvent} {k : Fixed 16}
    (hallowed : AuthAllowed x ac C S e h) (hk : e.drawnId = some k) :
    ∀ e' ∈ h, e'.drawnId ≠ some k := by
  cases e with
  | serverSession run now response session confirm =>
    obtain rfl := Option.some.inj hk
    exact hallowed.2.1
  | _ => contradiction

/-- What the client's key has signed with the length of a challenge is a challenge that a client
run was given. -/
theorem given_of_signed (hx : x.SignsLawfully) {h : List AuthEvent} {challenge : Fixed 32}
    (hsigned : SignedIn x C S h (C.verifyingKey x) challenge.val) :
    ∃ run now given response, .clientRespond run now given response ∈ h ∧
      given.challenge = challenge := by
  rcases hsigned with ⟨-, run, now, given, response, hmem, heq⟩ | ⟨-, hserver⟩
  · exact ⟨run, now, given, response, hmem, Subtype.ext heq.symm⟩
  · rcases hserver with ⟨identity, validFrom, validUntil, heq⟩ |
      ⟨run, now, response, session, confirm, -, heq⟩
    · exact absurd heq.symm
        (certData_ne_challenge (hx.publicLength C.secret) identity validFrom validUntil challenge)
    · exact absurd heq.symm (sessionData_ne_challenge _ _ _ challenge)

/-- What the server's key has signed with the form of session data belongs to a session. -/
theorem session_of_signed {h : List AuthEvent} {id : Fixed 16} {client : Bytes} {expires : Nat}
    (hsigned : SignedIn x C S h (S.publicKey x) (intoBytes (sessionData id client expires))) :
    ∃ run now response session confirm, .serverSession run now response session confirm ∈ h ∧
      session.sessionId = id ∧ session.clientPublicKey = client ∧ session.expiresAt = expires := by
  rcases hsigned with ⟨-, run, now, given, response, -, heq⟩ | ⟨-, hserver⟩
  · exact absurd heq (sessionData_ne_challenge _ _ _ given.challenge)
  · rcases hserver with ⟨identity, validFrom, validUntil, heq⟩ |
      ⟨run, now, response, session, confirm, hmem, heq⟩
    · exact absurd (intoBytes_injective heq) (sessionData_ne_certData _ _ _ _ _ _ _)
    · obtain ⟨rfl, rfl, rfl⟩ := sessionData_inj (intoBytes_injective heq)
      exact ⟨run, now, response, session, confirm, hmem, rfl, rfl, rfl⟩

/-- What stands behind a session: the challenge of its run, the response that made it, and, when it
is for the client's key, a client run that was given the challenge. -/
structure SessionMade (x : Crates) (ac : AuthCrates) (C : DeviceKeypair) (S : SessionManager)
    (h : List AuthEvent) (challenge : AuthChallenge) (response : ClientAuthResponse)
    (session : SessionInfo) (confirm : ServerAuthConfirm) : Prop where
  client : session.clientPublicKey = response.clientPublicKey
  identity : session.clientIdentity = response.clientIdentity
  derived : deriveSessionKey x ac S.serverSigningKey session.clientPublicKey challenge.challenge =
    .ok session.sessionKey
  confirmId : confirm.sessionId = session.sessionId
  confirmExpires : confirm.sessionExpiresAt = session.expiresAt
  given : session.clientPublicKey = C.verifyingKey x → ∃ run now given answer,
    .clientRespond run now given answer ∈ h ∧ given.challenge = challenge.challenge

theorem session_made (hx : x.SignsLawfully) {h : List AuthEvent} {run now : Nat}
    {response : ClientAuthResponse} {session : SessionInfo} {confirm : ServerAuthConfirm}
    (hallowed : AuthAllowed x ac C S (.serverSession run now response session confirm) h) :
    ∃ before challenge, .serverChallenge run before challenge ∈ h ∧
      SessionMade x ac C S h challenge response session confirm := by
  obtain ⟨-, -, before, challenge, hchallenge, ⟨sessionId, later, hauth⟩, hunforged⟩ := hallowed
  replace hauth := serverOnAuth_eq_ok.mp hauth
  obtain ⟨hauth, rfl⟩ := hauth
  obtain ⟨-, -, -, hverify, sessionKey, hderive, rfl, rfl⟩ := authenticateClient_eq_ok.mp hauth
  rw [S.after_signingKey] at hderive
  refine ⟨before, challenge, hchallenge, rfl, rfl, hderive, rfl, rfl, ?_⟩
  intro hclient
  have hsigned := hunforged hverify (Or.inl hclient)
  have hkey : response.clientPublicKey = C.verifyingKey x := hclient
  rw [hkey] at hsigned
  exact given_of_signed hx hsigned

theorem respond_started {h : List AuthEvent} (hrun : Execution (AuthAllowed x ac C S) h)
    {run now : Nat} {challenge : AuthChallenge} {response : ClientAuthResponse}
    (hmem : .clientRespond run now challenge response ∈ h) :
    ∃ pinned identity, .clientStart run pinned identity ∈ h ∧
      challenge.serverCert.publicKey = pinned := by
  obtain ⟨earlier, hallowed, -, hsub⟩ := hrun.allowed_of_mem hmem
  obtain ⟨-, ⟨pinned, identity, hstart, hok⟩, -⟩ := hallowed
  exact ⟨pinned, identity, hsub hstart, (clientOnChallenge_eq_ok.mp hok).2.1⟩

theorem start_unique {h : List AuthEvent} (hrun : Execution (AuthAllowed x ac C S) h) {run : Nat}
    {pinned pinned' : Bytes} {identity identity' : Option String}
    (hmem : .clientStart run pinned identity ∈ h) (hmem' : .clientStart run pinned' identity' ∈ h) :
    pinned = pinned' ∧ identity = identity' := by
  have heq := hrun.unique AuthEvent.startedRun (fun _ _ _ => started_fresh) hmem hmem' rfl rfl
  obtain ⟨-, hpinned, hidentity⟩ := AuthEvent.clientStart.inj heq
  exact ⟨hpinned, hidentity⟩

theorem challenge_unique {h : List AuthEvent} (hrun : Execution (AuthAllowed x ac C S) h)
    {run now now' : Nat} {challenge challenge' : AuthChallenge}
    (hmem : .serverChallenge run now challenge ∈ h)
    (hmem' : .serverChallenge run now' challenge' ∈ h) : challenge = challenge' := by
  have heq := hrun.unique AuthEvent.challengedRun (fun _ _ _ => challenged_fresh) hmem hmem' rfl rfl
  exact (AuthEvent.serverChallenge.inj heq).2.2

theorem session_unique {h : List AuthEvent} (hrun : Execution (AuthAllowed x ac C S) h)
    {run run' now now' : Nat} {response response' : ClientAuthResponse}
    {session session' : SessionInfo} {confirm confirm' : ServerAuthConfirm}
    (hmem : .serverSession run now response session confirm ∈ h)
    (hmem' : .serverSession run' now' response' session' confirm' ∈ h)
    (hid : session.sessionId = session'.sessionId) : run = run' ∧ session = session' := by
  have hname : AuthEvent.drawnId (.serverSession run now response session confirm) =
      some session'.sessionId := congrArg some hid
  have heq := hrun.unique AuthEvent.drawnId (fun _ _ _ => drawnId_fresh) hmem hmem' hname rfl
  obtain ⟨hrun, -, -, hsession, -⟩ := AuthEvent.serverSession.inj heq
  exact ⟨hrun, hsession⟩

end Steps

end Sealedge
