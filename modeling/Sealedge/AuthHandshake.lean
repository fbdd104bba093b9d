import Mathlib.Data.Set.Function
import Sealedge.AuthAgreement
import Sealedge.AuthWire
import Sealedge.SessionTable

namespace Sealedge

open Fallible Bincode Conversation

section Programs

variable (x : Crates) (ac : AuthCrates)

/-- `server_authenticate` from the response of the client on. -/
def serverAwaitAuth (m : SessionManager) (challenge : AuthChallenge) (now : Nat)
    (sessionId : Fixed 16) : Party String (SessionInfo × SessionManager) := do
  let auth ← receive "client auth" "Client auth message too large"
  Party.done (failWhen (auth.msgType != .clientAuth) "Expected ClientAuth message")
  let response ← Party.done (auth.deserializePayload ClientAuthResponse.get)
  match m.authenticateClient x ac challenge response now sessionId with
  | .ok (session, later) => do
    sendMessage (.serverConfirm (later.createAuthConfirm x session))
    pure (session, later)
  | .error e => do
    sendMessage (.authError e)
    Party.fail e

/-- The server draws the challenge and the session id, and reads the clock for the challenge and
again for the response. -/
def serverAuthenticate (m : SessionManager) (draw : Fixed 32) (challengedAt now : Nat)
    (sessionId : Fixed 16) : Party String (SessionInfo × SessionManager) := do
  let hello ← receive "client hello" "Client hello message too large"
  Party.done (failWhen (hello.msgType != .clientHello) "Expected ClientHello message")
  let challenge := m.createChallenge draw challengedAt
  sendMessage (.serverChallenge challenge)
  serverAwaitAuth x ac m challenge now sessionId

/-- `client_authenticate` from the answer of the server on. -/
def clientAwaitReply (clientSigningKey : DeviceKeypair) (challenge : AuthChallenge) :
    Party String ClientAuthResult := do
  let responseMsg ← receive "server response" "Server response message too large"
  match responseMsg.msgType with
  | .serverConfirm => do
    let confirm ← Party.done (responseMsg.deserializePayload ServerAuthConfirm.get)
    Party.done (clientOnReply x ac clientSigningKey challenge (.serverConfirm confirm))
  | .authError => do
    let text ← Party.done (responseMsg.deserializePayload getString)
    Party.done (clientOnReply x ac clientSigningKey challenge (.authError text))
  | _ => Party.fail "Unexpected server response type"

/-- `client_authenticate` from the challenge on. -/
def clientAwaitChallenge (clientSigningKey : DeviceKeypair) (clientIdentity : Option String)
    (serverPubkey : Bytes) (now : Nat) : Party String ClientAuthResult := do
  let challengeMsg ← receive "server challenge" "Server challenge message too large"
  Party.done (failWhen (challengeMsg.msgType != .serverChallenge)
    "Expected ServerChallenge message")
  let offered ← Party.done (challengeMsg.deserializePayload AuthChallenge.get)
  let (challenge, response) ← Party.done (clientOnChallenge x now clientSigningKey clientIdentity
    serverPubkey (.serverChallenge offered))
  sendMessage (.clientAuth response)
  clientAwaitReply x ac clientSigningKey challenge

def clientAuthenticate (clientSigningKey : DeviceKeypair) (clientIdentity : Option String)
    (serverPubkey : Bytes) (now : Nat) : Party String ClientAuthResult := do
  sendMessage clientHello
  clientAwaitChallenge x ac clientSigningKey clientIdentity serverPubkey now

end Programs

/-- A client and a server that are about to talk: their keys, clocks and random draws. -/
structure Handshake where
  client : DeviceKeypair
  clientIdentity : Option String
  clientNow : Nat
  manager : SessionManager
  draw : Fixed 32
  challengedAt : Nat
  authenticatedAt : Nat
  sessionId : Fixed 16

/-- The certificate is one for the manager's own key, under that key's signature. -/
structure SessionManager.Certified (x : Crates) (m : SessionManager) : Prop where
  publicKey : m.serverCertificate.publicKey = m.publicKey x
  signature : m.serverCertificate.signature =
    x.ed25519Sign m.serverSigningKey.secret m.serverCertificate.data

theorem SessionManager.withSigningKey_certified (x : Crates) (identity : String)
    (k : DeviceKeypair) (now : Nat) : (withSigningKey x identity k now).Certified x :=
  ⟨rfl, rfl⟩

namespace Handshake

def challenge (h : Handshake) : AuthChallenge :=
  h.manager.createChallenge h.draw h.challengedAt

section

variable (x : Crates) (ac : AuthCrates) (h : Handshake)

def response : ClientAuthResponse :=
  clientResponse x h.client h.clientNow h.clientIdentity h.challenge

/-- Both programs before their first step, the client pinned to the server's key. -/
def start : Config String String ClientAuthResult (SessionInfo × SessionManager) where
  left := clientAuthenticate x ac h.client h.clientIdentity (h.manager.publicKey x) h.clientNow
  toLeft := []
  right := serverAuthenticate x ac h.manager h.draw h.challengedAt h.authenticatedAt h.sessionId
  toRight := []

/-- Clock readings fit the seconds of a `SystemTime`. -/
structure Honest : Prop where
  certified : h.manager.Certified x
  started : h.manager.serverCertificate.validFrom ≤ h.clientNow
  unexpired : h.clientNow ≤ h.manager.serverCertificate.validUntil
  challengeFits : (AuthMessage.serverChallenge h.challenge).sent.bincode.length ≤ maxMessageSize
  responseFits : (AuthMessage.clientAuth (h.response x)).sent.bincode.length ≤ maxMessageSize
  nonzero : (ac.x25519 h.client (h.manager.publicKey x)).val.all (· == 0) = false
  notAhead : h.clientNow ≤ h.authenticatedAt + futureToleranceSecs
  notBehind : h.authenticatedAt ≤ h.clientNow + pastToleranceSecs
  clientClock : h.clientNow < 2 ^ 63
  challengeClock : h.challengedAt < 2 ^ 63
  serverClock : h.authenticatedAt < 2 ^ 63
  validUntil : h.manager.serverCertificate.validUntil < 2 ^ 64

/-- What the session key is derived from. -/
def keyMaterial : Bytes :=
  (ac.x25519 h.client (h.manager.publicKey x)).val ++ h.draw.val ++
    sortedKeys (h.client.verifyingKey x) (h.manager.publicKey x)

def sessionKey : Fixed 32 :=
  ac.deriveKey "SEALEDGE_SESSION_KEY_V1" (h.keyMaterial x ac)

def session : SessionInfo :=
  sessionOf (h.response x) h.authenticatedAt h.sessionId (h.sessionKey x ac)

def confirm : ServerAuthConfirm :=
  (h.manager.insertSession (h.session x ac)).createAuthConfirm x (h.session x ac)

def result : ClientAuthResult where
  sessionId := h.sessionId
  serverCertificate := h.manager.serverCertificate
  sessionKey := h.sessionKey x ac

/-- Both programs after they have returned. -/
def finish : Config String String ClientAuthResult (SessionInfo × SessionManager) where
  left := .done (.ok (h.result x ac))
  toLeft := []
  right := .done (.ok (h.session x ac, h.manager.insertSession (h.session x ac)))
  toRight := []

end

/-- The two handshakes are between the same public keys, in either role. -/
def SameKeys (x : Crates) (h h' : Handshake) : Prop :=
  (h.client.verifyingKey x = h'.client.verifyingKey x ∧
      h.manager.publicKey x = h'.manager.publicKey x) ∨
    (h.client.verifyingKey x = h'.manager.publicKey x ∧
      h.manager.publicKey x = h'.client.verifyingKey x)

end Handshake

/-- Diffie-Hellman commutes on the converted keys. -/
def AuthCrates.Commutes (x : Crates) (ac : AuthCrates) : Prop :=
  ∀ a b : DeviceKeypair, ac.x25519 a (b.verifyingKey x) = ac.x25519 b (a.verifyingKey x)

section Messages

variable {x : Crates} {ac : AuthCrates} {h : Handshake}

theorem SessionManager.Certified.verify (hx : x.SignsLawfully) {m : SessionManager}
    (hm : m.Certified x) {now : Nat} (hstart : m.serverCertificate.validFrom ≤ now)
    (hend : now ≤ m.serverCertificate.validUntil) :
    m.serverCertificate.verify x now = .ok () := by
  have hkey : x.ed25519Key (m.publicKey x) = .ok () := hx.publicKey m.serverSigningKey.secret
  have hverify : x.ed25519Verify (m.publicKey x) m.serverCertificate.data
      m.serverCertificate.signature = true := by
    rw [hm.signature]
    exact hx.verifies m.serverSigningKey.secret _
  simp only [ServerCertificate.verify, bind_eq_ok, failWhen_eq_ok, mapError_eq_ok, exists_const,
    Bool.or_eq_false_iff, decide_eq_false_iff_not, Bool.not_eq_false', hm.publicKey]
  exact ⟨⟨Nat.not_lt.mpr hstart, Nat.not_lt.mpr hend⟩, (), hkey, hverify⟩

theorem putString_length (s : String) : (putString s).length = 8 + (intoBytes s).length := by
  rw [putString, putVec, List.length_append, leBytes_length]

theorem clientHello_fits : clientHello.sent.bincode.length ≤ maxMessageSize := by
  decide

theorem Handshake.confirm_fits (hx : x.SignsLawfully) (h : Handshake) :
    (AuthMessage.serverConfirm (h.confirm x ac)).sent.bincode.length ≤ maxMessageSize := by
  have hsignature : (h.confirm x ac).sessionSignature.length = 64 := hx.signatureLength _ _
  have hid := (h.confirm x ac).sessionId.property
  simp only [AuthMessage.sent, SentMessage.bincode, ServerAuthConfirm.bincode, putVec,
    List.length_append, leBytes_length, hsignature, hid]
  decide

namespace Handshake.Honest

theorem certificate_sized (hx : x.SignsLawfully) (hh : h.Honest x ac) :
    h.manager.serverCertificate.Sized := by
  have hlimit : maxMessageSize = 8192 := rfl
  have hstarted := hh.started
  have hclock := hh.clientClock
  have huntil := hh.validUntil
  refine ⟨?_, ?_, by omega, by omega, ?_⟩
  · have hfits := hh.challengeFits
    have hpayload := SentMessage.payload_le (AuthMessage.serverChallenge h.challenge).sent
    have hcert : (putString h.manager.serverCertificate.identity).length ≤
        (AuthMessage.serverChallenge h.challenge).sent.payload.length := by
      simp only [AuthMessage.sent, AuthChallenge.bincode, ServerCertificate.bincode,
        List.length_append]
      change _ ≤ _ + ((putString h.manager.serverCertificate.identity).length + _ + _)
      omega
    rw [putString_length] at hcert
    omega
  · rw [hh.certified.publicKey]
    exact hx.publicLength h.manager.serverSigningKey.secret
  · rw [hh.certified.signature]
    exact hx.signatureLength _ _

theorem challenge_read (hx : x.SignsLawfully) (hh : h.Honest x ac) :
    (AuthMessage.serverChallenge h.challenge).sent.deserializePayload AuthChallenge.get =
      .ok h.challenge := by
  have hclock := hh.challengeClock
  refine SentMessage.deserializePayload_eq_ok (AuthChallenge.reads (hh.certificate_sized hx) ?_)
  change h.challengedAt < 256 ^ 8
  omega

theorem response_read (hx : x.SignsLawfully) (hh : h.Honest x ac) :
    (AuthMessage.clientAuth (h.response x)).sent.deserializePayload ClientAuthResponse.get =
      .ok (h.response x) := by
  have hlimit : maxMessageSize = 8192 := rfl
  have hclock := hh.clientClock
  refine SentMessage.deserializePayload_eq_ok (ClientAuthResponse.reads ?_ ?_ ?_ ?_)
  · exact hx.publicLength h.client.secret
  · exact hx.signatureLength _ _
  · intro s hs
    have hfits := hh.responseFits
    have hpayload := SentMessage.payload_le (AuthMessage.clientAuth (h.response x)).sent
    have hidentity : (putString s).length ≤
        (AuthMessage.clientAuth (h.response x)).sent.payload.length := by
      simp only [AuthMessage.sent, ClientAuthResponse.bincode, hs, putOption, List.length_append,
        List.length_cons]
      omega
    rw [putString_length] at hidentity
    omega
  · change h.clientNow < 256 ^ 8
    omega

theorem confirm_read (hx : x.SignsLawfully) (hh : h.Honest x ac) :
    (AuthMessage.serverConfirm (h.confirm x ac)).sent.deserializePayload ServerAuthConfirm.get =
      .ok (h.confirm x ac) := by
  have hclock := hh.serverClock
  refine SentMessage.deserializePayload_eq_ok (ServerAuthConfirm.reads ?_ ?_)
  · change h.authenticatedAt + 1800 < 256 ^ 8
    omega
  · exact hx.signatureLength _ _

theorem client_accepts (hx : x.SignsLawfully) (hh : h.Honest x ac) :
    clientOnChallenge x h.clientNow h.client h.clientIdentity (h.manager.publicKey x)
      (.serverChallenge h.challenge) = .ok (h.challenge, h.response x) :=
  clientOnChallenge_eq_ok.mpr ⟨hh.certified.verify hx hh.started hh.unexpired,
    hh.certified.publicKey, rfl, rfl⟩

theorem client_derives (hh : h.Honest x ac) :
    deriveSessionKey x ac h.client (h.manager.publicKey x) h.draw = .ok (h.sessionKey x ac) :=
  bind_eq_ok.mpr ⟨(), failWhen_eq_ok.mpr hh.nonzero, rfl⟩

theorem server_accepts (hx : x.SignsLawfully) (hc : ac.Commutes x) (hh : h.Honest x ac) :
    h.manager.authenticateClient x ac h.challenge (h.response x) h.authenticatedAt h.sessionId =
      .ok (h.session x ac, h.manager.insertSession (h.session x ac)) := by
  have hahead := hh.notAhead
  have hbehind := hh.notBehind
  have htimestamp : (h.response x).timestamp = h.clientNow := rfl
  refine authenticateClient_eq_ok.mpr ⟨by omega, by omega, ?_, ?_, h.sessionKey x ac, ?_, rfl, rfl⟩
  · exact hx.publicKey h.client.secret
  · exact hx.verifies h.client.secret _
  · have hderives : deriveSessionKey x ac h.client (h.manager.serverSigningKey.verifyingKey x)
        h.draw = .ok (h.sessionKey x ac) := hh.client_derives
    rwa [deriveSessionKey_comm (hc _ _)] at hderives

theorem client_confirms (hx : x.SignsLawfully) (hh : h.Honest x ac) :
    clientOnReply x ac h.client h.challenge (.serverConfirm (h.confirm x ac)) =
      .ok (h.result x ac) := by
  have hkey : h.challenge.serverCert.publicKey = h.manager.publicKey x := hh.certified.publicKey
  refine clientOnReply_eq_ok.mpr ⟨?_, ?_, ?_, rfl, rfl⟩
  · rw [hkey]
    exact hx.publicKey h.manager.serverSigningKey.secret
  · rw [hkey]
    exact hx.verifies h.manager.serverSigningKey.secret _
  · rw [hkey]
    exact hh.client_derives

end Handshake.Honest

end Messages

section Stages

variable {x : Crates} {ac : AuthCrates} {h : Handshake}

theorem goes_receive_send {α : Type} {m reply : AuthMessage} {what tooLarge : String}
    {f : SentMessage → Party String α} {g : Unit → Party String α}
    (hfits : m.sent.bincode.length ≤ maxMessageSize) (h : f m.sent = (sendMessage reply >>= g)) :
    Goes (receive what tooLarge >>= f) m.frame reply.frame (g ()) := by
  have hgoes := (goes_receive hfits what tooLarge f).trans (h ▸ goes_sendMessage reply g)
  rwa [List.append_nil, List.nil_append] at hgoes

theorem goes_receive_last {α : Type} {m : AuthMessage} {what tooLarge : String}
    {f : SentMessage → Party String α} {last : Party String α}
    (hfits : m.sent.bincode.length ≤ maxMessageSize) (h : f m.sent = last) :
    Goes (receive what tooLarge >>= f) m.frame [] last := by
  rw [← h]
  exact goes_receive hfits what tooLarge f

namespace Handshake

theorem Honest.client_answers (hx : x.SignsLawfully) (hh : h.Honest x ac) :
    Goes (clientAwaitChallenge x ac h.client h.clientIdentity (h.manager.publicKey x) h.clientNow)
      (AuthMessage.serverChallenge h.challenge).frame
      (AuthMessage.clientAuth (h.response x)).frame
      (clientAwaitReply x ac h.client h.challenge) := by
  have hcheck : failWhen ((AuthMessage.serverChallenge h.challenge).sent.msgType !=
      .serverChallenge) "Expected ServerChallenge message" = .ok () := rfl
  refine goes_receive_send hh.challengeFits
    (g := fun _ => clientAwaitReply x ac h.client h.challenge) ?_
  rw [hcheck, Party.done_ok_bind, hh.challenge_read hx, Party.done_ok_bind, hh.client_accepts hx,
    Party.done_ok_bind]

theorem Honest.client_returns (hx : x.SignsLawfully) (hh : h.Honest x ac) :
    Goes (clientAwaitReply x ac h.client h.challenge)
      (AuthMessage.serverConfirm (h.confirm x ac)).frame [] (.done (.ok (h.result x ac))) := by
  refine goes_receive_last (h.confirm_fits hx) ?_
  have hread := hh.confirm_read hx
  have htype : (AuthMessage.serverConfirm (h.confirm x ac)).sent.msgType = .serverConfirm := rfl
  simp only [htype]
  rw [hread, Party.done_ok_bind, hh.client_confirms hx]

theorem server_challenges (h : Handshake) :
    Goes (serverAuthenticate x ac h.manager h.draw h.challengedAt h.authenticatedAt h.sessionId)
      clientHello.frame (AuthMessage.serverChallenge h.challenge).frame
      (serverAwaitAuth x ac h.manager h.challenge h.authenticatedAt h.sessionId) :=
  goes_receive_send clientHello_fits
    (g := fun _ => serverAwaitAuth x ac h.manager h.challenge h.authenticatedAt h.sessionId) rfl

theorem Honest.server_returns (hx : x.SignsLawfully) (hc : ac.Commutes x) (hh : h.Honest x ac) :
    Goes (serverAwaitAuth x ac h.manager h.challenge h.authenticatedAt h.sessionId)
      (AuthMessage.clientAuth (h.response x)).frame
      (AuthMessage.serverConfirm (h.confirm x ac)).frame
      (.done (.ok (h.session x ac, h.manager.insertSession (h.session x ac)))) := by
  have hcheck : failWhen ((AuthMessage.clientAuth (h.response x)).sent.msgType !=
      .clientAuth) "Expected ClientAuth message" = .ok () := rfl
  refine goes_receive_send hh.responseFits
    (g := fun _ => .done (.ok (h.session x ac, h.manager.insertSession (h.session x ac)))) ?_
  rw [hcheck, Party.done_ok_bind, hh.response_read hx, Party.done_ok_bind, hh.server_accepts hx hc]
  rfl

theorem Honest.reaches_finish (hx : x.SignsLawfully) (hc : ac.Commutes x) (hh : h.Honest x ac) :
    Reaches (h.start x ac) (h.finish x ac) := by
  have hhello : Goes (clientAuthenticate x ac h.client h.clientIdentity (h.manager.publicKey x)
      h.clientNow) [] clientHello.frame (clientAwaitChallenge x ac h.client h.clientIdentity
      (h.manager.publicKey x) h.clientNow) := goes_sendMessage clientHello _
  refine (hhello.turn_left _).trans ?_
  refine (h.server_challenges.turn_right _).trans ?_
  refine ((hh.client_answers hx).turn_left _).trans ?_
  refine ((hh.server_returns hx hc).turn_right _).trans ?_
  exact (hh.client_returns hx).turn_left _

end Handshake

end Stages

section Keys

variable {x : Crates} {ac : AuthCrates} {h h' : Handshake}

theorem sortedKeys_inj {a b a' b' : Bytes} (ha : a.length = 32) (hb : b.length = 32)
    (ha' : a'.length = 32) (hb' : b'.length = 32) (heq : sortedKeys a b = sortedKeys a' b') :
    (a = a' ∧ b = b') ∨ (a = b' ∧ b = a') := by
  unfold sortedKeys at heq
  split at heq
  next =>
    split at heq
    next =>
      obtain ⟨hfirst, hsecond⟩ := List.append_inj heq (ha.trans ha'.symm)
      exact .inl ⟨hfirst, hsecond⟩
    next =>
      obtain ⟨hfirst, hsecond⟩ := List.append_inj heq (ha.trans hb'.symm)
      exact .inr ⟨hfirst, hsecond⟩
  next =>
    split at heq
    next =>
      obtain ⟨hfirst, hsecond⟩ := List.append_inj heq (hb.trans ha'.symm)
      exact .inr ⟨hsecond, hfirst⟩
    next =>
      obtain ⟨hfirst, hsecond⟩ := List.append_inj heq (hb.trans hb'.symm)
      exact .inl ⟨hsecond, hfirst⟩

namespace Handshake

theorem keyMaterial_inj (hx : x.SignsLawfully) (heq : h.keyMaterial x ac = h'.keyMaterial x ac) :
    h.draw = h'.draw ∧ h.SameKeys x h' := by
  have hshared : (ac.x25519 h.client (h.manager.publicKey x)).val.length =
      (ac.x25519 h'.client (h'.manager.publicKey x)).val.length :=
    (ac.x25519 _ _).property.trans (ac.x25519 _ _).property.symm
  have hdraw : h.draw.val.length = h'.draw.val.length := h.draw.property.trans h'.draw.property.symm
  have hfront : ((ac.x25519 h.client (h.manager.publicKey x)).val ++ h.draw.val).length =
      ((ac.x25519 h'.client (h'.manager.publicKey x)).val ++ h'.draw.val).length := by
    rw [List.length_append, List.length_append, hshared, hdraw]
  obtain ⟨hfirst, hkeys⟩ := List.append_inj heq hfront
  obtain ⟨-, hdraws⟩ := List.append_inj hfirst hshared
  exact ⟨Subtype.ext hdraws, sortedKeys_inj (hx.publicLength _) (hx.publicLength _)
    (hx.publicLength _) (hx.publicLength _) hkeys⟩

/-- A client that has returned has the result of the handshake, however far the server is. -/
theorem Honest.result_eq (hx : x.SignsLawfully) (hc : ac.Commutes x) (hh : h.Honest x ac)
    {c : Config String String ClientAuthResult (SessionInfo × SessionManager)}
    {result : ClientAuthResult} (hreach : Reaches (h.start x ac) c)
    (hleft : c.left = .done (.ok result)) : result = h.result x ac := by
  have hends := Dialogue.endsIn_of_reaches (hh.reaches_finish hx hc) (over_done _ _ _ _)
  have hdone : ofParty c.left = .done (.ok result) := by
    rw [hleft]
    rfl
  have hsame : Party.done (.ok (h.result x ac)) = c.left :=
    Dialogue.left_of_reaches (hends.joins c hreach) hdone
  exact (Except.ok.inj (Party.done.inj (hsame.trans hleft))).symm

end Handshake

/-- An honest client and server that talk undisturbed both succeed, in whatever order their steps
are taken, with one session id and one session key. Other challenges or other keys give another
session key, and the session is valid until it expires or is removed. -/
theorem honest_handshakes_agree (hx : x.SignsLawfully) (hc : ac.Commutes x)
    (hh : h.Honest x ac) : ∃ result session later,
    EndsIn (h.start x ac) ⟨.done (.ok result), [], .done (.ok (session, later)), []⟩ ∧
    result.sessionId = session.sessionId ∧
    result.sessionKey = session.sessionKey ∧
    (∀ h' : Handshake, h'.Honest x ac → h.draw ≠ h'.draw ∨ ¬ h.SameKeys x h' →
      Set.InjOn (ac.deriveKey "SEALEDGE_SESSION_KEY_V1") {h.keyMaterial x ac, h'.keyMaterial x ac} →
      ∀ c' result', Reaches (h'.start x ac) c' → c'.left = .done (.ok result') →
        result.sessionKey ≠ result'.sessionKey) ∧
    ∀ ops : List SessionOp, (∀ op ∈ ops, op.LeavesFresh session.sessionId) → ∀ cleanedAt now,
      ((later.performAll x ac ops).validateSession session.sessionId cleanedAt now).1 =
          .ok session ↔
        (∀ op ∈ ops, op.Spares session) ∧ cleanedAt < session.expiresAt ∧
          now < session.expiresAt := by
  refine ⟨h.result x ac, h.session x ac, h.manager.insertSession (h.session x ac),
    Dialogue.endsIn_of_reaches (hh.reaches_finish hx hc) (over_done _ _ _ _), rfl, rfl, ?_, ?_⟩
  · intro h' hh' hother hinj c' result' hreach hleft heq
    rw [hh'.result_eq hx hc hreach hleft] at heq
    obtain ⟨hdraw, hkeys⟩ := Handshake.keyMaterial_inj hx (hinj (by simp) (by simp) heq)
    rcases hother with hdraws | hkeys'
    · exact hdraws hdraw
    · exact hkeys' hkeys
  · intro ops hfresh cleanedAt now
    exact SessionManager.holds_insertSession.validateSession_performAll rfl hfresh cleanedAt now

end Keys

section Sample

theorem AuthChallenge.sent_length (c : AuthChallenge) (hkey : c.serverCert.publicKey.length = 32)
    (hsignature : c.serverCert.signature.length = 64) :
    (AuthMessage.serverChallenge c).sent.bincode.length =
      180 + (intoBytes c.serverCert.identity).length := by
  have hchallenge := c.challenge.property
  simp only [AuthMessage.sent, SentMessage.bincode, AuthChallenge.bincode,
    ServerCertificate.bincode, putVec, List.length_append, leBytes_length, putString_length, hkey,
    hsignature, hchallenge]
  omega

theorem ClientAuthResponse.sent_length (r : ClientAuthResponse)
    (hkey : r.clientPublicKey.length = 32) (hsignature : r.challengeSignature.length = 64) :
    (AuthMessage.clientAuth r).sent.bincode.length =
      124 + (putOption putString r.clientIdentity).length := by
  simp only [AuthMessage.sent, SentMessage.bincode, ClientAuthResponse.bincode, putVec,
    List.length_append, leBytes_length, hkey, hsignature]
  omega

def sampleHandshake (b : UInt8) : Handshake where
  client := sampleKey 1
  clientIdentity := some "alice"
  clientNow := 2000
  manager := sampleServer
  draw := sampleDraw b
  challengedAt := 1999
  authenticatedAt := 2001
  sessionId := sampleSessionId

theorem sampleAuth_commutes : sampleAuth.Commutes sampleCrates :=
  sampleEnvelope_correct.commutes

theorem sampleHandshake_honest (b : UInt8) :
    (sampleHandshake b).Honest sampleCrates sampleAuth where
  certified := SessionManager.withSigningKey_certified sampleCrates "server" (sampleKey 2) 1000
  started := (by decide : 1000 ≤ 2000)
  unexpired := (by decide : 2000 ≤ 1000 + 365 * 24 * 3600)
  challengeFits := by
    have hkey : sampleServer.serverCertificate.publicKey.length = 32 :=
      sampleCrates_signsLawfully.publicLength _
    have hsignature : sampleServer.serverCertificate.signature.length = 64 :=
      sampleCrates_signsLawfully.signatureLength _ _
    have hidentity : (intoBytes sampleServer.serverCertificate.identity).length = 6 := by decide
    have hlength := AuthChallenge.sent_length (sampleHandshake b).challenge hkey hsignature
    have hlimit : maxMessageSize = 8192 := rfl
    change _ = 180 + (intoBytes sampleServer.serverCertificate.identity).length at hlength
    omega
  responseFits := by
    have hlength := ClientAuthResponse.sent_length ((sampleHandshake b).response sampleCrates)
      (sampleCrates_signsLawfully.publicLength _) (sampleCrates_signsLawfully.signatureLength _ _)
    have hidentity : (putOption putString (some "alice")).length = 14 := by decide
    have hlimit : maxMessageSize = 8192 := rfl
    change _ = 124 + (putOption putString (some "alice")).length at hlength
    omega
  nonzero := (by decide : (sampleAuth.x25519 (sampleKey 1)
    (sampleServer.publicKey sampleCrates)).val.all (· == 0) = false)
  notAhead := (by decide : 2000 ≤ 2001 + 5)
  notBehind := (by decide : 2001 ≤ 2000 + 300)
  clientClock := (by decide : 2000 < 2 ^ 63)
  challengeClock := (by decide : 1999 < 2 ^ 63)
  serverClock := (by decide : 2001 < 2 ^ 63)
  validUntil := (by decide : 1000 + 365 * 24 * 3600 < 2 ^ 64)

theorem sample_keys_differ : (sampleHandshake 5).sessionKey sampleCrates sampleAuth ≠
    (sampleHandshake 6).sessionKey sampleCrates sampleAuth := by
  decide +kernel

theorem sample_handshakes_agree : ∃ result session later,
    EndsIn ((sampleHandshake 5).start sampleCrates sampleAuth)
      ⟨.done (.ok result), [], .done (.ok (session, later)), []⟩ ∧
    result.sessionId = session.sessionId ∧ result.sessionKey = session.sessionKey ∧
    result.sessionKey ≠ (sampleHandshake 6).sessionKey sampleCrates sampleAuth ∧
    ((SessionManager.performAll sampleCrates sampleAuth later [.cleanup 2002]).validateSession
      session.sessionId 2003 2003).1 = .ok session := by
  obtain ⟨result, session, later, hends, hid, hkey, hother, hvalid⟩ := honest_handshakes_agree
    sampleCrates_signsLawfully sampleAuth_commutes (sampleHandshake_honest 5)
  have hfinish : ∀ b, Reaches ((sampleHandshake b).start sampleCrates sampleAuth)
      ((sampleHandshake b).finish sampleCrates sampleAuth) := fun b =>
    (sampleHandshake_honest b).reaches_finish sampleCrates_signsLawfully sampleAuth_commutes
  have hexpires : session.expiresAt = 3801 := by
    rcases (hends.joins _ (hfinish 5)).cases_head with heq | ⟨_, hstep, -⟩
    · have hright : (Party.done (.ok _) : Party String (SessionInfo × SessionManager)) =
          .done (.ok (session, later)) := (Dialogue.Scene.mk.inj heq).2.2.1
      have hsession : (sampleHandshake 5).session sampleCrates sampleAuth = session :=
        congrArg Prod.fst (Except.ok.inj (Party.done.inj hright))
      rw [← hsession]
      rfl
    · exact absurd hstep (over_done _ _ _ _).not_step
  have hinj : Set.InjOn (sampleAuth.deriveKey "SEALEDGE_SESSION_KEY_V1")
      {(sampleHandshake 5).keyMaterial sampleCrates sampleAuth,
        (sampleHandshake 6).keyMaterial sampleCrates sampleAuth} :=
    Set.injOn_pair.mpr fun heq => absurd heq sample_keys_differ
  have hdraws : sampleDraw 5 ≠ sampleDraw 6 := by decide +kernel
  refine ⟨result, session, later, hends, hid, hkey, ?_, ?_⟩
  · exact hother (sampleHandshake 6) (sampleHandshake_honest 6) (.inl hdraws) hinj _ _
      (hfinish 6) rfl
  · refine (hvalid _ ?_ 2003 2003).mpr ⟨?_, by omega, by omega⟩
    · intro op hop
      rw [List.mem_singleton.mp hop]
      trivial
    · intro op hop
      rw [List.mem_singleton.mp hop]
      change 2002 < session.expiresAt
      omega

end Sample

end Sealedge
