import Sealedge.Envelope
import Sealedge.Numerals

namespace Sealedge

open Fallible Numerals

/-- Outside functions of the session key: X25519 on converted Ed25519 keys, and
`blake3::derive_key` by context and key material. -/
structure AuthCrates where
  x25519 : DeviceKeypair → Bytes → Fixed 32
  deriveKey : String → Bytes → Fixed 32

def sessionTimeout : Nat := 1800

def futureToleranceSecs : Nat := 5

def pastToleranceSecs : Nat := 300

structure ServerCertificate where
  identity : String
  publicKey : Bytes
  validFrom : Nat
  validUntil : Nat
  signature : Bytes
  deriving DecidableEq

structure AuthChallenge where
  challenge : Fixed 32
  serverCert : ServerCertificate
  timestamp : Nat
  deriving DecidableEq

structure ClientAuthResponse where
  clientPublicKey : Bytes
  challengeSignature : Bytes
  clientIdentity : Option String
  timestamp : Nat
  deriving DecidableEq

structure ServerAuthConfirm where
  sessionId : Fixed 16
  sessionExpiresAt : Nat
  sessionSignature : Bytes
  deriving DecidableEq

/-- The wrapper with its type and payload. -/
inductive AuthMessage
  | clientHello (greeting : String)
  | serverChallenge (challenge : AuthChallenge)
  | clientAuth (response : ClientAuthResponse)
  | serverConfirm (confirm : ServerAuthConfirm)
  | authError (text : String)
  deriving DecidableEq

structure ClientAuthResult where
  sessionId : Fixed 16
  serverCertificate : ServerCertificate
  sessionKey : Fixed 32
  deriving DecidableEq

structure SessionInfo where
  sessionId : Fixed 16
  clientPublicKey : Bytes
  clientIdentity : Option String
  createdAt : Nat
  expiresAt : Nat
  authenticated : Bool
  sessionKey : Fixed 32
  deriving DecidableEq

structure SessionManager where
  sessions : List (Fixed 16 × SessionInfo)
  serverSigningKey : DeviceKeypair
  serverCertificate : ServerCertificate

def certData (identity : String) (publicKey : Bytes) (validFrom validUntil : Nat) : String :=
  identity ++ ":" ++ hexEncode publicKey ++ ":" ++ validFrom.repr ++ ":" ++ validUntil.repr

/-- What the server signs of a session and the client checks. -/
def sessionData (sessionId : Fixed 16) (clientPublicKey : Bytes) (expiresAt : Nat) : String :=
  hexEncode sessionId.val ++ ":" ++ hexEncode clientPublicKey ++ ":" ++ expiresAt.repr

section Handshake

variable (x : Crates) (ac : AuthCrates)

namespace ServerCertificate

def newSelfSigned (identity : String) (signingKey : DeviceKeypair) (validityDays now : Nat) :
    ServerCertificate :=
  let publicKey := signingKey.verifyingKey x
  let validUntil := now + validityDays * 24 * 3600
  { identity
    publicKey
    validFrom := now
    validUntil
    signature := x.ed25519Sign signingKey.secret
      (intoBytes (certData identity publicKey now validUntil)) }

/-- The text under the signature of a certificate. -/
def data (cert : ServerCertificate) : Bytes :=
  intoBytes (certData cert.identity cert.publicKey cert.validFrom cert.validUntil)

def verify (now : Nat) (cert : ServerCertificate) : Except String Unit := do
  failWhen (decide (now < cert.validFrom) || decide (cert.validUntil < now))
    "Certificate expired or not yet valid"
  (x.ed25519Key cert.publicKey).mapError fun e => "Invalid public key: " ++ e
  failWhen (!x.ed25519Verify cert.publicKey cert.data cert.signature)
    "Certificate signature verification failed: signature error"

def verifyPinned (expectedPubkey : Bytes) (cert : ServerCertificate) : Except String Unit :=
  failWhen (cert.publicKey != expectedPubkey)
    ("Server public key mismatch: certificate key does not match pinned key. " ++
      "Possible Man-in-the-Middle attack.")

end ServerCertificate

/-- The two public keys in the order that both sides compute. -/
def sortedKeys (mine theirs : Bytes) : Bytes :=
  if mine < theirs then mine ++ theirs else theirs ++ mine

def deriveSessionKey (mySigningKey : DeviceKeypair) (theirPublicKey : Bytes)
    (challenge : Fixed 32) : Except String (Fixed 32) := do
  let sharedSecret := ac.x25519 mySigningKey theirPublicKey
  failWhen (sharedSecret.val.all (· == 0)) "ECDH produced zero shared secret"
  pure (ac.deriveKey "SEALEDGE_SESSION_KEY_V1" (sharedSecret.val ++ challenge.val ++
    sortedKeys (mySigningKey.verifyingKey x) theirPublicKey))

namespace SessionManager

def withSigningKey (serverIdentity : String) (signingKey : DeviceKeypair) (now : Nat) :
    SessionManager where
  sessions := []
  serverSigningKey := signingKey
  serverCertificate := .newSelfSigned x serverIdentity signingKey 365 now

def createChallenge (m : SessionManager) (challenge : Fixed 32) (now : Nat) : AuthChallenge where
  challenge
  serverCert := m.serverCertificate
  timestamp := now

/-- `sessions.insert`. -/
def insertSession (m : SessionManager) (session : SessionInfo) : SessionManager :=
  { m with sessions :=
      (session.sessionId, session) :: m.sessions.filter fun p => p.1 != session.sessionId }

def authenticateClient (m : SessionManager) (challenge : AuthChallenge)
    (response : ClientAuthResponse) (now : Nat) (sessionId : Fixed 16) :
    Except String (SessionInfo × SessionManager) := do
  failWhen (decide (now + futureToleranceSecs < response.timestamp))
    ("Authentication response timestamp too far in the future (response=" ++
      response.timestamp.repr ++ ", now=" ++ now.repr ++ ")")
  failWhen (decide (pastToleranceSecs < now - response.timestamp))
    ("Authentication response timestamp too old (response=" ++ response.timestamp.repr ++
      ", now=" ++ now.repr ++ ")")
  (x.ed25519Key response.clientPublicKey).mapError fun e => "Invalid client public key: " ++ e
  failWhen (!x.ed25519Verify response.clientPublicKey challenge.challenge.val
      response.challengeSignature)
    "Client challenge signature verification failed: signature error"
  let sessionKey ← deriveSessionKey x ac m.serverSigningKey response.clientPublicKey
    challenge.challenge
  let session : SessionInfo := {
    sessionId
    clientPublicKey := response.clientPublicKey
    clientIdentity := response.clientIdentity
    createdAt := now
    expiresAt := now + sessionTimeout
    authenticated := true
    sessionKey }
  pure (session, m.insertSession session)

def createAuthConfirm (m : SessionManager) (session : SessionInfo) : ServerAuthConfirm where
  sessionId := session.sessionId
  sessionExpiresAt := session.expiresAt
  sessionSignature := x.ed25519Sign m.serverSigningKey.secret
    (intoBytes (sessionData session.sessionId session.clientPublicKey session.expiresAt))

end SessionManager

/-- The first message of `client_authenticate`. -/
def clientHello : AuthMessage := .clientHello "Sealedge Client v1.0"

/-- `client_authenticate` when the challenge arrives: what it sends on. -/
def clientOnChallenge (now : Nat) (clientSigningKey : DeviceKeypair)
    (clientIdentity : Option String) (serverPubkey : Bytes) :
    AuthMessage → Except String (AuthChallenge × ClientAuthResponse)
  | .serverChallenge challenge => do
    (challenge.serverCert.verify x now).mapError fun _ => "Server certificate verification failed"
    (challenge.serverCert.verifyPinned serverPubkey).mapError fun _ =>
      "Server public key pinning failed"
    pure (challenge, {
      clientPublicKey := clientSigningKey.verifyingKey x
      challengeSignature := x.ed25519Sign clientSigningKey.secret challenge.challenge.val
      clientIdentity
      timestamp := now })
  | _ => .error "Expected ServerChallenge message"

/-- `client_authenticate` when the server's answer arrives. -/
def clientOnReply (clientSigningKey : DeviceKeypair) (challenge : AuthChallenge) :
    AuthMessage → Except String ClientAuthResult
  | .serverConfirm confirm => do
    x.ed25519Key challenge.serverCert.publicKey
    failWhen (!x.ed25519Verify challenge.serverCert.publicKey
        (intoBytes (sessionData confirm.sessionId (clientSigningKey.verifyingKey x)
          confirm.sessionExpiresAt)) confirm.sessionSignature)
      "Server session signature verification failed"
    let sessionKey ← deriveSessionKey x ac clientSigningKey challenge.serverCert.publicKey
      challenge.challenge
    pure {
      sessionId := confirm.sessionId
      serverCertificate := challenge.serverCert
      sessionKey }
  | .authError text => .error ("Authentication failed: " ++ text)
  | _ => .error "Unexpected server response type"

/-- `server_authenticate` when a hello arrives: the challenge it sends. -/
def serverOnHello (m : SessionManager) (challenge : Fixed 32) (now : Nat) :
    AuthMessage → Except String AuthChallenge
  | .clientHello _ => .ok (m.createChallenge challenge now)
  | _ => .error "Expected ClientHello message"

/-- `server_authenticate` when the response arrives: the message it sends, if any, and its
result. -/
def serverOnAuth (m : SessionManager) (challenge : AuthChallenge) (now : Nat)
    (sessionId : Fixed 16) :
    AuthMessage → Option AuthMessage × Except String (SessionInfo × SessionManager)
  | .clientAuth response =>
    match m.authenticateClient x ac challenge response now sessionId with
    | .ok (session, m') =>
      (some (.serverConfirm (m'.createAuthConfirm x session)), .ok (session, m'))
    | .error e => (some (.authError e), .error e)
  | _ => (none, .error "Expected ClientAuth message")

end Handshake

end Sealedge
