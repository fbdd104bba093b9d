import Sealedge.AuthProtocol
import Sealedge.Conversation
import Sealedge.StreamFormat

namespace Sealedge

open Fallible Bincode Conversation

inductive AuthMessageType
  | clientHello
  | serverChallenge
  | clientAuth
  | serverConfirm
  | authError
  deriving DecidableEq

/-- The wrapper as it travels, with its payload serialized on its own. -/
structure SentMessage where
  msgType : AuthMessageType
  payload : Bytes
  deriving DecidableEq

section Serializing

namespace AuthMessageType

/-- The number of a variant in its order, which is not its discriminant. -/
def index : AuthMessageType → Nat
  | clientHello => 0
  | serverChallenge => 1
  | clientAuth => 2
  | serverConfirm => 3
  | authError => 4

def ofIndex : Nat → Option AuthMessageType
  | 0 => some clientHello
  | 1 => some serverChallenge
  | 2 => some clientAuth
  | 3 => some serverConfirm
  | 4 => some authError
  | _ => none

end AuthMessageType

/-- A `[u8; 64]` under `serde_bytes`, which writes its length and refuses another one. -/
def getSignature : Get Bytes := do
  let bytes ← getVec
  check (if bytes.length = 64 then some bytes else none)

namespace ServerCertificate

def bincode (c : ServerCertificate) : Bytes :=
  putString c.identity ++ (c.publicKey ++ (leBytes 8 c.validFrom ++ (leBytes 8 c.validUntil ++
    putVec c.signature)))

def get : Get ServerCertificate := do
  let identity ← getString
  let publicKey ← getBytes 32
  let validFrom ← getNat 8
  let validUntil ← getNat 8
  let signature ← getSignature
  pure { identity, publicKey, validFrom, validUntil, signature }

/-- Sizes that the types of the source ensure. -/
structure Sized (c : ServerCertificate) : Prop where
  identity : (intoBytes c.identity).length < 256 ^ 8
  publicKey : c.publicKey.length = 32
  validFrom : c.validFrom < 256 ^ 8
  validUntil : c.validUntil < 256 ^ 8
  signature : c.signature.length = 64

end ServerCertificate

namespace AuthChallenge

def bincode (c : AuthChallenge) : Bytes :=
  c.challenge.val ++ (c.serverCert.bincode ++ leBytes 8 c.timestamp)

def get : Get AuthChallenge := do
  let challenge ← getArray 32
  let serverCert ← ServerCertificate.get
  let timestamp ← getNat 8
  pure { challenge, serverCert, timestamp }

end AuthChallenge

namespace ClientAuthResponse

def bincode (r : ClientAuthResponse) : Bytes :=
  r.clientPublicKey ++ (putVec r.challengeSignature ++ (putOption putString r.clientIdentity ++
    leBytes 8 r.timestamp))

def get : Get ClientAuthResponse := do
  let clientPublicKey ← getBytes 32
  let challengeSignature ← getSignature
  let clientIdentity ← getOption getString
  let timestamp ← getNat 8
  pure { clientPublicKey, challengeSignature, clientIdentity, timestamp }

end ClientAuthResponse

namespace ServerAuthConfirm

def bincode (c : ServerAuthConfirm) : Bytes :=
  c.sessionId.val ++ (leBytes 8 c.sessionExpiresAt ++ putVec c.sessionSignature)

def get : Get ServerAuthConfirm := do
  let sessionId ← getArray 16
  let sessionExpiresAt ← getNat 8
  let sessionSignature ← getSignature
  pure { sessionId, sessionExpiresAt, sessionSignature }

end ServerAuthConfirm

namespace SentMessage

def bincode (m : SentMessage) : Bytes :=
  leBytes 4 m.msgType.index ++ putVec m.payload

def get : Get SentMessage := do
  let index ← getNat 4
  let msgType ← check (AuthMessageType.ofIndex index)
  let payload ← getVec
  pure { msgType, payload }

/-- `deserialize_payload`. -/
def deserializePayload {α : Type} (get : Get α) (m : SentMessage) : Except String α :=
  (deserialize get m.payload).elim (.error "Failed to deserialize auth message payload") .ok

end SentMessage

namespace AuthMessage

/-- `AuthMessage::new`. -/
def sent : AuthMessage → SentMessage
  | clientHello greeting => ⟨.clientHello, putString greeting⟩
  | serverChallenge challenge => ⟨.serverChallenge, challenge.bincode⟩
  | clientAuth response => ⟨.clientAuth, response.bincode⟩
  | serverConfirm confirm => ⟨.serverConfirm, confirm.bincode⟩
  | authError text => ⟨.authError, putString text⟩

/-- What stands on the stream for a message: its length in four bytes, then itself. -/
def frame (m : AuthMessage) : Bytes :=
  leBytes 4 m.sent.bincode.length ++ m.sent.bincode

end AuthMessage

end Serializing

section Streams

def sendMessage (m : AuthMessage) : Party String Unit := do
  Party.sendAll (leBytes 4 m.sent.bincode.length)
  Party.sendAll m.sent.bincode

def maxMessageSize : Nat := 8192

def receiveBody (what tooLarge : String) (length : Nat) : Party String SentMessage :=
  if maxMessageSize < length then Party.fail tooLarge
  else do
    let bytes ← Party.read length ("Failed to read " ++ what)
    match deserialize SentMessage.get bytes with
    | some m => pure m
    | none => Party.fail ("Failed to deserialize " ++ what)

/-- One message from the stream, named `what` in the errors of a short or malformed one. -/
def receive (what tooLarge : String) : Party String SentMessage := do
  let lengthBytes ← Party.read 4 ("Failed to read " ++ what ++ " length")
  receiveBody what tooLarge (ofLe lengthBytes)

end Streams

section RoundTrips

theorem AuthMessageType.ofIndex_index (t : AuthMessageType) : ofIndex t.index = some t := by
  cases t <;> rfl

theorem AuthMessageType.index_lt (t : AuthMessageType) : t.index < 256 ^ 4 := by
  cases t <;> decide

theorem reads_getSignature {signature : Bytes} (h : signature.length = 64) :
    Reads getSignature (putVec signature) signature := by
  have hshort : signature.length < 256 ^ 8 := by
    rw [h]
    decide
  have hread : Reads getSignature (putVec signature ++ []) signature :=
    (reads_getVec hshort).bind (reads_check (if_pos h))
  rwa [List.append_nil] at hread

theorem ServerCertificate.reads {c : ServerCertificate} (h : c.Sized) :
    Reads ServerCertificate.get c.bincode c := by
  refine (reads_getString h.identity).bind ?_
  refine (reads_getBytes h.publicKey).bind ?_
  refine (reads_getNat h.validFrom).bind ?_
  refine (reads_getNat h.validUntil).bind ?_
  exact (reads_getSignature h.signature).map

theorem AuthChallenge.reads {c : AuthChallenge} (hcert : c.serverCert.Sized)
    (htime : c.timestamp < 256 ^ 8) : Reads AuthChallenge.get c.bincode c := by
  refine (reads_getArray c.challenge).bind ?_
  refine (ServerCertificate.reads hcert).bind ?_
  exact (reads_getNat htime).map

theorem ClientAuthResponse.reads {r : ClientAuthResponse} (hkey : r.clientPublicKey.length = 32)
    (hsignature : r.challengeSignature.length = 64)
    (hidentity : ∀ s, r.clientIdentity = some s → (intoBytes s).length < 256 ^ 8)
    (htime : r.timestamp < 256 ^ 8) : Reads ClientAuthResponse.get r.bincode r := by
  refine (reads_getBytes hkey).bind ?_
  refine (reads_getSignature hsignature).bind ?_
  refine (reads_getOption fun s hs => reads_getString (hidentity s hs)).bind ?_
  exact (reads_getNat htime).map

theorem ServerAuthConfirm.reads {c : ServerAuthConfirm} (hexpires : c.sessionExpiresAt < 256 ^ 8)
    (hsignature : c.sessionSignature.length = 64) : Reads ServerAuthConfirm.get c.bincode c := by
  refine (reads_getArray c.sessionId).bind ?_
  refine (reads_getNat hexpires).bind ?_
  exact (reads_getSignature hsignature).map

theorem SentMessage.reads {m : SentMessage} (h : m.payload.length < 256 ^ 8) :
    Reads SentMessage.get m.bincode m := by
  refine (reads_getNat m.msgType.index_lt).bind ?_
  refine (reads_check (AuthMessageType.ofIndex_index m.msgType)).bind ?_
  exact (reads_getVec h).map

theorem SentMessage.deserializePayload_eq_ok {α : Type} {get : Get α} {m : SentMessage} {a : α}
    (h : Reads get m.payload a) : m.deserializePayload get = .ok a := by
  rw [SentMessage.deserializePayload, h.deserialize]
  rfl

theorem SentMessage.payload_le (m : SentMessage) : m.payload.length ≤ m.bincode.length := by
  simp only [SentMessage.bincode, putVec, List.length_append, leBytes_length]
  omega

end RoundTrips

section Stages

variable {α : Type}

theorem goes_sendMessage (m : AuthMessage) (f : Unit → Party String α) :
    Goes (sendMessage m >>= f) [] m.frame (f ()) := by
  have h : Goes (sendMessage m >>= f) []
      (leBytes 4 m.sent.bincode.length ++ (m.sent.bincode ++ [])) (f ()) :=
    .send rfl (.send rfl (.refl _))
  rwa [List.append_nil] at h

theorem goes_receiveBody {m : SentMessage} (hfits : m.bincode.length ≤ maxMessageSize)
    (what tooLarge : String) (f : SentMessage → Party String α) :
    Goes (receiveBody what tooLarge m.bincode.length >>= f) (m.bincode ++ []) [] (f m) := by
  have hlimit : maxMessageSize < 256 ^ 8 := by decide
  have hsize := m.payload_le
  have hread : deserialize SentMessage.get m.bincode = some m :=
    (SentMessage.reads (by omega)).deserialize
  rw [receiveBody, if_neg (by omega), Party.bind_assoc, Party.read_bind]
  refine .read rfl rfl ?_
  rw [hread]
  exact .refl _

theorem goes_receive {m : AuthMessage} (hfits : m.sent.bincode.length ≤ maxMessageSize)
    (what tooLarge : String) (f : SentMessage → Party String α) :
    Goes (receive what tooLarge >>= f) m.frame [] (f m.sent) := by
  have hlimit : maxMessageSize < 256 ^ 4 := by decide
  have hlength : ofLe (leBytes 4 m.sent.bincode.length) = m.sent.bincode.length :=
    ofLe_leBytes (by omega)
  have hbody := goes_receiveBody hfits what tooLarge f
  rw [List.append_nil] at hbody
  rw [receive, Party.bind_assoc, Party.read_bind]
  refine .read rfl (leBytes_length 4 _) ?_
  rw [hlength]
  exact hbody

end Stages

end Sealedge
