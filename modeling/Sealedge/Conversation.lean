import Sealedge.Dialogue

namespace Conversation

open Dialogue

/-- A party of a conversation over a stream of bytes in each direction. A read waits for all the
bytes that it needs, and fails with `short` when the stream ends before them. -/
inductive Party (ε α : Type) where
  | done (result : Except ε α)
  | send (bytes : List UInt8) (next : Party ε α)
  | readExact (width : Nat) (short : ε) (next : List UInt8 → Party ε α)

namespace Party

variable {ε α β : Type}

def andThen : Party ε α → (α → Party ε β) → Party ε β
  | done (.ok a), f => f a
  | done (.error e), _ => done (.error e)
  | send bytes next, f => send bytes (next.andThen f)
  | readExact width short next, f => readExact width short fun bytes => (next bytes).andThen f

instance : Monad (Party ε) where
  pure a := done (.ok a)
  bind := andThen

def fail (e : ε) : Party ε α := done (.error e)

def sendAll (bytes : List UInt8) : Party ε Unit := send bytes (pure ())

def read (width : Nat) (short : ε) : Party ε (List UInt8) := readExact width short pure

theorem done_ok_bind (a : α) (f : α → Party ε β) : (done (.ok a) >>= f) = f a := rfl

theorem read_bind (width : Nat) (short : ε) (f : List UInt8 → Party ε β) :
    (read width short >>= f) = readExact width short f := rfl

theorem bind_assoc {γ : Type} (p : Party ε α) (f : α → Party ε β) (g : β → Party ε γ) :
    (p >>= f >>= g) = (p >>= fun a => f a >>= g) := by
  induction p with
  | done result =>
    cases result with
    | ok a => rfl
    | error e => rfl
  | send bytes next ih => exact congrArg (send bytes) ih
  | readExact width short next ih => exact congrArg (readExact width short) (funext ih)

end Party

section Talking

variable {ε δ α β : Type}

/-- A party is a peer whose states are its programs. -/
def ofParty : Peer (Party ε α) (Except ε α)
  | .done result => .done result
  | .send bytes next => .send bytes next
  | .readExact width short next => .read width next fun _ => .done (.error short)

/-- Two parties and what lies unread before each of them. -/
abbrev Config (ε δ α β : Type) := Scene (Party ε α) (Party δ β)

/-- The configurations that the parties can get to, whoever moves first. -/
abbrev Reaches (c d : Config ε δ α β) : Prop := Dialogue.Reaches ofParty ofParty c d

/-- Whatever order the steps are taken in, the parties get to `final` and do not go on forever. -/
abbrev EndsIn (c final : Config ε δ α β) : Prop := Dialogue.EndsIn ofParty ofParty c final

/-- A party gets from `a` to `b` on its own when it is given `taken`, and sends `given`. -/
abbrev Goes (a : Party ε α) (taken given : List UInt8) (b : Party ε α) : Prop :=
  Dialogue.Goes ofParty a taken given b

theorem over_done (left : Except ε α) (right : Except δ β) (toLeft toRight : List UInt8) :
    Over ofParty ofParty ⟨.done left, toLeft, .done right, toRight⟩ :=
  ⟨rfl, rfl⟩

end Talking

end Conversation
