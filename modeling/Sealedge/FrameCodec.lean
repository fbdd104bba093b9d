import Sealedge.Bincode
import Sealedge.Dialogue

/-!
The frames of `tokio_util::codec::LengthDelimitedCodec` as it is by default: a length of four bytes,
the most significant one first, and as many bytes.
-/

namespace FrameCodec

open Bincode Dialogue

/-- What a program over a stream of frames does next. A payload that is too long for a frame is
not sent; a frame that cannot be decoded comes with the codec's text. -/
inductive FrameAct (σ ρ : Type) where
  | done (result : ρ)
  | send (payload : List UInt8) (next tooBig : σ)
  | receive (next : List UInt8 → σ) (closed : σ) (broken : String → σ)

/-- A frame as it stands on the stream: the length in four bytes, the highest first. -/
def encode (payload : List UInt8) : List UInt8 :=
  beBytes 4 payload.length ++ payload

def headLength (head : List UInt8) : Nat :=
  ofLe head.reverse

/-- Between two frames, or behind the head of one that the state waits for. -/
inductive Framing (σ : Type) where
  | ready (s : σ)
  | body (s : σ) (width : Nat) (next ended : List UInt8 → σ)

section Codec

variable {σ ρ : Type}

/-- The state for which a frame may have begun. -/
def Framing.state : Framing σ → σ
  | .ready s => s
  | .body s _ _ _ => s

/-- The stream ended with these bytes undecoded. Behind a head nothing is a clean end as well. -/
def atEnd (closed : σ) (broken : String → σ) (left : List UInt8) : σ :=
  if left = [] then closed else broken "bytes remaining on stream"

/-- A program over frames as one over bytes. -/
def framed (maxLength : Nat) (p : σ → FrameAct σ ρ) : Peer (Framing σ) ρ
  | .ready s =>
    match p s with
    | .done result => .done result
    | .send payload next tooBig =>
      if maxLength < payload.length then .step (.ready tooBig)
      else .send (encode payload) (.ready next)
    | .receive next closed broken =>
      .read 4
        (fun head =>
          if maxLength < headLength head then .ready (broken "frame size too big")
          else .body s (headLength head) next (atEnd closed broken))
        (fun left => .ready (atEnd closed broken left))
  | .body _ width next ended =>
    .read width (fun bytes => .ready (next bytes)) (fun left => .ready (ended left))

theorem headLength_beBytes {n : Nat} (h : n < 2 ^ 32) : headLength (beBytes 4 n) = n := by
  rw [headLength, beBytes, List.reverse_reverse]
  exact ofLe_leBytes (by omega)

variable {maxLength : Nat} {p : σ → FrameAct σ ρ} {s : σ}

theorem framed_done {result : ρ} (h : p s = .done result) :
    framed maxLength p (.ready s) = .done result := by
  rw [framed, h]

theorem framed_eq_done {d : Framing σ} {result : ρ} (h : framed maxLength p d = .done result) :
    p d.state = .done result := by
  cases d with
  | body s width next ended => contradiction
  | ready s =>
    rw [framed] at h
    split at h
    next hdone => rw [Framing.state, hdone, Act.done.inj h]
    next =>
      split at h
      next => contradiction
      next => contradiction
    next => contradiction

theorem framed_body {width : Nat} {next ended : List UInt8 → σ} :
    framed maxLength p (.body s width next ended) =
      .read width (fun bytes => .ready (next bytes)) (fun left => .ready (ended left)) := rfl

theorem framed_receive {next : List UInt8 → σ} {closed : σ} {broken : String → σ}
    (h : p s = .receive next closed broken) :
    framed maxLength p (.ready s) = .read 4
      (fun head =>
        if maxLength < headLength head then .ready (broken "frame size too big")
        else .body s (headLength head) next (atEnd closed broken))
      (fun left => .ready (atEnd closed broken left)) := by
  rw [framed, h]

theorem goes_sendFrame {payload : List UInt8} {next tooBig : σ}
    (h : p s = .send payload next tooBig) (hfits : payload.length ≤ maxLength) :
    Goes (framed maxLength p) (.ready s) [] (encode payload) (.ready next) := by
  refine goes_send ?_
  rw [framed, h]
  exact if_neg (Nat.not_lt.mpr hfits)

theorem goes_tooBig {payload : List UInt8} {next tooBig : σ}
    (h : p s = .send payload next tooBig) (hbig : maxLength < payload.length) :
    Goes (framed maxLength p) (.ready s) [] [] (.ready tooBig) := by
  refine goes_step ?_
  rw [framed, h]
  exact if_pos hbig

section Receiving

variable {next : List UInt8 → σ} {closed : σ} {broken : String → σ}
  (h : p s = .receive next closed broken)
include h

theorem goes_head {head : List UInt8} (hwidth : head.length = 4)
    (hfits : headLength head ≤ maxLength) :
    Goes (framed maxLength p) (.ready s) head []
      (.body s (headLength head) next (atEnd closed broken)) := by
  have hread : Goes (framed maxLength p) (.ready s) head [] _ :=
    goes_read (framed_receive h) hwidth
  rwa [if_neg (Nat.not_lt.mpr hfits)] at hread

theorem goes_headTooBig {head : List UInt8} (hwidth : head.length = 4)
    (hbig : maxLength < headLength head) :
    Goes (framed maxLength p) (.ready s) head [] (.ready (broken "frame size too big")) := by
  have hread : Goes (framed maxLength p) (.ready s) head [] _ :=
    goes_read (framed_receive h) hwidth
  rwa [if_pos hbig] at hread

theorem goes_receiveFrame {payload : List UInt8} (hfits : payload.length ≤ maxLength)
    (hmax : maxLength < 2 ^ 32) :
    Goes (framed maxLength p) (.ready s) (encode payload) [] (.ready (next payload)) := by
  have hlength : headLength (beBytes 4 payload.length) = payload.length :=
    headLength_beBytes (by omega)
  have hhead : Goes (framed maxLength p) (.ready s) (beBytes 4 payload.length) []
      (.body s (headLength (beBytes 4 payload.length)) next (atEnd closed broken)) :=
    goes_head h (beBytes_length 4 _) (by omega)
  rw [hlength] at hhead
  exact hhead.trans (goes_read framed_body rfl)

/-- A program that waits for a frame sees that the other side has returned. -/
theorem reaches_left_closed {τ κ : Type} {q : Peer τ κ} {t : τ} {toRight : List UInt8}
    (hclosed : (q t).returned = true) :
    Reaches (framed maxLength p) q ⟨.ready s, [], t, toRight⟩ ⟨.ready closed, [], t, toRight⟩ :=
  reaches_left_ended (framed_receive h) (Nat.zero_lt_succ 3) hclosed

theorem reaches_right_closed {τ κ : Type} {q : Peer τ κ} {t : τ} {toLeft : List UInt8}
    (hclosed : (q t).returned = true) :
    Reaches q (framed maxLength p) ⟨t, toLeft, .ready s, []⟩ ⟨t, toLeft, .ready closed, []⟩ :=
  reaches_right_ended (framed_receive h) (Nat.zero_lt_succ 3) hclosed

end Receiving

section Histories

/-- An upset ends the wait for a frame wherever it has got to. -/
def framedUpsets (f : Upsets σ) : Upsets (Framing σ) :=
  fun closed d => (f closed d.state).map .ready

variable (maxLength p) in
/-- The whole frames that a program has got and sent since a state. -/
inductive FrameRun (s : σ) : List (List UInt8) → List (List UInt8) → σ → Prop
  | start : FrameRun s [] [] s
  | sent {t next tooBig : σ} {got sent : List (List UInt8)} {payload : List UInt8}
      (h : FrameRun s got sent t) (hp : p t = .send payload next tooBig)
      (hfits : payload.length ≤ maxLength) : FrameRun s got (sent ++ [payload]) next
  | received {t closed : σ} {next : List UInt8 → σ} {broken : String → σ}
      {got sent : List (List UInt8)} {payload : List UInt8} (h : FrameRun s got sent t)
      (hp : p t = .receive next closed broken) (hfits : payload.length ≤ maxLength) :
      FrameRun s (got ++ [payload]) sent (next payload)

/-- Where a program goes when it cannot send a frame, gets none, or is upset. -/
inductive GivesUp (p : σ → FrameAct σ ρ) (f : Upsets σ) : σ → σ → Prop
  | tooBig {t next tooBig : σ} {payload : List UInt8} (hp : p t = .send payload next tooBig) :
      GivesUp p f t tooBig
  | closed {t closed : σ} {next : List UInt8 → σ} {broken : String → σ}
      (hp : p t = .receive next closed broken) : GivesUp p f t closed
  | broken {t closed : σ} {next : List UInt8 → σ} {broken : String → σ}
      (hp : p t = .receive next closed broken) (e : String) : GivesUp p f t (broken e)
  | upset {t t' : σ} {closed : Bool} (h : t' ∈ f closed t) : GivesUp p f t t'

/-- A program that returns when it gives up. -/
def Returns (p : σ → FrameAct σ ρ) (f : Upsets σ) : Prop :=
  ∀ t t', GivesUp p f t t' → (∃ result, p t' = .done result) ∧ ∀ closed, f closed t' = []

/-- The program has come to a state with its frames, or has given up there. -/
def StandsAt (p : σ → FrameAct σ ρ) (f : Upsets σ) (t : σ) (d : Framing σ) : Prop :=
  d.state = t ∨ ∃ t', GivesUp p f t t' ∧ d = .ready t'

variable (maxLength p) in
/-- What a program that has come to a state has read and sent, byte by byte. -/
inductive FramedAt (f : Upsets σ) (got sent : List (List UInt8)) (t : σ) :
    List UInt8 → List UInt8 → Framing σ → Prop
  | ready : FramedAt f got sent t (got.flatMap encode) (sent.flatMap encode) (.ready t)
  | body {closed : σ} {next : List UInt8 → σ} {broken : String → σ} {head : List UInt8}
      (hp : p t = .receive next closed broken) (hhead : head.length = 4)
      (hfits : headLength head ≤ maxLength) :
      FramedAt f got sent t (got.flatMap encode ++ head) (sent.flatMap encode)
        (.body t (headLength head) next (atEnd closed broken))
  | stopped {t' : σ} {more part : List UInt8} (hgives : GivesUp p f t t')
      (hpart : ∀ payload, payload.length ≤ maxLength → ¬encode payload <+: part) :
      FramedAt f got sent t (got.flatMap encode ++ more) (sent.flatMap encode ++ part) (.ready t')

variable {f : Upsets σ} {d d' : Framing σ} {taken given more out : List UInt8} {t : σ}
  {got sent : List (List UInt8)}

theorem encode_append_inj {a b r u : List UInt8} (ha : a.length < 2 ^ 32) (hb : b.length < 2 ^ 32)
    (h : encode a ++ r = encode b ++ u) : a = b ∧ r = u := by
  rw [encode, encode, List.append_assoc, List.append_assoc] at h
  obtain ⟨hhead, hrest⟩ := List.append_inj h (by rw [beBytes_length, beBytes_length])
  exact List.append_inj hrest (beBytes_inj (show a.length < 256 ^ 4 by omega) (by omega) hhead)

theorem not_encode_prefix_nil {payload : List UInt8} : ¬encode payload <+: [] := by
  intro h
  have hlength := h.length_le
  rw [encode, List.length_append, beBytes_length, List.length_nil] at hlength
  omega

theorem not_encode_prefix_dropLast {a b part : List UInt8} (ha : a.length < 2 ^ 32)
    (hb : b.length < 2 ^ 32) (hpart : part <+: (encode b).dropLast) : ¬encode a <+: part := by
  intro h
  obtain ⟨u, hu⟩ := (h.trans hpart).trans ( List.dropLast_prefix (encode b))
  have hwhole : encode a ++ u = encode b ++ [] := by rw [hu, List.append_nil]
  obtain ⟨rfl, -⟩ := encode_append_inj ha hb hwhole
  have hshort := (h.trans hpart).length_le
  rw [List.length_dropLast, encode, List.length_append, beBytes_length] at hshort
  omega

theorem prefix_of_flatMap_encode {part rest : List UInt8} (hmax : maxLength < 2 ^ 32)
    (hgot : ∀ payload ∈ got, payload.length ≤ maxLength)
    (hsent : ∀ payload ∈ sent, payload.length ≤ maxLength)
    (hpart : ∀ payload, payload.length ≤ maxLength → ¬encode payload <+: part)
    (h : got.flatMap encode ++ rest = sent.flatMap encode ++ part) : got <+: sent := by
  induction got generalizing sent with
  | nil => exact List.nil_prefix
  | cons a got ih =>
    rw [List.forall_mem_cons] at hgot
    rw [List.flatMap_cons, List.append_assoc] at h
    cases sent with
    | nil => exact absurd ⟨_, h⟩ (hpart a hgot.1)
    | cons b sent =>
      rw [List.forall_mem_cons] at hsent
      rw [List.flatMap_cons, List.append_assoc] at h
      obtain ⟨rfl, hrest⟩ := encode_append_inj (by omega) (by omega) h
      exact (List.prefix_cons_inj a).mpr (ih hgot.2 hsent.2 hrest)

theorem FrameRun.fits (h : FrameRun maxLength p s got sent t) :
    (∀ payload ∈ got, payload.length ≤ maxLength) ∧
      ∀ payload ∈ sent, payload.length ≤ maxLength := by
  induction h with
  | start => simp
  | sent _ _ hfits ih =>
    rw [List.forall_mem_append, List.forall_mem_singleton]
    exact ⟨ih.1, ih.2, hfits⟩
  | received _ _ hfits ih =>
    rw [List.forall_mem_append, List.forall_mem_singleton]
    exact ⟨⟨ih.1, hfits⟩, ih.2⟩

theorem FramedAt.gaveUp {t' : σ} (hgives : GivesUp p f t t') :
    FramedAt maxLength p f got sent t (got.flatMap encode ++ more) (sent.flatMap encode ++ [])
      (.ready t') :=
  .stopped hgives fun _ _ => not_encode_prefix_nil

theorem FramedAt.of_upset {closed : Bool} {e : Framing σ} {part : List UInt8} (hstate : e.state = t)
    (hmem : d ∈ framedUpsets f closed e) (hpart : part <+: []) :
    FramedAt maxLength p f got sent t (got.flatMap encode ++ more) (sent.flatMap encode ++ part)
      d := by
  obtain ⟨t', ht', rfl⟩ := List.mem_map.mp hmem
  rw [List.prefix_nil.mp hpart]
  exact .gaveUp (.upset (hstate ▸ ht'))

theorem givesUp_atEnd {closed : σ} {next : List UInt8 → σ} {broken : String → σ}
    (hp : p t = .receive next closed broken) (left : List UInt8) :
    GivesUp p f t (atEnd closed broken left) := by
  unfold atEnd
  split
  next => exact .closed hp
  next => exact .broken hp _

theorem framedAt_of_ready (hmax : maxLength < 2 ^ 32) (h : FrameRun maxLength p s got sent t)
    (hdeed : Deed (framed maxLength p) (framedUpsets f) (.ready t) more out d) :
    ∃ got' sent' t', FrameRun maxLength p s got' sent' t' ∧ FramedAt maxLength p f got' sent' t'
      (got.flatMap encode ++ more) (sent.flatMap encode ++ out) d := by
  cases hp : p t with
  | done result =>
    have hdone : framed maxLength p (.ready t) = .done result := framed_done hp
    cases hdeed with
    | upset hmem hpart =>
      rw [hdone] at hpart
      exact ⟨got, sent, t, h, .of_upset rfl hmem hpart⟩
    | _ hact => simp [hdone] at hact
  | send payload next tooBig =>
    by_cases hbig : maxLength < payload.length
    · have hstep : framed maxLength p (.ready t) = .step (.ready tooBig) := by
        rw [framed, hp]
        exact if_pos hbig
      cases hdeed with
      | step hact =>
        obtain rfl := Act.step.inj (hstep.symm.trans hact)
        exact ⟨got, sent, t, h, .gaveUp (.tooBig hp)⟩
      | upset hmem hpart =>
        rw [hstep] at hpart
        exact ⟨got, sent, t, h, .of_upset rfl hmem hpart⟩
      | _ hact => simp [hstep] at hact
    · have hsend : framed maxLength p (.ready t) = .send (encode payload) (.ready next) := by
        rw [framed, hp]
        exact if_neg hbig
      cases hdeed with
      | send hact =>
        obtain ⟨rfl, rfl⟩ := Act.send.inj (hsend.symm.trans hact)
        refine ⟨got, sent ++ [payload], next, h.sent hp (Nat.not_lt.mp hbig), ?_⟩
        have hready : FramedAt maxLength p f got (sent ++ [payload]) next _ _ _ := .ready
        rw [List.append_nil]
        rwa [List.flatMap_append, List.flatMap_singleton] at hready
      | upset hmem hpart =>
        obtain ⟨t', ht', rfl⟩ := List.mem_map.mp hmem
        rw [hsend] at hpart
        exact ⟨got, sent, t, h, .stopped (.upset ht') fun a ha =>
          not_encode_prefix_dropLast (by omega) (by omega) hpart⟩
      | _ hact => simp [hsend] at hact
  | receive next closed broken =>
    have hread : framed maxLength p (.ready t) = _ := framed_receive hp
    cases hdeed with
    | read hact hwidth =>
      obtain ⟨rfl, rfl, rfl⟩ := Act.read.inj (hread.symm.trans hact)
      dsimp only
      split
      next => exact ⟨got, sent, t, h, .gaveUp (.broken hp _)⟩
      next hfits =>
        rw [List.append_nil]
        exact ⟨got, sent, t, h, .body hp hwidth (Nat.not_lt.mp hfits)⟩
    | ended hact =>
      obtain ⟨rfl, rfl, rfl⟩ := Act.read.inj (hread.symm.trans hact)
      exact ⟨got, sent, t, h, .gaveUp (givesUp_atEnd hp _)⟩
    | upset hmem hpart =>
      rw [hread] at hpart
      exact ⟨got, sent, t, h, .of_upset rfl hmem hpart⟩
    | _ hact => simp [hread] at hact

theorem framedAt_of_deed (hmax : maxLength < 2 ^ 32) (hreturns : Returns p f)
    (h : FrameRun maxLength p s got sent t) (hat : FramedAt maxLength p f got sent t taken given d)
    (hdeed : Deed (framed maxLength p) (framedUpsets f) d more out d') :
    ∃ got' sent' t', FrameRun maxLength p s got' sent' t' ∧
      FramedAt maxLength p f got' sent' t' (taken ++ more) (given ++ out) d' := by
  cases hat with
  | ready => exact framedAt_of_ready hmax h hdeed
  | @body closed next broken head hp hhead hfits =>
    rw [List.append_assoc]
    cases hdeed with
    | read hact hwidth =>
      obtain ⟨rfl, rfl, rfl⟩ := Act.read.inj hact
      refine ⟨got ++ [more], sent, next more, h.received hp (hwidth ▸ hfits), ?_⟩
      have hencode : head ++ more = encode more := by
        have hbytes := leBytes_ofLe head.reverse
        rw [List.length_reverse, hhead] at hbytes
        rw [encode, hwidth, headLength, beBytes, hbytes, List.reverse_reverse]
      have hready : FramedAt maxLength p f (got ++ [more]) sent (next more) _ _ _ := .ready
      rw [hencode, List.append_nil]
      rwa [List.flatMap_append, List.flatMap_singleton] at hready
    | ended hact =>
      obtain ⟨rfl, rfl, rfl⟩ := Act.read.inj hact
      exact ⟨got, sent, t, h, .gaveUp (givesUp_atEnd hp _)⟩
    | upset hmem hpart => exact ⟨got, sent, t, h, .of_upset rfl hmem hpart⟩
    | step hact => contradiction
    | send hact => contradiction
  | stopped hgives hpart =>
    obtain ⟨⟨result, hdone⟩, hquiet⟩ := hreturns _ _ hgives
    have hact' : framed maxLength p (.ready _) = _ := framed_done hdone
    cases hdeed with
    | upset hmem hpart' =>
      obtain ⟨t', ht', -⟩ := List.mem_map.mp hmem
      rw [Framing.state, hquiet] at ht'
      contradiction
    | _ hact => simp [hact'] at hact

theorem framedAt_of_past (hmax : maxLength < 2 ^ 32) (hreturns : Returns p f)
    (h : Past (framed maxLength p) (framedUpsets f) (.ready s) taken given d) :
    ∃ got sent t, FrameRun maxLength p s got sent t ∧
      FramedAt maxLength p f got sent t taken given d := by
  induction h with
  | start => exact ⟨[], [], s, .start, .ready⟩
  | deed _ hdeed ih =>
    obtain ⟨got, sent, t, hrun, hat⟩ := ih
    exact framedAt_of_deed hmax hreturns hrun hat hdeed

theorem FramedAt.standsAt (h : FramedAt maxLength p f got sent t taken given d) :
    StandsAt p f t d := by
  cases h with
  | ready => exact .inl rfl
  | body => exact .inl rfl
  | stopped hgives hpart => exact .inr ⟨_, hgives, rfl⟩

theorem FramedAt.bytes (h : FramedAt maxLength p f got sent t taken given d) :
    ∃ rest part, taken = got.flatMap encode ++ rest ∧ given = sent.flatMap encode ++ part ∧
      ∀ payload, payload.length ≤ maxLength → ¬encode payload <+: part := by
  have hnone : ∀ payload : List UInt8, payload.length ≤ maxLength → ¬encode payload <+: [] :=
    fun _ _ => not_encode_prefix_nil
  cases h with
  | ready => exact ⟨[], [], (List.append_nil _).symm, (List.append_nil _).symm, hnone⟩
  | body => exact ⟨_, [], rfl, (List.append_nil _).symm, hnone⟩
  | stopped hgives hpart => exact ⟨_, _, rfl, rfl, hpart⟩

/-- In every run of two programs that return when they give up, each has got the first of the
frames that the other has sent. -/
theorem frames_of_rough {τ κ : Type} {q : τ → FrameAct τ κ} {g : Upsets τ} {t : τ}
    {d : Scene (Framing σ) (Framing τ)} (hmax : maxLength < 2 ^ 32) (hp : Returns p f)
    (hq : Returns q g)
    (h : ReachesRoughly (framed maxLength p) (framedUpsets f) (framed maxLength q)
      (framedUpsets g) ⟨.ready s, [], .ready t, []⟩ d) :
    ∃ got sent s' got' sent' t', FrameRun maxLength p s got sent s' ∧
      FrameRun maxLength q t got' sent' t' ∧ got <+: sent' ∧ got' <+: sent ∧
      StandsAt p f s' d.left ∧ StandsAt q g t' d.right := by
  obtain ⟨taken, taken', hleft, hright⟩ := past_of_rough h
  obtain ⟨got, sent, s', hrun, hat⟩ := framedAt_of_past hmax hp hleft
  obtain ⟨got', sent', t', hrun', hat'⟩ := framedAt_of_past hmax hq hright
  obtain ⟨rest, part, rfl, hgiven, hpart⟩ := hat.bytes
  obtain ⟨rest', part', rfl, hgiven', hpart'⟩ := hat'.bytes
  rw [List.append_assoc] at hgiven hgiven'
  exact ⟨got, sent, s', got', sent', t', hrun, hrun',
    prefix_of_flatMap_encode hmax hrun.fits.1 hrun'.fits.2 hpart' hgiven',
    prefix_of_flatMap_encode hmax hrun'.fits.1 hrun.fits.2 hpart hgiven, hat.standsAt,
    hat'.standsAt⟩

end Histories

end Codec

end FrameCodec
