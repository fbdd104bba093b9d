import Sealedge.UploadAgreement

namespace Sealedge

open Fallible Bincode PieceReader Dialogue FrameCodec

/-- The client without `--hardened`, after its authentication. -/
inductive LegacyState
  | sending (key : Fixed 32) (source : UploadSource) (seq : Nat)
  | sendingData (serialized : Bytes) (key : Fixed 32) (source : UploadSource) (seq : Nat)
  | readingLength (key : Fixed 32) (source : UploadSource) (seq : Nat)
  | readingAck (length : Nat) (key : Fixed 32) (source : UploadSource) (seq : Nat)
  | finished (result : Except String Unit)

/-- The loop of `send_encrypted_file` and `send_encrypted_test_chunks`, with `send_chunk` and
`read_ack`: the lengths stand with the lowest byte first. -/
def UploadCall.legacy (u : UploadCall) (x : Crates) (ec : EnvelopeCrates) :
    Peer LegacyState (Except String Unit)
  | .sending key source seq =>
    match source.next u.chunkSize seq with
    | none => .done (.ok ())
    | some (pt, rest) =>
      match u.networkChunk x ec key seq pt with
      | .error e => .done (.error e)
      | .ok chunk =>
        .send (leBytes 4 chunk.bincode.length) (.sendingData chunk.bincode key rest seq)
  | .sendingData serialized key source seq => .send serialized (.readingLength key source seq)
  | .readingLength key source seq =>
    .read 4 (fun bytes => .readingAck (ofLe bytes) key source seq)
      (fun _ => .finished (.error "Failed to read ACK: read ACK length: early eof"))
  | .readingAck length key source seq =>
    .read length
      (fun bytes =>
        match utf8Decode bytes with
        | some _ => .sending key source (seq + 1)
        | none => .finished (.error "Failed to read ACK: ACK is not valid UTF-8"))
      (fun _ => .finished (.error "Failed to read ACK: read ACK data: early eof"))
  | .finished result => .done result

section Lengths

theorem headLength_leBytes {n : Nat} (h : n < 2 ^ 16) :
    headLength (leBytes 4 n) = n / 256 * 2 ^ 16 + n % 256 * 2 ^ 24 := by
  have hbyte : ∀ m : Nat, (UInt8.ofNat m).toNat = m % 256 := fun m => by simp
  have hhigh : n / 256 / 256 = 0 := by omega
  have hbytes : leBytes 4 n =
      [UInt8.ofNat n, UInt8.ofNat (n / 256), UInt8.ofNat 0, UInt8.ofNat 0] := by
    rw [leBytes, leBytes, leBytes, leBytes, leBytes, hhigh]
  rw [hbytes, headLength]
  simp only [List.reverse_cons, List.reverse_nil, List.nil_append, List.cons_append, ofLe, hbyte]
  omega

end Lengths

section Legacy

variable {x : Crates} {ec : EnvelopeCrates} {u : UploadCall} {key : Fixed 32}
  {source rest : UploadSource} {pt : Bytes} {chunk : NetworkChunk} {config : ConnectionConfig}
  {session : ProcessingSession}

theorem goes_legacy (hnext : source.next u.chunkSize 1 = some (pt, rest))
    (hchunk : u.networkChunk x ec key 1 pt = .ok chunk) :
    Goes (u.legacy x ec) (.sending key source 1) []
      (leBytes 4 chunk.bincode.length ++ chunk.bincode) (.readingLength key rest 1) := by
  have hact : u.legacy x ec (.sending key source 1) =
      .send (leBytes 4 chunk.bincode.length) (.sendingData chunk.bincode key rest 1) := by
    rw [UploadCall.legacy, hnext]
    simp only [hchunk]
  exact .send hact (goes_send rfl)

theorem NetworkChunk.bincode_length_ge (chunk : NetworkChunk) : 44 ≤ chunk.bincode.length := by
  simp only [NetworkChunk.bincode, putVec, List.length_append, leBytes_length,
    chunk.nonce.property]
  omega

variable (keyedHash : Bytes → Bytes → Bytes)

theorem legacy_refused (hnext : source.next u.chunkSize 1 = some (pt, rest))
    (hchunk : u.networkChunk x ec key 1 pt = .ok chunk) (hshort : chunk.bincode.length < 2 ^ 16)
    (hlow : chunk.bincode.length % 256 ≠ 0)
    (hlimits : config.checkLimits session = .ok ()) :
    EndsWith (u.legacy x ec) (config.receiver keyedHash)
      ⟨.sending key source 1, [], .ready (.serving session []), []⟩
      (.error "Failed to read ACK: read ACK length: early eof")
      ([], .error "Frame decode error: frame size too big") := by
  have hlong := chunk.bincode_length_ge
  have hhead : maxFrameLength < headLength (leBytes 4 chunk.bincode.length) := by
    rw [headLength_leBytes hshort, maxFrameLength]
    omega
  have hserver : Goes (config.receiver keyedHash) (.ready (.serving session []))
      (leBytes 4 chunk.bincode.length) []
      (.ready (.finished [] (.error "Frame decode error: frame size too big"))) :=
    goes_headTooBig (ConnectionConfig.act_serving keyedHash hlimits [])
      (leBytes_length 4 chunk.bincode.length) hhead
  have hdone : config.receiver keyedHash
      (.ready (.finished [] (.error "Frame decode error: frame size too big"))) =
        .done ([], .error "Frame decode error: frame size too big") := framed_done rfl
  refine EndsWith.of_reaches ?_ ((goes_legacy hnext hchunk).turn_left _)
  refine EndsWith.of_reaches ?_ (hserver.reaches_right _)
  refine endsWith_of_reaches (reaches_left_ended rfl (by decide) ?_) rfl hdone
  rw [hdone, Act.returned]

/-- A length whose lowest byte is zero makes the server wait for more than the chunk. -/
theorem legacy_stuck (hnext : source.next u.chunkSize 1 = some (pt, rest))
    (hchunk : u.networkChunk x ec key 1 pt = .ok chunk) (hshort : chunk.bincode.length < 2 ^ 16)
    (hlow : chunk.bincode.length % 256 = 0) (hlimits : config.checkLimits session = .ok ()) :
    GetsStuck (u.legacy x ec) (config.receiver keyedHash)
      ⟨.sending key source 1, [], .ready (.serving session []), []⟩ := by
  have hlong := chunk.bincode_length_ge
  have hhead : headLength (leBytes 4 chunk.bincode.length) =
      chunk.bincode.length / 256 * 2 ^ 16 := by
    rw [headLength_leBytes hshort, hlow]
    omega
  have hserver : Goes (config.receiver keyedHash) (.ready (.serving session []))
      (leBytes 4 chunk.bincode.length) [] _ :=
    goes_head (ConnectionConfig.act_serving keyedHash hlimits []) (leBytes_length 4 _) (by
      rw [hhead, maxFrameLength]
      omega)
  rw [hhead] at hserver
  have hwaits : chunk.bincode.length < chunk.bincode.length / 256 * 2 ^ 16 := by omega
  refine ⟨_, ((goes_legacy hnext hchunk).turn_left _).trans (hserver.reaches_right _), ?_, rfl, rfl⟩
  intro d hstep
  cases hstep with
  | left hmove => exact Option.some_ne_none _ hmove.symm
  | right hmove =>
    unfold ConnectionConfig.receiver at hmove
    rw [framed_body, Act.move, if_neg (Nat.not_le.mpr hwaits)] at hmove
    exact Option.some_ne_none _ hmove.symm

/-- Without `--hardened` no chunk is ever acknowledged: client and server disagree on the order of
the bytes of a length. When the server returns it has logged nothing and fails, and when the client
returns it fails. -/
theorem legacy_never_succeeds {c : Connection} {connectionId : Nat}
    (hopen : config.openConnection c (.new connectionId config.requireAuth) = .ok session)
    (hnext : source.next u.chunkSize 1 = some (pt, rest))
    (hchunk : u.networkChunk x ec key 1 pt = .ok chunk) (hshort : chunk.bincode.length < 2 ^ 16)
    {d : Scene LegacyState (Framing ServerState)}
    (hd : Reaches (u.legacy x ec) (config.receiver keyedHash)
      ⟨.sending key source 1, [], .ready (.serving session []), []⟩ d) :
    (∀ r, u.legacy x ec d.left = .done r → ∃ e, r = .error e) ∧
    ∀ log result, config.receiver keyedHash d.right = .done (log, result) →
      log = [] ∧ ∃ e, result = .error e := by
  have hsession := (ConnectionConfig.openConnection_eq_ok hopen).2
  have hlimits : config.checkLimits session = .ok () :=
    (ConnectionConfig.checkLimits_eq_ok hsession).mpr
      ⟨fun _ => Nat.zero_le _, fun _ => Nat.zero_le _⟩
  by_cases hlow : chunk.bincode.length % 256 = 0
  · obtain ⟨hleft, hright⟩ :=
      (legacy_stuck keyedHash hnext hchunk hshort hlow hlimits).not_returned hd
    refine ⟨fun r hr => ?_, fun log result hr => ?_⟩
    · rw [hr] at hleft
      contradiction
    · rw [hr] at hright
      contradiction
  · have hends := legacy_refused keyedHash hnext hchunk hshort hlow hlimits
    refine ⟨fun r hr => ⟨_, hends.left_result hd hr⟩, fun log result hr => ?_⟩
    obtain ⟨rfl, rfl⟩ := Prod.mk.inj (hends.right_result hd hr)
    exact ⟨rfl, _, rfl⟩

/-- The sample without `--hardened`. -/
def legacySample : UploadCall := { sampleUpload with hardened := false }

theorem legacy_sample_never_succeeds :
    ∃ chunk, legacySample.networkChunk sampleCrates taggedSample sampleStreamKey 1 [1, 2] =
        .ok chunk ∧ chunk.bincode.length < 2 ^ 16 ∧
      ∀ d r, Reaches (legacySample.legacy sampleCrates taggedSample)
          (oneChunkConfig.receiver fun _ bytes => bytes)
          ⟨.sending sampleStreamKey legacySample.source 1, [], .ready (.serving (.new 1 false) []),
            []⟩ d → legacySample.legacy sampleCrates taggedSample d.left = .done r →
        ∃ e, r = .error e := by
  have hopen : oneChunkConfig.openConnection twoChunkConnection
      (.new 1 oneChunkConfig.requireAuth) = .ok (.new 1 false) := rfl
  have hnext : legacySample.source.next legacySample.chunkSize 1 = some ([1, 2],
      .file ((Reader.full [1, 2, 3]).read 2).2) := rfl
  obtain ⟨chunk, hchunk⟩ : ∃ chunk, legacySample.networkChunk sampleCrates taggedSample
      sampleStreamKey 1 [1, 2] = .ok chunk := ⟨_, rfl⟩
  have hshort : chunk.bincode.length < 2 ^ 16 := by
    have hlength : (legacySample.networkChunk sampleCrates taggedSample sampleStreamKey 1
        [1, 2]).toOption.map (fun c => c.bincode.length) = some 297 := by decide +kernel
    rw [hchunk] at hlength
    have hvalue : chunk.bincode.length = 297 := Option.some.inj hlength
    omega
  refine ⟨chunk, hchunk, hshort, fun d r hd hr => ?_⟩
  exact (legacy_never_succeeds _ hopen hnext hchunk hshort hd).1 r hr

end Legacy

end Sealedge
