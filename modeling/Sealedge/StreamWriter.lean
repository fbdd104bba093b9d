import Sealedge.StreamRecords

namespace Sealedge

open Fallible Bincode PieceReader

/-- Documented behaviour of AES-GCM: decryption inverts encryption, and the ciphertext is longer
than the text by the tag. -/
structure EnvelopeCrates.SealsLawfully (ec : EnvelopeCrates) : Prop where
  decrypts : ∀ key nonce aad text ct, ec.aes256GcmEncrypt key nonce aad text = some ct →
    ec.aes256GcmDecrypt key nonce aad ct = some text
  tagged : ∀ key nonce aad text ct, ec.aes256GcmEncrypt key nonce aad text = some ct →
    ct.length = text.length + aesGcmTagSize

section Loop

variable {β : Type} {call : EncryptCall} {body : Nat → UInt64 → Bytes → Except String β}
  {input rest : Input} {round seq : Nat} {buf : Bytes}

theorem forEachChunk_timeUp (h : call.timeUp round = true) :
    call.forEachChunk body input round seq = ([], .ok ()) := by
  rw [EncryptCall.forEachChunk, if_pos h]

theorem forEachChunk_error {err : String} (h : call.timeUp round = false)
    (hread : input.readChunk call.chunk = .error err) :
    call.forEachChunk body input round seq = ([], .error err) := by
  rw [EncryptCall.forEachChunk, if_neg (by simp [h])]
  split
  next err' hread' =>
    cases hread.symm.trans hread'
    rfl
  next buf rest hread' => cases hread.symm.trans hread'

/-- A read without bytes ends the loop, except for live audio with a time limit. -/
theorem forEachChunk_empty (h : call.timeUp round = false)
    (hread : input.readChunk call.chunk = .ok ([], rest)) :
    call.forEachChunk body input round seq =
      if input.isLiveAudio = true ∧ 0 < call.maxDuration then
        call.forEachChunk body rest (round + 1) seq
      else ([], .ok ()) := by
  rw [EncryptCall.forEachChunk, if_neg (by simp [h])]
  split
  next err hread' => cases hread.symm.trans hread'
  next buf rest hread' =>
    cases hread.symm.trans hread'
    by_cases hlive : input.isLiveAudio = true <;> simp [hlive]

theorem forEachChunk_next (h : call.timeUp round = false)
    (hread : input.readChunk call.chunk = .ok (buf, rest)) (hbuf : buf ≠ []) :
    call.forEachChunk body input round seq =
      if 2 ^ 64 ≤ seq + 1 then ([], .error "seq overflow")
      else
        match body round (UInt64.ofNat (seq + 1)) buf with
        | .error err => ([], .error err)
        | .ok made =>
          (made :: (call.forEachChunk body rest (round + 1) (seq + 1)).1,
            (call.forEachChunk body rest (round + 1) (seq + 1)).2) := by
  rw [EncryptCall.forEachChunk, if_neg (by simp [h])]
  split
  next err hread' => cases hread.symm.trans hread'
  next buf rest hread' =>
    cases hread.symm.trans hread'
    exact dif_neg hbuf

theorem readChunk_length_le {room : Nat} (h : input.readChunk room = .ok (buf, rest)) :
    buf.length ≤ room := by
  cases input with
  | file extension reader =>
    obtain ⟨rfl, rfl⟩ := Prod.mk.inj (Except.ok.inj h)
    exact reader.read_length_le room
  | liveAudio sampleRate channels captured =>
    cases captured with
    | nil => contradiction
    | cons audioBytes captured =>
      obtain ⟨rfl, rfl⟩ := Prod.mk.inj (Except.ok.inj h)
      exact List.length_take_le room audioBytes

theorem forEachChunk_file_end {extension : Option String} {reader : Reader UInt8}
    (hend : (reader.read call.chunk).1 = []) :
    call.forEachChunk body (.file extension reader) round seq = ([], .ok ()) := by
  cases htime : call.timeUp round with
  | true => exact forEachChunk_timeUp htime
  | false =>
    have hread : (Input.file extension reader).readChunk call.chunk =
        .ok ([], .file extension (reader.read call.chunk).2) := by
      rw [← hend]
      rfl
    rw [forEachChunk_empty htime hread]
    rfl

/-- From a file the loop reads its pieces, up to the end or until its time is up. -/
theorem forEachChunk_file {extension : Option String} (reader : Reader UInt8) (round seq : Nat)
    (h : (call.forEachChunk (fun _ _ buf => Except.ok buf) (.file extension reader)
      round seq).2 = .ok ()) :
    ∃ k ≤ (reader.pieces call.chunk).length,
      (call.forEachChunk (fun _ _ buf => Except.ok buf) (.file extension reader) round seq).1 =
        (reader.pieces call.chunk).take k ∧
      (∀ i < k, call.timeUp (round + i) = false) ∧
      (k < (reader.pieces call.chunk).length → call.timeUp (round + k) = true) := by
  induction reader using Reader.read_induction call.chunk generalizing round seq with
  | atEnd reader hend =>
    rw [forEachChunk_file_end hend, Reader.pieces_nil hend]
    refine ⟨0, by omega, rfl, ?_, ?_⟩
    · intro i hi
      omega
    · intro hlt
      simp at hlt
  | next reader hmore ih =>
    cases htime : call.timeUp round with
    | true =>
      rw [forEachChunk_timeUp htime]
      refine ⟨0, by omega, rfl, ?_, ?_⟩
      · intro i hi
        omega
      · intro _
        exact htime
    | false =>
      rw [forEachChunk_next htime rfl hmore] at h ⊢
      rw [Reader.pieces_cons hmore]
      split at h
      next => contradiction
      next hseq =>
        obtain ⟨k, hk, hchunks, hbefore, hafter⟩ := ih (round + 1) (seq + 1) h
        rw [if_neg hseq]
        refine ⟨k + 1, by simpa using hk, ?_, ?_, ?_⟩
        · simp only [List.take_succ_cons, hchunks]
        · intro i hi
          cases i with
          | zero => exact htime
          | succ i =>
            have hi' := hbefore i (by omega)
            rwa [Nat.add_right_comm] at hi'
        · intro hlt
          have hk' := hafter (by simpa using hlt)
          rwa [Nat.add_right_comm] at hk'

theorem forEachChunk_file_ok {extension : Option String}
    (hbody : ∀ round seq buf, buf.length ≤ call.chunk → ∃ made, body round seq buf = .ok made)
    (reader : Reader UInt8) (round seq : Nat)
    (hcount : seq + (reader.pieces call.chunk).length < 2 ^ 64) :
    (call.forEachChunk body (.file extension reader) round seq).2 = .ok () := by
  induction reader using Reader.read_induction call.chunk generalizing round seq with
  | atEnd reader hend => rw [forEachChunk_file_end hend]
  | next reader hmore ih =>
    cases htime : call.timeUp round with
    | true => rw [forEachChunk_timeUp htime]
    | false =>
      rw [Reader.pieces_cons hmore, List.length_cons] at hcount
      obtain ⟨made, hmade⟩ := hbody round (UInt64.ofNat (seq + 1)) _
        (reader.read_length_le call.chunk)
      rw [forEachChunk_next htime rfl hmore, if_neg (by omega), hmade]
      exact ih (round + 1) (seq + 1) (by omega)

end Loop

/-- The chunks that the loop reads when its body never fails. -/
def EncryptCall.chunksFrom (call : EncryptCall) (input : Input) (round seq : Nat) : List Bytes :=
  (call.forEachChunk (fun _ _ buf => .ok buf) input round seq).1

/-- The plaintext chunks of the stream. -/
def EncryptCall.chunksRead (call : EncryptCall) : List Bytes :=
  call.chunksFrom call.input 0 0

section Writing

variable (x : Crates) (ec : EnvelopeCrates) (key : Fixed 32)

/-- The record that is written for a ciphertext. -/
def EncryptCall.record (call : EncryptCall) (round : Nat) (seq : UInt64) (buf ct : Bytes) :
    Record where
  seq
  nonce := recordNonce call.noncePrefix seq
  sm := {
    manifest := (call.manifest x round seq buf).bincode
    sig := signManifestWithDomain x call.signing (call.manifest x round seq buf).bincode
    pubkey := call.signing.verifyingKey x }
  ct

/-- The records that the loop writes, each with its plaintext. -/
def EncryptCall.written (call : EncryptCall) : List (Record × Bytes) :=
  (call.forEachChunk (call.sealChunk x ec key) call.input 0 0).1

variable {x ec key} {call : EncryptCall}

theorem sealChunk_eq_ok (hx : x.SignsLawfully) {round : Nat} {seq : UInt64} {buf pt : Bytes}
    {r : Record} : call.sealChunk x ec key round seq buf = .ok (r, pt) ↔
      ∃ ct, ec.aes256GcmEncrypt key (recordNonce call.noncePrefix seq) (call.aad x round seq buf)
          buf = some ct ∧
        ec.aes256GcmDecrypt key (recordNonce call.noncePrefix seq) (call.aad x round seq buf) ct =
          some pt ∧ x.blake3 pt = x.blake3 buf ∧ r = call.record x round seq buf ct := by
  simp only [EncryptCall.sealChunk, bind_eq_ok, failWhen_eq_ok, elim_eq_ok, exists_const,
    bne_eq_false_iff_eq, EncryptCall.manifest_deserialize, checkSignature_signed hx,
    pure, Except.pure, Except.ok.injEq, Prod.mk.injEq]
  constructor
  · rintro ⟨ct, hencrypt, m, hm, -, text, hdecrypt, hhash, rfl, rfl⟩
    obtain rfl := Option.some.inj hm
    exact ⟨ct, hencrypt, hdecrypt, hhash, rfl⟩
  · rintro ⟨ct, hencrypt, hdecrypt, hhash, rfl⟩
    exact ⟨ct, hencrypt, _, rfl, trivial, pt, hdecrypt, hhash, rfl, rfl⟩

/-- A record whose ciphertext opens to the chunk takes its place in the stream. -/
theorem recordOf_record (hx : x.SignsLawfully) {round : Nat} {seq : UInt64} {buf ct : Bytes}
    (hlen : buf.length < 2 ^ 32)
    (hopens : ec.aes256GcmDecrypt key (recordNonce call.noncePrefix seq)
      (call.aad x round seq buf) ct = some buf)
    (htagged : ct.length = buf.length + aesGcmTagSize) :
    RecordOf x ec key call round seq buf (call.record x round seq buf ct) := by
  have hmanifest : (call.manifest x round seq buf).bincode.length ≤ 300 :=
    EncryptCall.manifest_short round seq buf
  have hsig := hx.signatureLength call.signing.secret
    (manifestDomainSep ++ (call.manifest x round seq buf).bincode)
  have hpub := hx.publicLength call.signing.secret
  refine ⟨rfl, rfl, rfl, checkSignature_signed hx call.signing _, ⟨?_, ?_, ?_, ?_⟩, hopens, htagged⟩
  · show (call.manifest x round seq buf).bincode.length < 256 ^ 8
    omega
  · show (x.ed25519Sign _ _).length < 256 ^ 8
    omega
  · show (x.ed25519Public _).length < 256 ^ 8
    omega
  · show ct.length < 256 ^ 8
    simp only [aesGcmTagSize] at htagged
    omega

theorem sealChunk_recordOf (hx : x.SignsLawfully) (hec : ec.SealsLawfully) {round : Nat}
    {seq : UInt64} {buf pt : Bytes} {r : Record} (hlen : buf.length < 2 ^ 32)
    (h : call.sealChunk x ec key round seq buf = .ok (r, pt)) :
    pt = buf ∧ RecordOf x ec key call round seq buf r := by
  obtain ⟨ct, hencrypt, hdecrypt, -, rfl⟩ := (sealChunk_eq_ok hx).mp h
  have hopens := hec.decrypts _ _ _ _ _ hencrypt
  refine ⟨Option.some.inj (hdecrypt.symm.trans hopens), ?_⟩
  exact recordOf_record hx hlen hopens (hec.tagged _ _ _ _ _ hencrypt)

/-- A loop that ends well has written the stream of the chunks it read, and read to its end. -/
theorem forEachChunk_streamOf (hx : x.SignsLawfully) (hec : ec.SealsLawfully)
    (hchunk : call.chunk < 2 ^ 32) (input : Input) (round seq : Nat)
    (h : (call.forEachChunk (call.sealChunk x ec key) input round seq).2 = .ok ()) :
    StreamOf x ec key call seq (call.chunksFrom input round seq)
        (call.forEachChunk (call.sealChunk x ec key) input round seq).1 ∧
      (call.forEachChunk (fun _ _ buf => Except.ok buf) input round seq).2 = .ok () := by
  induction hn : input.remaining using Nat.strong_induction_on generalizing input round seq with
  | _ n ih =>
    subst hn
    unfold EncryptCall.chunksFrom at ih ⊢
    cases htime : call.timeUp round with
    | true =>
      rw [forEachChunk_timeUp htime, forEachChunk_timeUp htime]
      exact ⟨.nil seq, rfl⟩
    | false =>
      cases hread : input.readChunk call.chunk with
      | error err =>
        rw [forEachChunk_error htime hread] at h
        contradiction
      | ok p =>
        obtain ⟨buf, rest⟩ := p
        by_cases hbuf : buf = []
        · subst hbuf
          rw [forEachChunk_empty htime hread] at h ⊢
          rw [forEachChunk_empty htime hread]
          split at h
          next hwait =>
            rw [if_pos hwait, if_pos hwait]
            have hless := Input.readChunk_remaining_lt hread (Or.inr hwait.1)
            exact ih _ hless rest (round + 1) seq h rfl
          next hstop =>
            rw [if_neg hstop, if_neg hstop]
            exact ⟨.nil seq, rfl⟩
        · rw [forEachChunk_next htime hread hbuf] at h ⊢
          rw [forEachChunk_next htime hread hbuf]
          split at h
          next => contradiction
          next hseq =>
            rw [if_neg hseq, if_neg hseq]
            split at h
            next => contradiction
            next made hmade =>
              obtain ⟨r, pt⟩ := made
              have hroom := readChunk_length_le hread
              have hless := Input.readChunk_remaining_lt hread (Or.inl hbuf)
              have hlater := ih _ hless rest (round + 1) (seq + 1) h rfl
              obtain ⟨rfl, hr⟩ := sealChunk_recordOf hx hec (by omega) hmade
              exact ⟨.cons (by omega) hbuf hroom hr hlater.1, hlater.2⟩

end Writing

end Sealedge
