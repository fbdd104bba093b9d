import Mathlib.Data.Set.Insert
import Sealedge.StreamTruncation

namespace Sealedge

open Fallible Bincode PieceReader

section Authentic

variable (x : Crates) (ec : EnvelopeCrates) (key : Fixed 32)

/-- Encrypt mode made this ciphertext for chunk `i` of the call, with this nonce and associated
data. -/
def SealedAt (call : EncryptCall) (i : Nat) (nonce : Fixed 12) (aad ct pt : Bytes) : Prop :=
  i + 1 < 2 ^ 64 ∧ call.chunksRead[i]? = some pt ∧
    nonce = recordNonce call.noncePrefix (UInt64.ofNat (i + 1)) ∧
    (∃ round, aad = call.aad x round (UInt64.ofNat (i + 1)) pt) ∧
    ec.aes256GcmEncrypt key nonce aad pt = some ct

/-- An ideal cipher under this key: it opens only what one of the calls sealed, to what was
sealed. -/
def EnvelopeCrates.OpensOnlyStreams (calls : List EncryptCall) : Prop :=
  ∀ nonce aad ct pt, ec.aes256GcmDecrypt key nonce aad ct = some pt →
    ∃ call ∈ calls, ∃ i, SealedAt x ec key call i nonce aad ct pt

variable {x ec key} {calls : List EncryptCall}

theorem buildAad_binds {hash hash' manifestHash manifestHash' : Digest} {seq seq' : UInt64}
    {nonce nonce' : Fixed 12} {chunkLen chunkLen' : UInt32}
    (h : buildAad hash seq nonce manifestHash chunkLen =
      buildAad hash' seq' nonce' manifestHash' chunkLen') : hash = hash' ∧ seq = seq' := by
  obtain ⟨h, -⟩ := List.append_inj' h (by rw [beBytes_length, beBytes_length])
  obtain ⟨h, -⟩ := List.append_inj' h (by rw [manifestHash.property, manifestHash'.property])
  obtain ⟨h, -⟩ := List.append_inj' h (by rw [nonce.property, nonce'.property])
  obtain ⟨hhash, hseq⟩ := List.append_inj' h (by rw [beBytes_length, beBytes_length])
  exact ⟨Subtype.ext hhash, UInt64.toNat_inj.mp (beBytes_inj seq.toNat_lt seq'.toNat_lt hseq)⟩

/-- A record that passes at its place was sealed for that place of a stream with this header
hash. -/
theorem acceptRecord_sealed (hideal : ec.OpensOnlyStreams x key calls) {fh : FileHeader}
    {headerHash : Digest} {st st' : StreamState} {r : Record} {pt : Bytes} {n : Nat}
    (hst : st.expectedSeq = n + 1)
    (h : acceptRecord x ec key fh headerHash st r = .ok (pt, st')) :
    ∃ call ∈ calls, call.headerHash x = headerHash ∧
      ∃ aad, SealedAt x ec key call n r.nonce aad r.ct pt := by
  obtain ⟨-, m, haccepted⟩ := acceptRecord_eq_ok.mp h
  obtain ⟨call, hcall, i, hsealed⟩ := hideal _ _ _ _ haccepted.opens
  have hplaced := hsealed
  obtain ⟨hi, -, -, ⟨round, haad⟩, -⟩ := hplaced
  obtain ⟨hhash, hseq⟩ := buildAad_binds haad
  have hplace : i = n := by
    have hnumber := haccepted.seq
    rw [hseq, UInt64.toNat_ofNat', Nat.mod_eq_of_lt hi, hst] at hnumber
    omega
  subst hplace
  exact ⟨call, hcall, hhash.symm, _, hsealed⟩

/-- Every record that the loop accepts was sealed for the place where it is accepted. -/
theorem decryptRecords_sealed (hideal : ec.OpensOnlyStreams x key calls) {fh : FileHeader}
    {headerHash : Digest} {st : StreamState} {bytes : Bytes} {n : Nat}
    {accepted : List (Record × Bytes)} (hst : st.expectedSeq = n + 1)
    (h : decryptRecords x ec key fh headerHash st bytes = .ok accepted) :
    ∀ i w, accepted[i]? = some w → ∃ call ∈ calls, call.headerHash x = headerHash ∧
      ∃ aad, SealedAt x ec key call (n + i) w.1.nonce aad w.1.ct w.2 := by
  induction hlen : bytes.length using Nat.strong_induction_on
    generalizing bytes st n accepted with
  | _ length ih =>
    subst hlen
    intro i w hw
    cases hget : Record.get bytes with
    | none =>
      rw [decryptRecords_none hget] at h
      obtain rfl := Except.ok.inj h
      contradiction
    | some p =>
      obtain ⟨r, rest⟩ := p
      obtain ⟨pt, later, haccept, hlater, rfl⟩ := (decryptRecords_some hget).mp h
      cases i with
      | zero =>
        obtain rfl := Option.some.inj hw
        exact acceptRecord_sealed hideal hst haccept
      | succ i =>
        have hless := Record.get_local.rest_lt rfl hget
        have hnext : (st.next pt).expectedSeq = n + 1 + 1 := congrArg (· + 1) hst
        rw [show n + (i + 1) = n + 1 + i by omega]
        exact ih _ hless hnext hlater rfl i w hw

theorem EncryptCall.header_toBytes_inj {call call' : EncryptCall}
    (h : (call.header x).toBytes.val = (call'.header x).toBytes.val) :
    call.header x = call'.header x := by
  have hparse : FileHeader.fromBytes (call.header x).toBytes = .ok (call'.header x) := by
    rw [Subtype.ext h]
    exact call'.fromBytes_header
  exact Except.ok.inj (call.fromBytes_header.symm.trans hparse)

theorem map_eq_take {α β : Type} {f : α → β} {as : List α} {bs : List β}
    (h : ∀ (i : Nat) a, as[i]? = some a → bs[i]? = some (f a)) : as.map f = bs.take as.length := by
  apply List.ext_getElem?
  intro i
  rw [List.getElem?_map, List.getElem?_take]
  by_cases hi : i < as.length
  · rw [if_pos hi, List.getElem?_eq_getElem hi, h i as[i] (List.getElem?_eq_getElem hi)]
    rfl
  · rw [if_neg hi, List.getElem?_eq_none (by omega)]
    rfl

/-- Whatever bytes are decrypted under the key: no record is accepted, or the header is that of
one stream sealed under the key and the accepted records are its first ones in their order. -/
theorem accepted_stream_is_front (hideal : ec.OpensOnlyStreams x key calls)
    (hheaders : (calls.map (EncryptCall.header x)).Nodup) {bytes : Bytes} {d : DecryptedStream}
    (h : decryptEnvelope x ec key bytes = .ok d)
    (hinj : Set.InjOn x.blake3
      (insert d.header {header | ∃ call ∈ calls, header = (call.header x).toBytes.val})) :
    (d.accepted = [] ∧ d.output = []) ∨
    ∃ call ∈ calls, d.header = (call.header x).toBytes.val ∧
      (∀ i w, d.accepted[i]? = some w →
        ∃ aad, SealedAt x ec key call i w.1.nonce aad w.1.ct w.2) ∧
      d.output = (call.chunksRead.take d.accepted.length).flatten := by
  obtain ⟨sh, rest, fh, -, hheader, hhash, hrecords⟩ := decryptEnvelope_spec h
  have hsealed := decryptRecords_sealed hideal (n := 0) rfl hrecords
  -- a stream whose header hash is the one in the file has the header in the file
  have hsame : ∀ call ∈ calls, call.headerHash x = sh.headerHash →
      d.header = (call.header x).toBytes.val := by
    intro call hcall hcallHash
    refine hinj (Set.mem_insert _ _) (Set.mem_insert_of_mem _ ⟨call, hcall, rfl⟩) ?_
    rw [hheader, hhash]
    exact hcallHash.symm
  cases haccepted : d.accepted with
  | nil =>
    left
    refine ⟨rfl, ?_⟩
    rw [DecryptedStream.output, haccepted]
    rfl
  | cons first later =>
    right
    rw [haccepted] at hsealed
    obtain ⟨call, hcall, hcallHash, -⟩ := hsealed 0 first rfl
    have hbytes := hsame call hcall hcallHash
    have hplaces : ∀ i w, (first :: later)[i]? = some w →
        ∃ aad, SealedAt x ec key call i w.1.nonce aad w.1.ct w.2 := by
      intro i w hw
      obtain ⟨other, hother, hotherHash, aad, hw⟩ := hsealed i w hw
      have hequal : other = call :=
        List.inj_on_of_nodup_map hheaders hother hcall
          (EncryptCall.header_toBytes_inj ((hsame other hother hotherHash).symm.trans hbytes))
      subst hequal
      rw [Nat.zero_add] at hw
      exact ⟨aad, hw⟩
    refine ⟨call, hcall, hbytes, hplaces, ?_⟩
    rw [DecryptedStream.output, haccepted, List.flatMap_def]
    refine congrArg List.flatten (map_eq_take ?_)
    intro i w hw
    obtain ⟨aad, hw⟩ := hplaces i w hw
    exact hw.2.1

end Authentic

section Sample

variable {x : Crates} {ec : EnvelopeCrates} {key : Fixed 32} {call : EncryptCall}

/-- The cipher, opening only what the calls sealed in their rounds. -/
def EnvelopeCrates.openingOnlyStreams (ec : EnvelopeCrates) (x : Crates)
    (calls : List EncryptCall) : EnvelopeCrates :=
  { ec with
    aes256GcmDecrypt := fun key nonce aad ct =>
      (ec.aes256GcmDecrypt key nonce aad ct).filter fun text =>
        calls.any fun call => call.chunksRead.zipIdx.any fun p =>
          decide (p.1 = text ∧ nonce = recordNonce call.noncePrefix (UInt64.ofNat (p.2 + 1)) ∧
            aad = call.aad x p.2 (UInt64.ofNat (p.2 + 1)) text) }

theorem openingOnlyStreams_opens {calls : List EncryptCall}
    (hinverse : ∀ key nonce aad text ct, ec.aes256GcmDecrypt key nonce aad ct = some text ↔
      ec.aes256GcmEncrypt key nonce aad text = some ct)
    (hcount : ∀ call ∈ calls, call.chunksRead.length + 1 < 2 ^ 64) :
    (ec.openingOnlyStreams x calls).OpensOnlyStreams x key calls := by
  intro nonce aad ct pt h
  simp only [EnvelopeCrates.openingOnlyStreams, Option.filter_eq_some_iff, List.any_eq_true,
    decide_eq_true_eq, hinverse] at h
  obtain ⟨hencrypt, call, hcall, ⟨piece, i⟩, hp, rfl, hnonce, haad⟩ := h
  have hi := List.mem_zipIdx_iff_getElem?.mp hp
  have hlt := (List.getElem?_eq_some_iff.mp hi).1
  have hroom := hcount call hcall
  exact ⟨call, hcall, i, by omega, hi, hnonce, ⟨i, haad⟩, hencrypt⟩

theorem taggedSample_inverse (key : Fixed 32) (nonce : Fixed 12) (aad text ct : Bytes) :
    taggedSample.aes256GcmDecrypt key nonce aad ct = some text ↔
      taggedSample.aes256GcmEncrypt key nonce aad text = some ct := by
  constructor
  · intro h
    simp only [taggedSample, Option.ite_none_right_eq_some, Option.some.injEq] at h ⊢
    obtain ⟨htag, rfl⟩ := h
    rw [← htag, List.take_append_drop]
  · intro h
    exact taggedSample_sealsLawfully.decrypts key nonce aad text ct h

theorem openingOnlyStreams_record (hx : x.SignsLawfully) (hec : ec.SealsLawfully)
    {calls : List EncryptCall} (hcall : call ∈ calls) {buf ct : Bytes} {i : Nat}
    (hi : call.chunksRead[i]? = some buf) (hlen : buf.length < 2 ^ 32)
    (hct : ec.aes256GcmEncrypt key (recordNonce call.noncePrefix (UInt64.ofNat (i + 1)))
      (call.aad x i (UInt64.ofNat (i + 1)) buf) buf = some ct) :
    RecordOf x (ec.openingOnlyStreams x calls) key call i (UInt64.ofNat (i + 1)) buf
      (call.record x i (UInt64.ofNat (i + 1)) buf ct) := by
  refine recordOf_record hx hlen ?_ (hec.tagged _ _ _ _ _ hct)
  refine Option.filter_eq_some_iff.mpr ⟨hec.decrypts _ _ _ _ _ hct, ?_⟩
  rw [List.any_eq_true]
  refine ⟨call, hcall, List.any_eq_true.mpr ?_⟩
  exact ⟨(buf, i), List.mem_zipIdx_iff_getElem?.mpr hi, decide_eq_true ⟨rfl, rfl, rfl⟩⟩

/-- Two streams under one key. -/
def sampleStreams : List EncryptCall := [sampleCall 2 [1, 2, 3], sampleCall 3 [1, 2, 3, 4]]

theorem sampleStreams_chunks : (sampleCall 2 [1, 2, 3]).chunksRead = [[1, 2], [3]] ∧
    (sampleCall 3 [1, 2, 3, 4]).chunksRead = [[1, 2, 3], [4]] := by
  have hpieces : (Reader.full ([1, 2, 3, 4] : Bytes)).pieces 3 = [[1, 2, 3], [4]] := by
    rw [Reader.pieces_cons (by decide), Reader.pieces_cons (by decide),
      Reader.pieces_nil (by decide)]
    rfl
  exact ⟨(sampleCall_chunksRead _ (by rw [sample_pieces]; decide)).trans sample_pieces,
    (sampleCall_chunksRead _ (by rw [hpieces]; decide)).trans hpieces⟩

theorem sampleStreams_hash : sampleHash ((sampleCall 2 [1, 2, 3]).header sampleCrates).toBytes.val ≠
    sampleHash ((sampleCall 3 [1, 2, 3, 4]).header sampleCrates).toBytes.val := by
  decide +kernel

/-- The cipher opens the records of both streams; what is accepted behind the first header are the
two chunks of the first stream. -/
theorem accepted_stream_sample : ∃ ec bytes d,
    ec.OpensOnlyStreams sampleCrates sampleStreamKey sampleStreams ∧
      decryptEnvelope sampleCrates ec sampleStreamKey bytes = .ok d ∧ d.accepted.length = 2 ∧
      d.header = ((sampleCall 2 [1, 2, 3]).header sampleCrates).toBytes.val ∧
      d.output = ((sampleCall 2 [1, 2, 3]).chunksRead.take 2).flatten := by
  obtain ⟨hfirst, hsecond⟩ := sampleStreams_chunks
  let ec := taggedSample.openingOnlyStreams sampleCrates sampleStreams
  have hmem : sampleCall 2 [1, 2, 3] ∈ sampleStreams := List.mem_cons_self
  have hideal : ec.OpensOnlyStreams sampleCrates sampleStreamKey sampleStreams := by
    refine openingOnlyStreams_opens taggedSample_inverse fun call hcall => ?_
    rcases List.mem_cons.mp hcall with rfl | hcall
    · rw [hfirst]
      decide
    · rw [List.mem_singleton.mp hcall, hsecond]
      decide
  have hrecord : ∀ i buf, (sampleCall 2 [1, 2, 3]).chunksRead[i]? = some buf →
      buf.length < 2 ^ 32 → ∃ r, RecordOf sampleCrates ec sampleStreamKey (sampleCall 2 [1, 2, 3]) i
        (UInt64.ofNat (i + 1)) buf r := fun i buf hi hlen =>
    ⟨_, openingOnlyStreams_record sampleCrates_signsLawfully taggedSample_sealsLawfully hmem hi hlen
      rfl⟩
  obtain ⟨r, hr⟩ := hrecord 0 [1, 2] (by rw [hfirst]; rfl) (by decide)
  obtain ⟨r', hr'⟩ := hrecord 1 [3] (by rw [hfirst]; rfl) (by decide)
  have hstream := StreamOf.cons (by omega) (by decide) (by decide) hr
    (StreamOf.cons (by omega) (by decide) (by decide) hr' (.nil 2))
  have hsmall : (sampleCall 2 [1, 2, 3]).chunk < 2 ^ 32 := by decide
  have hnone : Record.get [] = none := rfl
  have hcount : 0 + 2 ≤ maxRecordsPerStream := by decide
  have hrecords := (decryptRecords_streamOf hstream hsmall hnone
    (Nat.zero_le maxRecordsPerStream) (Nat.zero_le maxStreamSizeBytes) _).mpr
      ⟨rfl, hcount, by decide⟩
  have hd := (decryptEnvelope_header (d := ⟨_, _⟩) (by decide) hsmall).mpr
    ⟨by decide, rfl, hrecords⟩
  have hdistinct : (sampleStreams.map (EncryptCall.header sampleCrates)).Nodup := by
    refine List.nodup_cons.mpr ⟨?_, List.nodup_singleton _⟩
    intro hsame
    exact sampleStreams_hash (by rw [List.mem_singleton.mp hsame])
  refine ⟨ec, _, _, hideal, hd, rfl, rfl, ?_⟩
  have hfront := accepted_stream_is_front hideal hdistinct hd ?_
  · rcases hfront with ⟨hempty, -⟩ | ⟨call, hcall, hheader, -, hout⟩
    · exact absurd hempty (List.cons_ne_nil _ _)
    · rcases List.mem_cons.mp hcall with rfl | hcall
      · exact hout
      · rw [List.mem_singleton.mp hcall] at hheader
        exact absurd (congrArg sampleHash hheader) sampleStreams_hash
  · have hheaders : ∀ a ∈ insert ((sampleCall 2 [1, 2, 3]).header sampleCrates).toBytes.val
        {header | ∃ call ∈ sampleStreams, header = (call.header sampleCrates).toBytes.val},
        a = ((sampleCall 2 [1, 2, 3]).header sampleCrates).toBytes.val ∨
          a = ((sampleCall 3 [1, 2, 3, 4]).header sampleCrates).toBytes.val := by
      rintro a (rfl | ⟨call, hcall, rfl⟩)
      · exact Or.inl rfl
      · rcases List.mem_cons.mp hcall with rfl | hcall
        · exact Or.inl rfl
        · rw [List.mem_singleton.mp hcall]
          exact Or.inr rfl
    intro a ha b hb hhash
    rcases hheaders a ha with rfl | rfl <;> rcases hheaders b hb with rfl | rfl
    · rfl
    · exact absurd hhash sampleStreams_hash
    · exact absurd hhash.symm sampleStreams_hash
    · rfl

end Sample

end Sealedge
