import Sealedge.StreamCli

namespace Sealedge

open Fallible Bincode PieceReader

section Acceptance

variable (x : Crates) (ec : EnvelopeCrates) (key : Fixed 32)

/-- What the record loop checks of a record before it writes the plaintext `pt`. -/
structure RecordAccepted (fh : FileHeader) (headerHash : Digest) (st : StreamState) (r : Record)
    (m : Manifest) (pt : Bytes) : Prop where
  count : st.recordCount + 1 ≤ maxRecordsPerStream
  ctSize : r.ct.length ≤ fh.chunkSize.toNat + aesGcmTagSize
  noncePrefix : r.nonce.val.take 4 = fh.noncePrefix.val
  nonceCounter : r.nonce.val.drop 4 = beBytes 8 r.seq.toNat
  seq : r.seq.toNat = st.expectedSeq
  nextSeq : st.expectedSeq + 1 < 2 ^ 64
  signed : r.sm.checkSignature x = .ok ()
  manifest : deserialize Manifest.get r.sm.manifest = some m
  boundHeader : m.headerHash = headerHash
  keyId : m.keyId = fh.keyId
  manifestSeq : m.seq = r.seq
  chunkLen : m.chunkLen ≠ 0 ∧ ¬ fh.chunkSize < m.chunkLen
  opens : ec.aes256GcmDecrypt key r.nonce
    (buildAad headerHash r.seq r.nonce (x.blake3 r.sm.manifest) m.chunkLen) r.ct = some pt
  ptLength : pt.length = m.chunkLen.toNat
  ptHash : x.blake3 pt = m.ptHash
  size : st.streamSizeBytes + pt.length ≤ maxStreamSizeBytes

/-- The counters after a record. -/
def StreamState.next (st : StreamState) (pt : Bytes) : StreamState :=
  ⟨st.expectedSeq + 1, st.recordCount + 1, st.streamSizeBytes + pt.length⟩

variable {x ec key} {fh : FileHeader} {headerHash : Digest} {st st' : StreamState} {r : Record}
  {pt : Bytes}

theorem acceptRecord_eq_ok : acceptRecord x ec key fh headerHash st r = .ok (pt, st') ↔
    st' = st.next pt ∧ ∃ m, RecordAccepted x ec key fh headerHash st r m pt := by
  simp only [acceptRecord, bind_eq_ok, failWhen_eq_ok, elim_eq_ok, exists_const,
    decide_eq_false_iff_not, bne_eq_false_iff_eq, Bool.or_eq_false_iff, beq_eq_false_iff_ne,
    Nat.not_le, Nat.not_lt, pure, Except.pure, Except.ok.injEq, Prod.mk.injEq]
  constructor
  · rintro ⟨-, hcount, hct, hprefix, hcounter, hseq, hnext, u, hsigned, m, hm, -, hhash, hkey,
      hmseq, hlen, text, hopens, htext, hpt, -, hsize, rfl, rfl⟩
    exact ⟨rfl, m, hcount, hct, hprefix, hcounter, hseq, hnext, hsigned, hm, hhash, hkey, hmseq,
      hlen, hopens, htext, hpt, hsize⟩
  · rintro ⟨rfl, m, h⟩
    have hcount := h.count
    have hsize := h.size
    simp only [maxRecordsPerStream] at hcount
    simp only [maxStreamSizeBytes] at hsize
    exact ⟨by omega, h.count, h.ctSize, h.noncePrefix, h.nonceCounter, h.seq, h.nextSeq, (),
      h.signed, m, h.manifest, h.noncePrefix, h.boundHeader, h.keyId, h.manifestSeq, h.chunkLen, pt,
      h.opens, h.ptLength, h.ptHash, by omega, h.size, rfl, rfl⟩

theorem decryptRecords_none {bytes : Bytes} (h : Record.get bytes = none) :
    decryptRecords x ec key fh headerHash st bytes = .ok [] := by
  unfold decryptRecords
  split
  next => rfl
  next r rest hget =>
    rw [h] at hget
    contradiction

theorem decryptRecords_some {bytes rest : Bytes} {accepted : List (Record × Bytes)}
    (h : Record.get bytes = some (r, rest)) :
    decryptRecords x ec key fh headerHash st bytes = .ok accepted ↔
      ∃ pt later, acceptRecord x ec key fh headerHash st r = .ok (pt, st.next pt) ∧
        decryptRecords x ec key fh headerHash (st.next pt) rest = .ok later ∧
          accepted = (r, pt) :: later := by
  rw [decryptRecords]
  split
  next hget =>
    rw [h] at hget
    contradiction
  next r' rest' hget =>
    obtain ⟨rfl, rfl⟩ := Prod.mk.inj (Option.some.inj (h.symm.trans hget))
    constructor
    · intro hok
      split at hok
      next => contradiction
      next pt st' haccept =>
        split at hok
        next => contradiction
        next later hlater =>
          obtain ⟨rfl, -⟩ := acceptRecord_eq_ok.mp haccept
          exact ⟨pt, later, haccept, hlater, (Except.ok.inj hok).symm⟩
    · rintro ⟨pt, later, haccept, hlater, rfl⟩
      simp only [haccept, hlater]

/-- What stands in front of the records. -/
def getPreamble : Get StreamHeader := do
  let _ ← getBytes 4
  let _ ← getByte
  StreamHeader.get

theorem getPreamble_local : Local getPreamble := by
  refine (local_getBytes 4).bind fun _ => ?_
  exact local_getByte.bind fun _ => StreamHeader.get_local

/-- A successful call has read a header that matches its hash, and the record loop succeeded. -/
theorem decryptEnvelope_spec {bytes : Bytes} {d : DecryptedStream}
    (h : decryptEnvelope x ec key bytes = .ok d) : ∃ sh rest fh, getPreamble bytes = some (sh, rest) ∧
      d.header = sh.header ∧ x.blake3 sh.header = sh.headerHash ∧
      decryptRecords x ec key fh sh.headerHash ⟨1, 0, 0⟩ rest = .ok d.accepted := by
  simp only [decryptEnvelope, bind_eq_ok, elim_eq_ok, failWhen_eq_ok, exists_const,
    bne_eq_false_iff_eq] at h
  obtain ⟨⟨found, bytes₁⟩, hmagic, -, ⟨version, bytes₂⟩, hversion, -, ⟨sh, rest⟩, hsh, h⟩ := h
  split at h
  next hlen =>
    simp only [bind_eq_ok, mapError_eq_ok, failWhen_eq_ok, exists_const, bne_eq_false_iff_eq] at h
    obtain ⟨fh, -, hhash, -, accepted, hrecords, hd⟩ := h
    obtain rfl := Except.ok.inj hd
    have hrest : (getByte >>= fun _ => StreamHeader.get) bytes₁ = some (sh, rest) :=
      Option.bind_eq_some_iff.mpr ⟨(version, bytes₂), hversion, hsh⟩
    exact ⟨sh, rest, fh, Option.bind_eq_some_iff.mpr ⟨(found, bytes₁), hmagic, hrest⟩, rfl, hhash,
      hrecords⟩
  next => contradiction

end Acceptance

section Records

variable (x : Crates) (ec : EnvelopeCrates) (key : Fixed 32)

/-- A record that carries `buf` at this place of the stream and opens to it. -/
structure RecordOf (call : EncryptCall) (round : Nat) (seq : UInt64) (buf : Bytes) (r : Record) :
    Prop where
  numbered : r.seq = seq
  nonce : r.nonce = recordNonce call.noncePrefix seq
  manifest : r.sm.manifest = (call.manifest x round seq buf).bincode
  signed : r.sm.checkSignature x = .ok ()
  sized : r.Sized
  opens : ec.aes256GcmDecrypt key r.nonce (call.aad x round seq buf) r.ct = some buf
  tagged : r.ct.length = buf.length + aesGcmTagSize

/-- Records for the chunks, numbered on from `seq`. -/
inductive StreamOf (call : EncryptCall) : Nat → List Bytes → List (Record × Bytes) → Prop
  | nil (seq : Nat) : StreamOf call seq [] []
  | cons {seq round : Nat} {buf : Bytes} {bufs : List Bytes} {r : Record}
      {later : List (Record × Bytes)} (hseq : seq + 1 < 2 ^ 64) (hbuf : buf ≠ [])
      (hroom : buf.length ≤ call.chunk)
      (hr : RecordOf x ec key call round (UInt64.ofNat (seq + 1)) buf r)
      (hlater : StreamOf call (seq + 1) bufs later) :
      StreamOf call seq (buf :: bufs) ((r, buf) :: later)

variable {x ec key} {call : EncryptCall}

theorem mimeType_short (ext : String) :
    (intoBytes ((mimeTypes.lookup ext).getD "application/octet-stream")).length ≤ 100 := by
  have htable : ∀ p ∈ mimeTypes, (intoBytes p.2).length ≤ 100 := by decide +kernel
  have hdefault : (intoBytes "application/octet-stream").length ≤ 100 := by decide +kernel
  cases hfound : mimeTypes.lookup ext with
  | none => exact hdefault
  | some mime =>
    obtain ⟨before, after, htypes, -⟩ := List.lookup_eq_some_iff.mp hfound
    refine htable (ext, mime) ?_
    rw [htypes]
    exact List.mem_append_right before List.mem_cons_self

theorem determineDataType_sized (input : Input) : (determineDataType input).Sized := by
  cases input with
  | file extension reader =>
    intro mime hmime
    obtain ⟨ext, -, rfl⟩ := Option.map_eq_some_iff.mp hmime
    have hshort := mimeType_short ext
    omega
  | liveAudio sampleRate channels captured => trivial

theorem determineDataType_short (input : Input) :
    (determineDataType input).bincode.length ≤ 120 := by
  cases input with
  | file extension reader =>
    cases extension with
    | none => simp [determineDataType, DataType.bincode, putOption]
    | some ext =>
      have hshort := mimeType_short ext
      simp only [determineDataType, DataType.bincode, putOption, putString, putVec, Option.map_some,
        List.length_append, List.length_cons, leBytes_length]
      omega
  | liveAudio sampleRate channels captured =>
    simp [determineDataType, DataType.bincode, AudioFormat.bincode]

theorem EncryptCall.manifest_sized (round : Nat) (seq : UInt64) (buf : Bytes) :
    (call.manifest x round seq buf).Sized where
  count := by
    show 0 < 256 ^ 8
    omega
  modelIds s hs := by contradiction
  dataType := determineDataType_sized call.input

theorem EncryptCall.manifest_deserialize (round : Nat) (seq : UInt64) (buf : Bytes) :
    deserialize Manifest.get (call.manifest x round seq buf).bincode =
      some (call.manifest x round seq buf) :=
  (EncryptCall.manifest_sized round seq buf).reads.deserialize

theorem EncryptCall.manifest_short (round : Nat) (seq : UInt64) (buf : Bytes) :
    (call.manifest x round seq buf).bincode.length ≤ 300 := by
  have htype := determineDataType_short call.input
  have hheader := (call.headerHash x).property
  have hpt := (x.blake3 buf).property
  have hkey := call.keyId.property
  simp only [Manifest.bincode, EncryptCall.manifest, putBool, List.length_cons, List.length_append,
    leBytes_length, hheader, hpt, hkey, List.flatMap_nil, List.length_nil]
  omega

theorem checkSignature_signed (hx : x.SignsLawfully) (k : DeviceKeypair) (manifest : Bytes) :
    SignedManifest.checkSignature x
      ⟨manifest, signManifestWithDomain x k manifest, k.verifyingKey x⟩ = .ok () := by
  have hpub : (k.verifyingKey x).length = 32 := hx.publicLength k.secret
  have hsig : (signManifestWithDomain x k manifest).length = 64 := hx.signatureLength k.secret _
  have hkey : x.ed25519Key (k.verifyingKey x) = .ok () := hx.publicKey k.secret
  have hverify : verifyManifestWithDomain x (k.verifyingKey x) manifest
      (signManifestWithDomain x k manifest) = true := hx.verifies k.secret _
  simp only [SignedManifest.checkSignature, bind_eq_ok, failWhen_eq_ok, mapError_eq_ok, hpub, hsig,
    hkey, hverify]
  simp

theorem EncryptCall.fromBytes_header (call : EncryptCall) :
    FileHeader.fromBytes (call.header x).toBytes = .ok (call.header x) :=
  FileHeader.fromBytes_toBytes ⟨_, rfl⟩ ⟨_, rfl⟩ ⟨_, rfl⟩ ⟨_, rfl⟩

theorem EncryptCall.header_chunkSize (hchunk : call.chunk < 2 ^ 32) :
    (call.header x).chunkSize.toNat = call.chunk := by
  show (UInt32.ofNat call.chunk).toNat = call.chunk
  rw [UInt32.toNat_ofNat', Nat.mod_eq_of_lt hchunk]

theorem RecordOf.reads_manifest {round : Nat} {seq : UInt64} {buf : Bytes} {r : Record}
    (h : RecordOf x ec key call round seq buf r) :
    deserialize Manifest.get r.sm.manifest = some (call.manifest x round seq buf) := by
  rw [h.manifest]
  exact EncryptCall.manifest_deserialize round seq buf

/-- The reader builds the associated data from the record, the writer from the call. -/
theorem RecordOf.opens_record {round : Nat} {seq : UInt64} {buf : Bytes} {r : Record}
    (h : RecordOf x ec key call round seq buf r) :
    ec.aes256GcmDecrypt key r.nonce (buildAad (call.headerHash x) r.seq r.nonce
      (x.blake3 r.sm.manifest) (UInt32.ofNat buf.length)) r.ct = some buf := by
  have haad := h.opens
  rw [EncryptCall.aad] at haad
  rw [h.manifest, h.numbered]
  rwa [← h.nonce] at haad

/-- A record of the stream at its place passes every check but the two limits. -/
theorem RecordOf.accepted {st : StreamState} {round : Nat} {buf : Bytes} {r : Record}
    (hchunk : call.chunk < 2 ^ 32) (hst : st.expectedSeq = st.recordCount + 1) (hbuf : buf ≠ [])
    (hroom : buf.length ≤ call.chunk)
    (h : RecordOf x ec key call round (UInt64.ofNat (st.recordCount + 1)) buf r)
    (hcount : st.recordCount + 1 ≤ maxRecordsPerStream)
    (hsize : st.streamSizeBytes + buf.length ≤ maxStreamSizeBytes) :
    RecordAccepted x ec key (call.header x) (call.headerHash x) st r
      (call.manifest x round (UInt64.ofNat (st.recordCount + 1)) buf) buf := by
  have hlength : (UInt32.ofNat buf.length).toNat = buf.length := by
    rw [UInt32.toNat_ofNat']
    exact Nat.mod_eq_of_lt (by omega)
  have hsize32 := EncryptCall.header_chunkSize (x := x) hchunk
  have hpos := List.length_pos_of_ne_nil hbuf
  have hbound := hcount
  simp only [maxRecordsPerStream] at hbound
  have hnumber : r.seq.toNat = st.recordCount + 1 := by
    rw [h.numbered, UInt64.toNat_ofNat']
    exact Nat.mod_eq_of_lt (by omega)
  refine {
    count := hcount
    ctSize := ?_
    noncePrefix := ?_
    nonceCounter := ?_
    seq := hnumber.trans hst.symm
    nextSeq := by omega
    signed := h.signed
    manifest := h.reads_manifest
    boundHeader := rfl
    keyId := rfl
    manifestSeq := h.numbered.symm
    chunkLen := ⟨?_, ?_⟩
    opens := h.opens_record
    ptLength := hlength.symm
    ptHash := rfl
    size := hsize }
  · rw [h.tagged, hsize32]
    omega
  · rw [h.nonce]
    exact List.take_left' call.noncePrefix.property
  · rw [h.nonce, h.numbered]
    exact List.drop_left' call.noncePrefix.property
  · intro hzero
    have hlength' : (UInt32.ofNat buf.length).toNat = (0 : UInt32).toNat :=
      congrArg UInt32.toNat hzero
    rw [hlength, UInt32.toNat_zero] at hlength'
    omega
  · rw [UInt32.lt_iff_toNat_lt, hsize32]
    show ¬ call.chunk < (UInt32.ofNat buf.length).toNat
    omega

/-- The record loop takes a record of the stream at its place exactly when its two limits admit
it. -/
theorem acceptRecord_recordOf {st st' : StreamState} {round : Nat} {buf pt : Bytes} {r : Record}
    (hchunk : call.chunk < 2 ^ 32) (hst : st.expectedSeq = st.recordCount + 1) (hbuf : buf ≠ [])
    (hroom : buf.length ≤ call.chunk)
    (h : RecordOf x ec key call round (UInt64.ofNat (st.recordCount + 1)) buf r) :
    acceptRecord x ec key (call.header x) (call.headerHash x) st r = .ok (pt, st') ↔
      pt = buf ∧ st' = st.next buf ∧ st.recordCount + 1 ≤ maxRecordsPerStream ∧
        st.streamSizeBytes + buf.length ≤ maxStreamSizeBytes := by
  rw [acceptRecord_eq_ok]
  constructor
  · rintro ⟨rfl, m, hm⟩
    obtain rfl := Option.some.inj (hm.manifest.symm.trans h.reads_manifest)
    obtain rfl := Option.some.inj (hm.opens.symm.trans h.opens_record)
    exact ⟨rfl, rfl, hm.count, hm.size⟩
  · rintro ⟨rfl, rfl, hcount, hsize⟩
    exact ⟨rfl, _, h.accepted hchunk hst hbuf hroom hcount hsize⟩

/-- What the record loop makes of a stream that was written from `seq` on, when what follows its
records is not a record. -/
theorem decryptRecords_streamOf {seq : Nat} {bufs : List Bytes} {written : List (Record × Bytes)}
    (h : StreamOf x ec key call seq bufs written) (hchunk : call.chunk < 2 ^ 32) {rest : Bytes}
    (hrest : Record.get rest = none) {size : Nat} (hseq : seq ≤ maxRecordsPerStream)
    (hsize : size ≤ maxStreamSizeBytes) (accepted : List (Record × Bytes)) :
    decryptRecords x ec key (call.header x) (call.headerHash x) ⟨seq + 1, seq, size⟩
        (written.flatMap (fun w => w.1.bincode) ++ rest) = .ok accepted ↔
      accepted = written ∧ seq + written.length ≤ maxRecordsPerStream ∧
        size + bufs.flatten.length ≤ maxStreamSizeBytes := by
  induction h generalizing size accepted with
  | nil seq =>
    rw [List.flatMap_nil, List.nil_append, decryptRecords_none hrest]
    constructor
    · intro hok
      exact ⟨(Except.ok.inj hok).symm, hseq, hsize⟩
    · rintro ⟨rfl, -⟩
      rfl
  | @cons seq round buf bufs r later hlt hbuf hroom hr hlater ih =>
    have hget : Record.get (((r, buf) :: later).flatMap (fun w => w.1.bincode) ++ rest) =
        some (r, later.flatMap (fun w => w.1.bincode) ++ rest) := by
      rw [List.flatMap_cons, List.append_assoc]
      exact hr.sized.reads _
    have hone : ∀ pt st', acceptRecord x ec key (call.header x) (call.headerHash x)
        ⟨seq + 1, seq, size⟩ r = .ok (pt, st') ↔
          pt = buf ∧ st' = StreamState.next ⟨seq + 1, seq, size⟩ buf ∧
            seq + 1 ≤ maxRecordsPerStream ∧ size + buf.length ≤ maxStreamSizeBytes :=
      fun pt st' => acceptRecord_recordOf hchunk rfl hbuf hroom hr
    rw [decryptRecords_some hget, List.flatten_cons, List.length_append, List.length_cons]
    constructor
    · rintro ⟨pt, accepted, haccept, hdecrypt, rfl⟩
      obtain ⟨rfl, -, hcount, hbytes⟩ := (hone pt _).mp haccept
      obtain ⟨rfl, hcounts, hsizes⟩ := (ih hcount hbytes accepted).mp hdecrypt
      exact ⟨rfl, by omega, by omega⟩
    · rintro ⟨rfl, hcounts, hsizes⟩
      have hcount : seq + 1 ≤ maxRecordsPerStream := by omega
      have hbytes : size + buf.length ≤ maxStreamSizeBytes := by omega
      exact ⟨buf, later, (hone buf _).mpr ⟨rfl, rfl, hcount, hbytes⟩,
        (ih hcount hbytes later).mpr ⟨rfl, by omega, by omega⟩, rfl⟩

theorem StreamOf.take {seq : Nat} {bufs : List Bytes} {written : List (Record × Bytes)}
    (h : StreamOf x ec key call seq bufs written) (k : Nat) :
    StreamOf x ec key call seq (bufs.take k) (written.take k) := by
  induction h generalizing k with
  | nil seq =>
    rw [List.take_nil, List.take_nil]
    exact nil seq
  | @cons seq round buf bufs r later hlt hbuf hroom hr hlater ih =>
    cases k with
    | zero => exact nil seq
    | succ k => exact cons hlt hbuf hroom hr (ih k)

theorem StreamOf.plaintexts {seq : Nat} {bufs : List Bytes} {written : List (Record × Bytes)}
    (h : StreamOf x ec key call seq bufs written) : written.map Prod.snd = bufs := by
  induction h with
  | nil => rfl
  | cons hlt hbuf hroom hr hlater ih => rw [List.map_cons, ih]

end Records

end Sealedge
