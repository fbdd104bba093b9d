import Sealedge.EnvelopeRoundTrip
import Sealedge.StreamWriter

namespace Sealedge

open Fallible Bincode PieceReader

section Files

variable {x : Crates} {ec : EnvelopeCrates} {key : Fixed 32} {call : EncryptCall}

variable (x ec key) in
/-- The envelope file up to the end of its first `k` records. -/
def EncryptCall.fileTo (call : EncryptCall) (k : Nat) : Bytes :=
  writeStreamHeader (call.streamHeader x) ++
    ((call.written x ec key).take k).flatMap fun w => w.1.bincode

theorem encryptMode_eq_ok {files : EncryptedFiles} : encryptMode x ec key call = .ok files ↔
    0 < call.chunk ∧ call.chunk < 2 ^ 32 ∧
      (call.forEachChunk (call.sealChunk x ec key) call.input 0 0).2 = .ok () ∧
      files = {
        envelope := call.fileTo x ec key (call.written x ec key).length
        plaintext := if call.noPlaintext then [] else
          (call.written x ec key).flatMap Prod.snd } := by
  simp only [encryptMode, bind_eq_ok, failWhen_eq_ok, exists_const, decide_eq_false_iff_not,
    beq_eq_false_iff_ne, EncryptCall.fileTo, List.take_length, EncryptCall.written]
  constructor
  · rintro ⟨hpos, hsmall, u, hloop, hfiles⟩
    exact ⟨by omega, by omega, hloop, (Except.ok.inj hfiles).symm⟩
  · rintro ⟨hpos, hsmall, hloop, rfl⟩
    exact ⟨by omega, by omega, (), hloop, rfl⟩

theorem written_streamOf (hx : x.SignsLawfully) (hec : ec.SealsLawfully)
    (hchunk : call.chunk < 2 ^ 32)
    (h : (call.forEachChunk (call.sealChunk x ec key) call.input 0 0).2 = .ok ()) :
    StreamOf x ec key call 0 call.chunksRead (call.written x ec key) ∧
      (call.forEachChunk (fun _ _ buf => Except.ok buf) call.input 0 0).2 = .ok () :=
  forEachChunk_streamOf hx hec hchunk call.input 0 0 h

theorem streamHeader_reads : Reads StreamHeader.get (call.streamHeader x).bincode
    (call.streamHeader x) := by
  refine StreamHeader.reads _ ?_
  show (call.header x).toBytes.val.length < 256 ^ 8
  rw [(call.header x).toBytes.property]
  omega

/-- The header of a call passes the size check of the reader up to the reader's own limit. -/
theorem EncryptCall.header_in_limits (hpos : 0 < call.chunk) (hsmall : call.chunk < 2 ^ 32) :
    ((call.header x).chunkSize == 0 || decide (maxChunkSize < (call.header x).chunkSize)) = false ↔
      call.chunk ≤ maxChunkSize.toNat := by
  have hsize := EncryptCall.header_chunkSize (x := x) hsmall
  rw [Bool.or_eq_false_iff, beq_eq_false_iff_ne, decide_eq_false_iff_not, UInt32.lt_iff_toNat_lt,
    hsize]
  constructor
  · rintro ⟨-, hbound⟩
    omega
  · intro hbound
    refine ⟨?_, by omega⟩
    intro hzero
    rw [hzero, UInt32.toNat_zero] at hsize
    omega

theorem decryptEnvelope_header {body : Bytes} {d : DecryptedStream} (hpos : 0 < call.chunk)
    (hsmall : call.chunk < 2 ^ 32) :
    decryptEnvelope x ec key (writeStreamHeader (call.streamHeader x) ++ body) = .ok d ↔
      call.chunk ≤ maxChunkSize.toNat ∧ d.header = (call.header x).toBytes.val ∧
        decryptRecords x ec key (call.header x) (call.headerHash x) ⟨1, 0, 0⟩ body =
          .ok d.accepted := by
  have hmagic : getBytes 4 (writeStreamHeader (call.streamHeader x) ++ body) =
      some (magic, streamVersion :: ((call.streamHeader x).bincode ++ body)) := by
    have hlen : magic.length = 4 := by decide +kernel
    rw [writeStreamHeader, List.append_assoc]
    exact reads_getBytes hlen _
  have hversion : getByte (streamVersion :: ((call.streamHeader x).bincode ++ body)) =
      some (streamVersion, (call.streamHeader x).bincode ++ body) := rfl
  have hheader : StreamHeader.get ((call.streamHeader x).bincode ++ body) =
      some (call.streamHeader x, body) := streamHeader_reads body
  have hlen : (call.streamHeader x).header.length = 66 := (call.header x).toBytes.property
  have hparse : FileHeader.fromBytes ⟨(call.streamHeader x).header, hlen⟩ = .ok (call.header x) :=
    call.fromBytes_header
  have hhash : x.blake3 (call.streamHeader x).header = (call.streamHeader x).headerHash := rfl
  have hlimit := EncryptCall.header_in_limits (x := x) hpos hsmall
  simp only [decryptEnvelope, hmagic, hversion, hheader, Option.elim_some, bind_eq_ok,
    Except.ok.injEq, exists_eq_left', failWhen_eq_ok, bne_self_eq_false, exists_const, true_and,
    dif_pos hlen, mapError_eq_ok, hparse, hhash]
  constructor
  · rintro ⟨hbound, accepted, hrecords, hd⟩
    obtain rfl := Except.ok.inj hd
    exact ⟨hlimit.mp hbound, rfl, hrecords⟩
  · rintro ⟨hbound, hd, hrecords⟩
    refine ⟨hlimit.mpr hbound, d.accepted, hrecords, ?_⟩
    show Except.ok (DecryptedStream.mk (call.header x).toBytes.val d.accepted) = .ok d
    rw [← hd]

/-- What decryption makes of a written file that ends after `k` records, or with bytes behind them
that are not a record. -/
theorem decryptEnvelope_fileTo (hpos : 0 < call.chunk) (hsmall : call.chunk < 2 ^ 32)
    (h : StreamOf x ec key call 0 call.chunksRead (call.written x ec key)) (k : Nat) {rest : Bytes}
    (hrest : Record.get rest = none) {d : DecryptedStream} :
    decryptEnvelope x ec key (call.fileTo x ec key k ++ rest) = .ok d ↔
      (call.chunk ≤ maxChunkSize.toNat ∧
        ((call.written x ec key).take k).length ≤ maxRecordsPerStream ∧
        (call.chunksRead.take k).flatten.length ≤ maxStreamSizeBytes) ∧
      d = ⟨(call.header x).toBytes.val, (call.written x ec key).take k⟩ := by
  have hloop := decryptRecords_streamOf (h.take k) hsmall hrest (Nat.zero_le maxRecordsPerStream)
    (Nat.zero_le maxStreamSizeBytes) d.accepted
  rw [Nat.zero_add, Nat.zero_add, Nat.zero_add] at hloop
  rw [EncryptCall.fileTo, List.append_assoc, decryptEnvelope_header hpos hsmall, hloop]
  constructor
  · rintro ⟨hbound, hheader, haccepted, hcount, hsize⟩
    refine ⟨⟨hbound, hcount, hsize⟩, ?_⟩
    rw [← hheader, ← haccepted]
  · rintro ⟨⟨hbound, hcount, hsize⟩, rfl⟩
    exact ⟨hbound, rfl, rfl, hcount, hsize⟩

theorem StreamOf.output {bufs : List Bytes} {written : List (Record × Bytes)} {seq : Nat}
    (h : StreamOf x ec key call seq bufs written) (header : Bytes) :
    (DecryptedStream.mk header written).output = bufs.flatten := by
  rw [DecryptedStream.output, List.flatMap_def, h.plaintexts]

theorem StreamOf.length_eq {bufs : List Bytes} {written : List (Record × Bytes)} {seq : Nat}
    (h : StreamOf x ec key call seq bufs written) : written.length = bufs.length := by
  rw [← h.plaintexts, List.length_map]

/-- Encrypt mode gets through every file, as long as the cipher takes its chunks. -/
theorem encryptMode_file_ok (hx : x.SignsLawfully) (hec : ec.SealsLawfully)
    (hencrypts : ∀ nonce aad text, text.length < 2 ^ 32 →
      ∃ ct, ec.aes256GcmEncrypt key nonce aad text = some ct)
    {extension : Option String} {reader : Reader UInt8}
    (hinput : call.input = .file extension reader) (hpos : 0 < call.chunk)
    (hsmall : call.chunk < 2 ^ 32) (hcount : (reader.pieces call.chunk).length < 2 ^ 64) :
    ∃ files, encryptMode x ec key call = .ok files := by
  refine ⟨_, encryptMode_eq_ok.mpr ⟨hpos, hsmall, ?_, rfl⟩⟩
  rw [hinput]
  refine forEachChunk_file_ok ?_ reader 0 0 (by omega)
  intro round seq buf hbuf
  obtain ⟨ct, hct⟩ := hencrypts (recordNonce call.noncePrefix seq) (call.aad x round seq buf) buf
    (by omega)
  exact ⟨_, (sealChunk_eq_ok hx).mpr ⟨ct, hct, hec.decrypts _ _ _ _ _ hct, rfl, rfl⟩⟩

theorem decryptEnvelope_file (hpos : 0 < call.chunk) (hsmall : call.chunk < 2 ^ 32)
    (h : StreamOf x ec key call 0 call.chunksRead (call.written x ec key)) {d : DecryptedStream} :
    decryptEnvelope x ec key (call.fileTo x ec key (call.written x ec key).length) = .ok d ↔
      (call.chunk ≤ maxChunkSize.toNat ∧ call.chunksRead.length ≤ maxRecordsPerStream ∧
        call.chunksRead.flatten.length ≤ maxStreamSizeBytes) ∧
      d = ⟨(call.header x).toBytes.val, call.written x ec key⟩ := by
  have hwhole : Record.get [] = none := rfl
  have hfile := decryptEnvelope_fileTo hpos hsmall h (call.written x ec key).length hwhole (d := d)
  rw [List.append_nil, List.take_length, h.length_eq, List.take_length] at hfile
  rw [h.length_eq]
  exact hfile

theorem chunksRead_file {extension : Option String} {reader : Reader UInt8}
    (hinput : call.input = .file extension reader)
    (hread : (call.forEachChunk (fun _ _ buf => Except.ok buf) call.input 0 0).2 = .ok ()) :
    ∃ k ≤ (reader.pieces call.chunk).length,
      call.chunksRead = (reader.pieces call.chunk).take k ∧
      (∀ round < k, call.timeUp round = false) ∧
      (k < (reader.pieces call.chunk).length → call.timeUp k = true) := by
  rw [hinput] at hread
  have hfile := forEachChunk_file reader 0 0 hread
  simp only [Nat.zero_add] at hfile
  rw [EncryptCall.chunksRead, EncryptCall.chunksFrom, hinput]
  exact hfile

/-- Without an end of time before the end of the file, all its pieces are read. -/
theorem chunksRead_file_whole {extension : Option String} {reader : Reader UInt8}
    (hinput : call.input = .file extension reader)
    (hread : (call.forEachChunk (fun _ _ buf => Except.ok buf) call.input 0 0).2 = .ok ())
    (htime : ∀ round < (reader.pieces call.chunk).length, call.timeUp round = false) :
    call.chunksRead = reader.pieces call.chunk := by
  obtain ⟨k, hk, hchunks, -, hafter⟩ := chunksRead_file hinput hread
  by_cases hlt : k < (reader.pieces call.chunk).length
  · have hstopped := hafter hlt
    rw [htime k hlt] at hstopped
    contradiction
  · rw [hchunks, List.take_of_length_le (by omega)]

/-- What encrypt mode writes for a file decrypts to the file exactly when the decryptor's limits,
which the encryptor does not check, and the time limit leave room for it. -/
theorem stream_round_trip_iff (hx : x.SignsLawfully) (hec : ec.SealsLawfully)
    {extension : Option String} {reader : Reader UInt8} {files : EncryptedFiles}
    (hinput : call.input = .file extension reader)
    (h : encryptMode x ec key call = .ok files) :
    (∃ d, decryptEnvelope x ec key files.envelope = .ok d ∧ d.output = reader.rest) ↔
      call.chunk ≤ maxChunkSize.toNat ∧
        (reader.pieces call.chunk).length ≤ maxRecordsPerStream ∧
        reader.rest.length ≤ maxStreamSizeBytes ∧
        ∀ round < (reader.pieces call.chunk).length, call.timeUp round = false := by
  obtain ⟨hpos, hsmall, hloop, rfl⟩ := encryptMode_eq_ok.mp h
  obtain ⟨hstream, hread⟩ := written_streamOf hx hec hsmall hloop
  have hwhole := Reader.pieces_flatten hpos reader
  constructor
  · rintro ⟨d, hd, hout⟩
    obtain ⟨⟨hbound, hcount, hsize⟩, rfl⟩ := (decryptEnvelope_file hpos hsmall hstream).mp hd
    obtain ⟨k, hk, hchunks, hbefore, -⟩ := chunksRead_file hinput hread
    have hflat : ((reader.pieces call.chunk).take k).flatten = reader.rest := by
      rw [← hchunks, ← hout]
      exact (hstream.output _).symm
    have hall := Reader.pieces_length_le hpos hflat
    rw [hchunks, List.take_of_length_le hall] at hcount hsize
    rw [hwhole] at hsize
    refine ⟨hbound, hcount, hsize, ?_⟩
    intro round hround
    exact hbefore round (by omega)
  · rintro ⟨hbound, hcount, hsize, htime⟩
    have hchunks := chunksRead_file_whole hinput hread htime
    refine ⟨_, (decryptEnvelope_file hpos hsmall hstream).mpr ⟨⟨hbound, ?_, ?_⟩, rfl⟩, ?_⟩
    · rwa [hchunks]
    · rwa [hchunks, hwhole]
    · rw [← hwhole, ← hchunks]
      exact hstream.output _

end Files

section Sample

/-- A tag of sixteen bytes in front of the text. -/
def taggedSample : EnvelopeCrates :=
  { sampleEnvelope with
    aes256GcmEncrypt := fun key nonce aad text =>
      some (fit 16 (sampleHash (key.val ++ nonce.val ++ aad ++ text)).val ++ text)
    aes256GcmDecrypt := fun key nonce aad ct =>
      if ct.take 16 = fit 16 (sampleHash (key.val ++ nonce.val ++ aad ++ ct.drop 16)).val then
        some (ct.drop 16)
      else none }

theorem taggedSample_sealsLawfully : taggedSample.SealsLawfully where
  decrypts key nonce aad text ct h := by
    cases h
    have htag := fit_length 16 (sampleHash (key.val ++ nonce.val ++ aad ++ text)).val
    simp only [taggedSample, List.take_left' htag, List.drop_left' htag, if_true]
  tagged key nonce aad text ct h := by
    cases h
    rw [List.length_append, fit_length, aesGcmTagSize]
    omega

def sampleStreamKey : Fixed 32 := ⟨List.replicate 32 7, by simp⟩

/-- A text file, read in full chunks without a time limit. -/
def sampleCall (chunk : Nat) (contents : Bytes) : EncryptCall where
  chunk
  input := .file (some "txt") (.full contents)
  maxDuration := 0
  noPlaintext := true
  signing := sampleKey 1
  noncePrefix := ⟨[1, 2, 3, 4], rfl⟩
  keyId := ⟨List.replicate 16 5, by simp⟩
  deviceId := "sealedge-abc123"
  salt := "sealedge-demo-salt"
  elapsed := id
  tsMs _ := 1700000000000

theorem sampleCall_encrypts {chunk : Nat} (contents : Bytes) (hpos : 0 < chunk)
    (hsmall : chunk < 2 ^ 32) (hlen : ((Reader.full contents).pieces chunk).length < 2 ^ 64) :
    ∃ files, encryptMode sampleCrates taggedSample sampleStreamKey (sampleCall chunk contents) =
      .ok files :=
  encryptMode_file_ok sampleCrates_signsLawfully taggedSample_sealsLawfully
    (fun _ _ _ _ => ⟨_, rfl⟩) rfl hpos hsmall hlen

theorem sampleCall_chunksRead {chunk : Nat} (contents : Bytes)
    (hlen : ((Reader.full contents).pieces chunk).length < 2 ^ 64) :
    (sampleCall chunk contents).chunksRead = (Reader.full contents).pieces chunk := by
  have hread : ((sampleCall chunk contents).forEachChunk (fun _ _ buf => Except.ok buf)
      (sampleCall chunk contents).input 0 0).2 = .ok () :=
    forEachChunk_file_ok (fun _ _ buf _ => ⟨buf, rfl⟩) (.full contents) 0 0
      (by rw [Nat.zero_add]; exact hlen)
  exact chunksRead_file_whole rfl hread fun _ _ => rfl

theorem sample_pieces : (Reader.full ([1, 2, 3] : Bytes)).pieces 2 = [[1, 2], [3]] := by
  rw [Reader.pieces_cons (by decide), Reader.pieces_cons (by decide), Reader.pieces_nil (by decide)]
  rfl

theorem stream_round_trip_sample : ∃ files,
    encryptMode sampleCrates taggedSample sampleStreamKey (sampleCall 2 [1, 2, 3]) = .ok files ∧
      ∃ d, decryptEnvelope sampleCrates taggedSample sampleStreamKey files.envelope = .ok d ∧
        d.output = [1, 2, 3] := by
  obtain ⟨files, hfiles⟩ := sampleCall_encrypts [1, 2, 3] (by omega : 0 < 2) (by omega)
    (by rw [sample_pieces]; decide)
  refine ⟨files, hfiles, ?_⟩
  have hiff := stream_round_trip_iff sampleCrates_signsLawfully taggedSample_sealsLawfully rfl hfiles
  refine hiff.mpr ⟨by decide, ?_, by decide, ?_⟩
  · show ((Reader.full ([1, 2, 3] : Bytes)).pieces 2).length ≤ maxRecordsPerStream
    rw [sample_pieces]
    decide
  · intro round _
    rfl

/-- One byte, with a chunk size that the encryptor takes and the decryptor does not. -/
theorem large_chunk_not_decrypted : ∃ files,
    encryptMode sampleCrates taggedSample sampleStreamKey (sampleCall (2 ^ 27 + 1) [1]) =
        .ok files ∧
      ¬ ∃ d, decryptEnvelope sampleCrates taggedSample sampleStreamKey files.envelope = .ok d ∧
        d.output = [1] := by
  have hpieces : (Reader.full ([1] : Bytes)).pieces (2 ^ 27 + 1) = [[1]] := by
    rw [Reader.pieces_cons (by decide), Reader.pieces_nil (by decide)]
    rfl
  obtain ⟨files, hfiles⟩ := sampleCall_encrypts [1] (by omega : 0 < 2 ^ 27 + 1) (by omega)
    (by rw [hpieces]; decide)
  refine ⟨files, hfiles, ?_⟩
  rintro ⟨d, hd, -⟩
  obtain ⟨hpos, hsmall, -, rfl⟩ := encryptMode_eq_ok.mp hfiles
  obtain ⟨hbound, -⟩ := (decryptEnvelope_header hpos hsmall).mp hd
  revert hbound
  decide

end Sample

end Sealedge
