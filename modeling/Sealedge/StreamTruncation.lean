import Sealedge.StreamRoundTrip

namespace Sealedge

open Fallible Bincode PieceReader

section Cut

variable {x : Crates} {ec : EnvelopeCrates} {key : Fixed 32} {call : EncryptCall}

theorem getPreamble_reads : Reads getPreamble (writeStreamHeader (call.streamHeader x))
    (call.streamHeader x) := by
  have hlen : magic.length = 4 := by decide +kernel
  exact (reads_getBytes hlen).bind ((reads_getByte streamVersion).bind streamHeader_reads)

theorem StreamOf.sized {seq : Nat} {bufs : List Bytes} {written : List (Record × Bytes)}
    (h : StreamOf x ec key call seq bufs written) : ∀ w ∈ written, w.1.Sized := by
  induction h with
  | nil =>
    intro w hw
    contradiction
  | cons hlt hbuf hroom hr hlater ih =>
    intro w hw
    rcases List.mem_cons.mp hw with rfl | hw
    · exact hr.sized
    · exact ih w hw

theorem Record.bincode_cut (r : Record) :
    ∃ first rest, r.bincode = [first] ++ rest ∧ rest ≠ [] := by
  have hlen : 2 ≤ r.bincode.length := by
    simp only [Record.bincode, List.length_append, leBytes_length]
    omega
  match hbytes : r.bincode with
  | [] => simp [hbytes] at hlen
  | [first] => simp [hbytes] at hlen
  | first :: second :: rest => exact ⟨first, second :: rest, rfl, List.cons_ne_nil _ _⟩

theorem decryptEnvelope_cut_header {front back : Bytes} (hback : back ≠ [])
    (h : writeStreamHeader (call.streamHeader x) = front ++ back) :
    ∃ err, decryptEnvelope x ec key front = .error err := by
  apply exists_error_of_ne_ok
  intro d hd
  obtain ⟨sh, rest, fh, hread, -⟩ := decryptEnvelope_spec hd
  have hwhole : Reads getPreamble (front ++ back) (call.streamHeader x) := h ▸ getPreamble_reads
  rw [getPreamble_local.cut_eq_none hwhole hback] at hread
  contradiction

theorem EncryptCall.fileTo_succ {k : Nat} {w : Record × Bytes}
    (hw : (call.written x ec key)[k]? = some w) :
    call.fileTo x ec key (k + 1) = call.fileTo x ec key k ++ w.1.bincode := by
  rw [EncryptCall.fileTo, EncryptCall.fileTo, List.take_add_one, hw, List.flatMap_append,
    List.append_assoc]
  simp

/-- A written file that is cut short: inside the stream header it is refused. Behind it, inside a
record or between two, the cut is taken for the end of the stream: the chunks of the records that
are complete are the output, and only the reader's limits can keep it from succeeding. -/
theorem truncated_stream_output (hx : x.SignsLawfully) (hec : ec.SealsLawfully)
    {files : EncryptedFiles} (h : encryptMode x ec key call = .ok files) {front back : Bytes}
    (hback : back ≠ []) (hcut : files.envelope = front ++ back) :
    (∃ missing, missing ≠ [] ∧ writeStreamHeader (call.streamHeader x) = front ++ missing ∧
      ∃ err, decryptEnvelope x ec key front = .error err) ∨
    ∃ k < call.chunksRead.length, ∃ w part missing, (call.written x ec key)[k]? = some w ∧
      w.1.bincode = part ++ missing ∧ missing ≠ [] ∧ front = call.fileTo x ec key k ++ part ∧
      (∀ d, decryptEnvelope x ec key front = .ok d → d.output = (call.chunksRead.take k).flatten) ∧
      ((∃ d, decryptEnvelope x ec key front = .ok d) ↔
        call.chunk ≤ maxChunkSize.toNat ∧ k ≤ maxRecordsPerStream ∧
          (call.chunksRead.take k).flatten.length ≤ maxStreamSizeBytes) := by
  obtain ⟨hpos, hsmall, hloop, rfl⟩ := encryptMode_eq_ok.mp h
  obtain ⟨hstream, -⟩ := written_streamOf hx hec hsmall hloop
  have hblocks : (writeStreamHeader (call.streamHeader x) ::
      (call.written x ec key).map fun w => w.1.bincode).flatten = front ++ back := by
    rw [← hcut, EncryptCall.fileTo, List.take_length, List.flatten_cons, List.flatMap_def]
  obtain ⟨k, part, rest, hk, hrest, rfl⟩ := cut_flatten hback hblocks
  cases k with
  | zero =>
    left
    have hheader : writeStreamHeader (call.streamHeader x) = part ++ rest := Option.some.inj hk
    exact ⟨rest, hrest, hheader, decryptEnvelope_cut_header hrest hheader⟩
  | succ k =>
    right
    rw [List.getElem?_cons_succ, List.getElem?_map] at hk
    obtain ⟨w, hw, hbytes⟩ := Option.map_eq_some_iff.mp hk
    have hlt : k < call.chunksRead.length := by
      rw [← hstream.length_eq]
      exact (List.getElem?_eq_some_iff.mp hw).1
    have hfront : ((writeStreamHeader (call.streamHeader x) ::
        (call.written x ec key).map fun w => w.1.bincode).take (k + 1)).flatten =
          call.fileTo x ec key k := by
      rw [List.take_succ_cons, List.flatten_cons, EncryptCall.fileTo, List.flatMap_def,
        List.map_take]
    -- what is left of the record that the cut runs through cannot be read
    have hnone : Record.get part = none := by
      have hread := (hstream.sized w (List.mem_of_getElem? hw)).reads
      rw [hbytes] at hread
      exact Record.get_local.cut_eq_none hread hrest
    have hdecrypt := fun d => decryptEnvelope_fileTo hpos hsmall hstream k hnone (d := d)
    have hcount : ((call.written x ec key).take k).length = k := by
      rw [List.length_take, hstream.length_eq]
      omega
    rw [hcount] at hdecrypt
    rw [hfront]
    refine ⟨k, hlt, w, part, rest, hw, hbytes, hrest, rfl, ?_, ?_⟩
    · intro d hd
      obtain ⟨-, rfl⟩ := (hdecrypt d).mp hd
      exact (hstream.take k).output _
    · constructor
      · rintro ⟨d, hd⟩
        exact ((hdecrypt d).mp hd).1
      · intro hlimits
        exact ⟨_, (hdecrypt _).mpr ⟨hlimits, rfl⟩⟩

end Cut

section Sample

theorem sample_cut : ∃ files w part rest,
    encryptMode sampleCrates taggedSample sampleStreamKey (sampleCall 2 [1, 2, 3]) = .ok files ∧
      ((sampleCall 2 [1, 2, 3]).written sampleCrates taggedSample sampleStreamKey)[1]? = some w ∧
      w.1.bincode = part ++ rest ∧ part ≠ [] ∧ rest ≠ [] ∧
      files.envelope =
        (sampleCall 2 [1, 2, 3]).fileTo sampleCrates taggedSample sampleStreamKey 1 ++ part ++ rest ∧
      (sampleCall 2 [1, 2, 3]).chunksRead = [[1, 2], [3]] := by
  obtain ⟨files, hfiles⟩ := sampleCall_encrypts [1, 2, 3] (by omega : 0 < 2) (by omega)
    (by rw [sample_pieces]; decide)
  obtain ⟨-, hsmall, hloop, rfl⟩ := encryptMode_eq_ok.mp hfiles
  obtain ⟨hstream, -⟩ :=
    written_streamOf sampleCrates_signsLawfully taggedSample_sealsLawfully hsmall hloop
  have hchunks : (sampleCall 2 [1, 2, 3]).chunksRead = [[1, 2], [3]] :=
    (sampleCall_chunksRead [1, 2, 3] (by rw [sample_pieces]; decide)).trans sample_pieces
  have htwo := hstream.length_eq
  rw [hchunks] at htwo
  have htwo : ((sampleCall 2 [1, 2, 3]).written sampleCrates taggedSample sampleStreamKey).length =
    2 := htwo
  obtain ⟨w, hw⟩ : ∃ w, ((sampleCall 2 [1, 2, 3]).written sampleCrates taggedSample
      sampleStreamKey)[1]? = some w :=
    ⟨_, List.getElem?_eq_getElem (by omega)⟩
  obtain ⟨first, rest, hbytes, hrest⟩ := w.1.bincode_cut
  refine ⟨_, w, [first], rest, hfiles, hw, hbytes, List.cons_ne_nil _ _, hrest, ?_, hchunks⟩
  rw [htwo, EncryptCall.fileTo_succ hw, hbytes, List.append_assoc]

/-- Without a part of its second record, or without all of it, the file opens to the first two of
its three bytes. -/
theorem truncated_stream_accepted : ∃ files front part rest,
    encryptMode sampleCrates taggedSample sampleStreamKey (sampleCall 2 [1, 2, 3]) = .ok files ∧
      part ≠ [] ∧ rest ≠ [] ∧ files.envelope = front ++ part ++ rest ∧
      (∃ d, decryptEnvelope sampleCrates taggedSample sampleStreamKey front = .ok d ∧
        d.output = [1, 2]) ∧
      ∃ d, decryptEnvelope sampleCrates taggedSample sampleStreamKey (front ++ part) = .ok d ∧
        d.output = [1, 2] := by
  obtain ⟨files, w, part, rest, hfiles, hw, hbytes, hpart, hrest, hcut, hchunks⟩ := sample_cut
  obtain ⟨hpos, hsmall, hloop, rfl⟩ := encryptMode_eq_ok.mp hfiles
  obtain ⟨hstream, -⟩ :=
    written_streamOf sampleCrates_signsLawfully taggedSample_sealsLawfully hsmall hloop
  have hlimits : ((sampleCall 2 [1, 2, 3]).written sampleCrates taggedSample
      sampleStreamKey |>.take 1).length ≤ maxRecordsPerStream := by
    rw [List.length_take]
    exact (Nat.min_le_left _ _).trans (by decide)
  have hopens : ∀ {tail : Bytes}, Record.get tail = none → ∃ d, decryptEnvelope sampleCrates
      taggedSample sampleStreamKey ((sampleCall 2 [1, 2, 3]).fileTo sampleCrates taggedSample
        sampleStreamKey 1 ++ tail) = .ok d ∧ d.output = [1, 2] := by
    intro tail htail
    refine ⟨_, (decryptEnvelope_fileTo hpos hsmall hstream 1 htail).mpr
      ⟨⟨by decide, hlimits, ?_⟩, rfl⟩, ?_⟩
    · rw [hchunks]
      decide
    · rw [(hstream.take 1).output, hchunks]
      rfl
  have hread := (hstream.sized w (List.mem_of_getElem? hw)).reads
  rw [hbytes] at hread
  have hwhole : Record.get [] = none := rfl
  refine ⟨_, _, part, rest, hfiles, hpart, hrest, hcut, ?_,
    hopens (Record.get_local.cut_eq_none hread hrest)⟩
  rw [← List.append_nil (EncryptCall.fileTo _ _ _ _ _)]
  exact hopens hwhole

/-- A cut through the second record leaves the chunk of the first. -/
theorem truncated_stream_sample : ∃ files front back,
    encryptMode sampleCrates taggedSample sampleStreamKey (sampleCall 2 [1, 2, 3]) = .ok files ∧
      back ≠ [] ∧ files.envelope = front ++ back ∧
      ∃ d, decryptEnvelope sampleCrates taggedSample sampleStreamKey front = .ok d ∧
        d.output = [1, 2] := by
  obtain ⟨files, w, part, rest, hfiles, hw, hbytes, hpart, hrest, hcut, hchunks⟩ := sample_cut
  refine ⟨files, _, rest, hfiles, hrest, hcut, ?_⟩
  obtain ⟨w₀, hw₀⟩ : ∃ w₀, ((sampleCall 2 [1, 2, 3]).written sampleCrates taggedSample
      sampleStreamKey)[0]? = some w₀ := by
    have hlt := (List.getElem?_eq_some_iff.mp hw).1
    exact ⟨_, List.getElem?_eq_getElem (by omega)⟩
  have hone := EncryptCall.fileTo_succ hw₀
  rcases truncated_stream_output sampleCrates_signsLawfully taggedSample_sealsLawfully hfiles hrest
    hcut with ⟨missing, hmissing, hheader, -⟩ |
      ⟨k, hk, w', part', missing, hw', hbytes', hmissing, hfront, houtput, hopens⟩
  · -- the cut lies behind the header
    have hlen := congrArg List.length hheader
    have hpos := List.length_pos_iff.mpr hmissing
    simp only [EncryptCall.fileTo, List.length_append] at hlen
    omega
  · rw [hchunks] at hk houtput hopens
    obtain rfl : k = 1 := by
      by_contra hne
      obtain rfl : k = 0 := by
        have hlt : k < 2 := hk
        omega
      obtain rfl := Option.some.inj (hw₀.symm.trans hw')
      have hlen := congrArg List.length hfront
      have hpos := List.length_pos_iff.mpr hmissing
      rw [hone, hbytes'] at hlen
      simp only [List.length_append] at hlen
      omega
    obtain ⟨d, hd⟩ := hopens.mpr ⟨by decide, by decide, by decide⟩
    exact ⟨d, hd, houtput d hd⟩

end Sample

end Sealedge
