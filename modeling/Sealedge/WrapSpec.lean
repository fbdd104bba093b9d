import Sealedge.Wrap
import Mathlib.Data.List.Forall2

namespace Sealedge

open Fallible PieceReader

section Chunks

variable (x : Crates) (c : ContentCrates) (fig : Figures) (job : ChunkJob)

/-- The segments that describe stored chunks from a position on. -/
def segmentsFrom : Nat → ArchiveWriter → List Bytes → List SegmentInfo
  | _, _, [] => []
  | i, w, bytes :: rest =>
    segmentFor fig job i (w.outcome x bytes) :: segmentsFrom (i + 1) (w.advance x bytes) rest

/-- Chunks and the forms they are stored in, from a position on. -/
inductive StoredFrom : Nat → List Bytes → List Bytes → Prop
  | nil {i : Nat} : StoredFrom i [] []
  | cons {i : Nat} {chunk bytes : Bytes} {chunks stored : List Bytes}
      (head : storeChunk c job i chunk = .ok bytes) (tail : StoredFrom (i + 1) chunks stored) :
      StoredFrom i (chunk :: chunks) (bytes :: stored)

/-- What the streaming loop leaves: the chunks make up the input, and the directory and the
segments are those of their stored forms. -/
structure ChunksWrapped (reader : Reader UInt8) (i : Nat) (w : ArchiveWriter)
    (chunks : List Bytes) (out : ChunksOut) : Prop where
  whole : 0 < job.chunkSize → chunks.flatten = reader.rest
  sizes : ∀ chunk ∈ chunks, 0 < chunk.length ∧ chunk.length ≤ job.chunkSize
  stored : StoredFrom c job i chunks out.stored
  writer : out.writer = w.after x out.stored
  segments : out.segments = segmentsFrom x fig job i w out.stored

end Chunks

section Spec

variable {x : Crates} {c : ContentCrates} {fig : Figures} {st : Storage}

/-- A round of the streaming loop that succeeds: it ends where nothing is left to read, or stores
the next part of the input and goes on behind it. -/
theorem wrapChunks_cases {faults : Faults} {job : ChunkJob} {reader : Reader UInt8} {i : Nat}
    {w : ArchiveWriter} {out : ChunksOut}
    (h : wrapChunks x c fig faults job reader i w = .ok out) :
    (reader.rest.take job.chunkSize = [] ∧ out = ⟨w, [], []⟩) ∨
      ∃ bytes reader' rest, reader.rest.take job.chunkSize ≠ [] ∧
        reader'.rest = reader.rest.drop job.chunkSize ∧
        reader'.rest.length < reader.rest.length ∧
        storeChunk c job i (reader.rest.take job.chunkSize) = .ok bytes ∧
        wrapChunks x c fig faults job reader' (i + 1) (w.advance x bytes) = .ok rest ∧
        out = ⟨rest.writer, segmentFor fig job i (w.outcome x bytes) :: rest.segments,
          bytes :: rest.stored⟩ := by
  unfold wrapChunks at h
  split at h
  next => cases h
  next chunkData reader' hread =>
    obtain ⟨rfl, hrest⟩ := readExactOrEof_eq_ok hread
    by_cases hend : reader.rest.take job.chunkSize = []
    · rw [dif_pos hend] at h
      cases h
      exact .inl ⟨hend, rfl⟩
    · rw [dif_neg hend] at h
      obtain ⟨bytes, hstore, h⟩ := bind_eq_ok.mp h
      obtain ⟨⟨outcome, w'⟩, hpush, h⟩ := bind_eq_ok.mp h
      obtain ⟨rest, hloop, h⟩ := bind_eq_ok.mp h
      cases h
      obtain ⟨rfl, rfl⟩ := ArchiveWriter.pushChunk_eq_ok
        (mapError_eq_ok.mp (mapError_eq_ok.mp hpush))
      have hlt := readExactOrEof_rest_lt hread hend
      exact .inr ⟨bytes, reader', rest, hend, hrest, hlt, hstore, hloop, rfl⟩

theorem wrapChunks_eq_ok {faults : Faults} {job : ChunkJob} {reader : Reader UInt8} {i : Nat}
    {w : ArchiveWriter} {out : ChunksOut}
    (h : wrapChunks x c fig faults job reader i w = .ok out) :
    ∃ chunks, ChunksWrapped x c fig job reader i w chunks out := by
  induction hn : reader.rest.length using Nat.strong_induction_on generalizing reader i w out with
  | _ n ih =>
    rcases wrapChunks_cases h with
      ⟨hend, rfl⟩ | ⟨bytes, reader', rest, hend, hrest, hlt, hstore, hloop, rfl⟩
    · refine ⟨[], ?_, by simp, .nil, rfl, rfl⟩
      intro hsize
      rcases List.take_eq_nil_iff.mp hend with hzero | hnil
      · omega
      · simp [hnil]
    · obtain ⟨chunks, hwrapped⟩ := ih _ (by omega) hloop rfl
      refine ⟨_ :: chunks, ?_, ?_, .cons hstore hwrapped.stored, hwrapped.writer, ?_⟩
      · intro hsize
        rw [List.flatten_cons, hwrapped.whole hsize, hrest, List.take_append_drop]
      · intro chunk hmem
        rcases List.mem_cons.mp hmem with rfl | hmem
        · exact ⟨List.length_pos_of_ne_nil hend, List.length_take_le _ _⟩
        · exact hwrapped.sizes chunk hmem
      · rw [hwrapped.segments]
        rfl

theorem fillBuffer_ok (size : Nat) (reader : Reader UInt8) (buf : Bytes) :
    ∃ out, fillBuffer none size reader buf = .ok out := by
  induction hn : reader.rest.length using Nat.strong_induction_on generalizing reader buf with
  | _ n ih =>
    unfold fillBuffer
    by_cases hroom : buf.length < size
    · rw [if_pos hroom]
      by_cases hend : (reader.read (size - buf.length)).1 = []
      · rw [dif_pos hend]
        exact ⟨_, rfl⟩
      · have hlt := Reader.read_rest_lt hend
        rw [dif_neg hend]
        exact ih _ (by omega) _ _ rfl
    · rw [if_neg hroom]
      exact ⟨_, rfl⟩

/-- The loop ends well when every read, every write and every encryption does. -/
theorem wrapChunks_ok {faults : Faults} (hfaults : ∀ path, faults path = none) {job : ChunkJob}
    (hread : job.input.readError = none) (hstore : ∀ i chunk, ∃ s, storeChunk c job i chunk = .ok s)
    {reader : Reader UInt8} {i : Nat} {w : ArchiveWriter} :
    ∃ out, wrapChunks x c fig faults job reader i w = .ok out := by
  induction hn : reader.rest.length using Nat.strong_induction_on generalizing reader i w with
  | _ n ih =>
    unfold wrapChunks
    split
    next e herror =>
      obtain ⟨out, hout⟩ := fillBuffer_ok job.chunkSize reader []
      unfold readExactOrEof at herror
      rw [hread, hout] at herror
      cases herror
    next chunkData reader' hok =>
      by_cases hend : chunkData = []
      · rw [dif_pos hend]
        exact ⟨_, rfl⟩
      · have hlt := readExactOrEof_rest_lt hok hend
        obtain ⟨bytes, hbytes⟩ := hstore i chunkData
        have hpush : w.pushChunk x faults bytes = .ok (w.outcome x bytes, w.advance x bytes) := by
          unfold ArchiveWriter.pushChunk Faults.attempt
          rw [hfaults]
          rfl
        obtain ⟨rest, hrest⟩ : ∃ rest, wrapChunks x c fig faults job reader' (i + 1)
            (w.advance x bytes) = .ok rest := ih _ (by omega) rfl
        rw [dif_neg hend]
        refine ⟨_, bind_eq_ok.mpr ⟨bytes, hbytes, bind_eq_ok.mpr
          ⟨(w.outcome x bytes, w.advance x bytes), ?_, bind_eq_ok.mpr ⟨rest, hrest, rfl⟩⟩⟩⟩
        exact mapError_eq_ok.mpr (mapError_eq_ok.mpr hpush)

theorem openInput_eq_ok {input : InputFile} {reader : Reader UInt8}
    (h : openInput input = .ok reader) : input.opened = .ok reader := by
  obtain ⟨_, -, h⟩ := bind_eq_ok.mp h
  obtain ⟨_, -, h⟩ := bind_eq_ok.mp h
  exact mapError_eq_ok.mp h

theorem signingPublicKey_eq_ok {args : WrapCmd} {bundle : DeviceBundle} {publicKey : String}
    (h : signingPublicKey x args bundle = .ok publicKey) : publicKey = bundle.signing.public x := by
  unfold signingPublicKey at h
  split at h
  next => exact (Except.ok.inj h).symm
  next =>
    split at h
    · cases h
    · cases h

theorem sealRecipients_length {ephemeral : Nat → Bytes} {info aad : Bytes} {cek : ContentKey} {i : Nat}
    {pubs : List String} {entries : List RecipientEntry}
    (h : sealRecipients x c ephemeral info aad cek i pubs = .ok entries) :
    entries.length = pubs.length := by
  induction pubs generalizing i entries with
  | nil =>
    cases h
    rfl
  | cons pub rest ih =>
    obtain ⟨_, -, h⟩ := bind_eq_ok.mp h
    obtain ⟨_, -, h⟩ := bind_eq_ok.mp h
    obtain ⟨tail, htail, h⟩ := bind_eq_ok.mp h
    cases h
    simp [ih htail]

/-- Every entry of the block has the content key sealed to its own public key. -/
theorem sealRecipients_sealed {ephemeral : Nat → Bytes} {info aad : Bytes} {cek : ContentKey} {i : Nat}
    {pubs : List String} {entries : List RecipientEntry}
    (h : sealRecipients x c ephemeral info aad cek i pubs = .ok entries) :
    ∀ entry ∈ entries, ∃ random,
      hpkeSealCek x c random entry.recipientPub info aad cek = .ok (entry.enc, entry.wrappedCek) := by
  induction pubs generalizing i entries with
  | nil =>
    cases h
    simp
  | cons pub rest ih =>
    obtain ⟨⟨enc, wrapped⟩, hseal, h⟩ := bind_eq_ok.mp h
    obtain ⟨id, -, h⟩ := bind_eq_ok.mp h
    obtain ⟨tail, htail, h⟩ := bind_eq_ok.mp h
    cases h
    intro entry hmem
    rcases List.mem_cons.mp hmem with rfl | hmem
    · exact ⟨ephemeral i, hseal⟩
    · exact ih htail entry hmem

theorem recipientPubs_ne_nil (kaPub : String) (recipients : List String) :
    recipientPubs kaPub recipients ≠ [] := by
  have hkept : ∀ (pubs : List String), pubs ≠ [] →
      recipients.foldl (fun pubs r => if pubs.contains r then pubs else pubs ++ [r]) pubs ≠ [] := by
    induction recipients with
    | nil => exact fun _ h => h
    | cons r rest ih =>
      intro pubs h
      rw [List.foldl_cons]
      apply ih
      split
      · exact h
      · simp
  exact hkept [kaPub] (by simp)

theorem sealManifest_some_eq_ok {args : WrapCmd} {ephemeral : Nat → Bytes} {cek : ContentKey}
    {publicKey kaPub : String} {m finished : TrstManifest}
    (h : sealManifest x c args ephemeral (some cek) publicKey kaPub m = .ok finished) :
    ∃ recipients,
      sealRecipients x c ephemeral (cekWrapInfo publicKey m.trstVersion)
        (segmentHash x (m.toCanonicalBytes x.text)).val cek 0
        (recipientPubs kaPub args.recipients) = .ok recipients ∧
      finished.encryption =
        some ⟨contentAeadId, ⟨hpkeKemId, hpkeKdfId, hpkeAeadId⟩, recipients⟩ := by
  obtain ⟨recipients, hrecipients, h⟩ := bind_eq_ok.mp h
  cases h
  exact ⟨recipients, mapError_eq_ok.mp (mapError_eq_ok.mp hrecipients), rfl⟩

theorem sealManifest_none_eq_ok {args : WrapCmd} {ephemeral : Nat → Bytes}
    {publicKey kaPub : String} {m finished : TrstManifest}
    (h : sealManifest x c args ephemeral none publicKey kaPub m = .ok finished) : finished = m := by
  obtain ⟨_, -, h⟩ := bind_eq_ok.mp h
  exact (Except.ok.inj h).symm

theorem sealManifest_eq_ok {args : WrapCmd} {ephemeral : Nat → Bytes} {cek : Option ContentKey}
    {publicKey kaPub : String} {m finished : TrstManifest}
    (h : sealManifest x c args ephemeral cek publicKey kaPub m = .ok finished) :
    finished = { m with encryption := finished.encryption } := by
  cases cek with
  | none =>
    rw [sealManifest_none_eq_ok h]
  | some cek =>
    obtain ⟨recipients, -, h⟩ := bind_eq_ok.mp h
    cases h
    rfl

/-- What a wrap has done when its manifest is signed. -/
structure SignedArchive.Made (x : Crates) (c : ContentCrates) (fig : Figures) (st : Storage)
    (env : WrapEnv) (args : WrapCmd) (a : SignedArchive) (reader : Reader UInt8)
    (w : ArchiveWriter) (chunks : List Bytes) (out : ChunksOut) (deviceId : String)
    (data : ProfileMetadata) : Prop where
  bundle : env.bundle = .ok a.bundle
  device : pubKeyToDeviceId x (a.bundle.signing.public x) = .ok deviceId
  opened : env.input.opened = .ok reader
  created : ArchiveWriter.create x env.faults env.output = .ok w
  chunks : ChunksWrapped x c fig (chunkJob x env args (a.bundle.signing.public x)) reader 0 w
    chunks out
  metadata : profileMetadata fig args (env.timeFor args.seed) out.segments.length = .ok data
  link : resolveChronicle x st env.stateFile args (a.bundle.signing.public x) = .ok a.link
  finished : sealManifest x c args (env.drawsFor args.seed).ephemeral
    (chunkJob x env args (a.bundle.signing.public x)).cek (a.bundle.signing.public x)
    (a.bundle.keyAgreement.publicString x c)
    ((unsignedManifest args deviceId (a.bundle.signing.public x)
      (a.bundle.keyAgreement.publicString x c) data out.segments).stamp a.link) =
    .ok { a.manifest with signature := none }
  signature : a.signature = signManifest x a.bundle.signing (a.manifest.toCanonicalBytes x.text)
  signed : a.manifest.signature = some a.signature
  writer : a.writer = out.writer
  stored : a.stored = out.stored

theorem stamp_signature (m : TrstManifest) (link : Option ChronicleLink) :
    (m.stamp link).signature = m.signature := by
  cases link <;> rfl

theorem stamp_trstVersion (m : TrstManifest) (link : Option ChronicleLink) :
    (m.stamp link).trstVersion = m.trstVersion := by
  cases link <;> rfl

theorem signArchive_eq_ok {env : WrapEnv} {args : WrapCmd} {a : SignedArchive}
    (h : signArchive x c fig st env args = .ok a) :
    ∃ reader w chunks out deviceId data,
      a.Made x c fig st env args reader w chunks out deviceId data := by
  obtain ⟨_, -, h⟩ := bind_eq_ok.mp h
  obtain ⟨bundle, hbundle, h⟩ := bind_eq_ok.mp h
  obtain ⟨publicKey, hpublic, h⟩ := bind_eq_ok.mp h
  obtain ⟨deviceId, hdevice, h⟩ := bind_eq_ok.mp h
  obtain ⟨reader, hreader, h⟩ := bind_eq_ok.mp h
  obtain ⟨_, -, h⟩ := bind_eq_ok.mp h
  obtain ⟨w, hcreate, h⟩ := bind_eq_ok.mp h
  obtain ⟨out, hloop, h⟩ := bind_eq_ok.mp h
  obtain ⟨metadata, hmetadata, h⟩ := bind_eq_ok.mp h
  obtain ⟨link, hlink, h⟩ := bind_eq_ok.mp h
  obtain ⟨finished, hsealed, h⟩ := bind_eq_ok.mp h
  cases h
  have hpublic := signingPublicKey_eq_ok hpublic
  subst hpublic
  obtain ⟨chunks, hchunks⟩ := wrapChunks_eq_ok hloop
  have hunsigned : finished.signature = none := by
    rw [sealManifest_eq_ok hsealed]
    exact stamp_signature _ _
  have hcleared : ({ finished with signature := none } : TrstManifest) = finished := by
    rw [← hunsigned]
  refine ⟨reader, w, chunks, out, deviceId, metadata, hbundle, hdevice, openInput_eq_ok hreader,
    mapError_eq_ok.mp hcreate, hchunks, hmetadata, hlink, ?_, rfl, rfl, rfl, rfl⟩
  rw [hsealed]
  exact congrArg Except.ok hcleared.symm

/-- What a manifest has from its unsigned form. -/
structure KeepsUnsigned (args : WrapCmd) (deviceId publicKey : String) (data : ProfileMetadata)
    (segments : List SegmentInfo) (m : TrstManifest) : Prop where
  version : m.trstVersion = "0.2.0"
  profile : m.profile = args.profile
  id : m.device.id = deviceId
  publicKey : m.device.publicKey = publicKey
  metadata : m.metadata = data
  segments : m.segments = segments
  epoch : m.device.keyEpoch ≠ some 0

theorem keepsUnsigned_stamp (args : WrapCmd) (deviceId publicKey kaPub : String)
    (data : ProfileMetadata) (segments : List SegmentInfo) (link : Option ChronicleLink) :
    KeepsUnsigned args deviceId publicKey data segments
      ((unsignedManifest args deviceId publicKey kaPub data segments).stamp link) := by
  cases link with
  | none => exact ⟨rfl, rfl, rfl, rfl, rfl, rfl, nofun⟩
  | some link =>
    refine ⟨rfl, rfl, rfl, rfl, rfl, rfl, ?_⟩
    show (if 0 < link.keyEpoch then some link.keyEpoch else none) ≠ some 0
    by_cases hpos : 0 < link.keyEpoch
    · rw [if_pos hpos]
      intro hzero
      rw [Option.some.inj hzero] at hpos
      exact UInt32.lt_irrefl _ hpos
    · rw [if_neg hpos]
      nofun

theorem SignedArchive.Made.kept {env : WrapEnv} {args : WrapCmd} {a : SignedArchive}
    {reader : Reader UInt8} {w : ArchiveWriter} {chunks : List Bytes} {out : ChunksOut}
    {deviceId : String} {data : ProfileMetadata}
    (h : a.Made x c fig st env args reader w chunks out deviceId data) :
    KeepsUnsigned args deviceId (a.bundle.signing.public x) data out.segments a.manifest := by
  have hstamped := keepsUnsigned_stamp args deviceId (a.bundle.signing.public x)
    (a.bundle.keyAgreement.publicString x c) data out.segments a.link
  have hsealed := sealManifest_eq_ok h.finished
  have hdevice := congrArg TrstManifest.device hsealed
  exact ⟨(congrArg TrstManifest.trstVersion hsealed).trans hstamped.version,
    (congrArg TrstManifest.profile hsealed).trans hstamped.profile,
    (congrArg DeviceInfo.id hdevice).trans hstamped.id,
    (congrArg DeviceInfo.publicKey hdevice).trans hstamped.publicKey,
    (congrArg TrstManifest.metadata hsealed).trans hstamped.metadata,
    (congrArg TrstManifest.segments hsealed).trans hstamped.segments,
    fun hzero => hstamped.epoch ((congrArg DeviceInfo.keyEpoch hdevice).symm.trans hzero)⟩

theorem ChronicleState.save_eq_ok {faults : Faults} {path : String} {state : ChronicleState}
    {node : Node} (h : ChronicleState.save st faults path state = .ok node) :
    node = .file (intoBytes (st.printState state)) := by
  obtain ⟨_, -, h⟩ := bind_eq_ok.mp h
  obtain ⟨_, -, h⟩ := bind_eq_ok.mp h
  exact (Except.ok.inj h).symm

/-- The fields of a signed manifest that place it in a chronicle. -/
structure ChronicleManifest (x : Crates) (k : DeviceKeypair) (link : ChronicleLink)
    (m : TrstManifest) : Prop where
  version : m.trstVersion = "0.2.0"
  publicKey : m.device.publicKey = k.public x
  epoch : m.device.keyEpoch.getD 0 = link.keyEpoch
  sequence : m.sequence = some link.sequence
  prev : m.prevArchiveHash = link.prev
  signature : m.signature = some (signManifest x k (m.toCanonicalBytes x.text))

theorem SignedArchive.Made.chronicleManifest {env : WrapEnv} {args : WrapCmd} {a : SignedArchive}
    {reader : Reader UInt8} {w : ArchiveWriter} {chunks : List Bytes} {out : ChunksOut}
    {deviceId : String} {data : ProfileMetadata}
    (h : a.Made x c fig st env args reader w chunks out deviceId data) {link : ChronicleLink}
    (hlink : a.link = some link) : ChronicleManifest x a.bundle.signing link a.manifest := by
  have hsealed := sealManifest_eq_ok h.finished
  rw [hlink] at hsealed
  have hdevice := congrArg TrstManifest.device hsealed
  refine ⟨h.kept.version, h.kept.publicKey, ?_,
    congrArg TrstManifest.sequence hsealed, congrArg TrstManifest.prevArchiveHash hsealed, ?_⟩
  · have hepoch : a.manifest.device.keyEpoch =
        if 0 < link.keyEpoch then some link.keyEpoch else none := congrArg DeviceInfo.keyEpoch hdevice
    rw [hepoch]
    by_cases hpos : 0 < link.keyEpoch
    · rw [if_pos hpos]
      rfl
    · have hzero : link.keyEpoch = 0 := by
        apply UInt32.toNat_inj.mp
        have hle := UInt32.not_lt.mp hpos
        exact Nat.le_zero.mp hle
      rw [if_neg hpos, hzero]
      rfl
  · rw [h.signed, h.signature]

/-- Without a predecessor among the arguments the link comes from the state file: a first archive
without one, or the next archive of the device that the state names. -/
theorem resolveChronicle_eq_ok {stateFile : Node} {args : WrapCmd} {publicKey path : String}
    {link : Option ChronicleLink} (harchive : args.prevArchive = none) (hhash : args.prevHash = none)
    (hseq : args.prevSeq = none) (hchronicle : args.chronicle = some path)
    (h : resolveChronicle x st stateFile args publicKey = .ok link) :
    (stateFile = .absent ∧ link = some ⟨0, none, 0, some path⟩) ∨
      ∃ s, ChronicleState.load st stateFile = .ok s ∧ s.devicePub = publicKey ∧
        link = some ⟨s.sequence + 1, some s.tip, s.keyEpoch, some path⟩ := by
  unfold resolveChronicle at h
  rw [harchive, hhash, hseq, hchronicle] at h
  simp only at h
  by_cases habsent : stateFile = .absent
  · rw [if_pos habsent] at h
    exact Or.inl ⟨habsent, (Except.ok.inj h).symm⟩
  · rw [if_neg habsent] at h
    obtain ⟨s, hload, h⟩ := bind_eq_ok.mp h
    obtain ⟨_, hdevice, h⟩ := bind_eq_ok.mp h
    have hdevice := failWhen_eq_ok.mp hdevice
    exact Or.inr ⟨s, mapError_eq_ok.mp hload, by simpa using hdevice, (Except.ok.inj h).symm⟩

/-- What a wrap into a new directory has written when it goes to a chronicle. -/
structure WrappedInto (x : Crates) (st : Storage) (env : WrapEnv) (result : WrapResult)
    (bundle : DeviceBundle) (link : ChronicleLink) (m : TrstManifest) : Prop where
  loaded : env.bundle = .ok bundle
  manifest : ChronicleManifest x bundle.signing link m
  path : result.dir.path = env.output.path
  json : result.dir.manifestJson = .file (intoBytes (st.printManifest m))
  noRotation : result.dir.rotationJson = .absent
  stateFile : result.stateFile = .file (intoBytes (st.printState
    ⟨bundle.signing.public x, link.sequence, formatArchiveId (m.archiveDigest x), link.keyEpoch,
      env.updatedAt⟩))

theorem handleWrap_eq_ok {env : WrapEnv} {args : WrapCmd} {result : WrapResult} {path : String}
    (harchive : args.prevArchive = none) (hhash : args.prevHash = none)
    (hseq : args.prevSeq = none) (hchronicle : args.chronicle = some path)
    (hfresh : env.output = .empty env.output.path)
    (h : handleWrap x c fig st env args = .ok result) :
    ∃ bundle link m, WrappedInto x st env result bundle link m ∧
      ((env.stateFile = .absent ∧ link = ⟨0, none, 0, some path⟩) ∨
        ∃ s, ChronicleState.load st env.stateFile = .ok s ∧
          s.devicePub = bundle.signing.public x ∧
          link = ⟨s.sequence + 1, some s.tip, s.keyEpoch, some path⟩) := by
  obtain ⟨a, hsigned, h⟩ := bind_eq_ok.mp h
  obtain ⟨dir, hdir, h⟩ := bind_eq_ok.mp h
  obtain ⟨stateFile, hstate, h⟩ := bind_eq_ok.mp h
  cases h
  obtain ⟨reader, w, chunks, out, deviceId, data, hmade⟩ := signArchive_eq_ok hsigned
  have hfinal := ArchiveWriter.finalize_eq_ok (mapError_eq_ok.mp hdir)
  obtain ⟨created, -, hw⟩ := ArchiveWriter.create_eq_ok hmade.created
  have hkept : a.writer.dir = { env.output with chunks := a.writer.dir.chunks } := by
    rw [hmade.writer, hmade.chunks.writer, ArchiveWriter.after_dir, hw]
  rw [hfresh] at hkept
  have hpath : dir.path = env.output.path := by
    rw [hfinal.written, hkept]
    rfl
  have hjson : dir.manifestJson = .file (intoBytes (st.printManifest a.manifest)) := by
    rw [hfinal.written, hkept]
    rfl
  have hrotation : dir.rotationJson = .absent := by
    rw [hfinal.written, hkept]
    rfl
  have hsaved : ∀ link, a.link = some link → link.statePath = some path →
      stateFile = .file (intoBytes (st.printState
        ⟨a.bundle.signing.public x, link.sequence, formatArchiveId (a.manifest.archiveDigest x),
          link.keyEpoch, env.updatedAt⟩)) := by
    intro link hlink hpath
    unfold advanceState at hstate
    simp only [hlink, hpath] at hstate
    exact ChronicleState.save_eq_ok (mapError_eq_ok.mp hstate)
  rcases resolveChronicle_eq_ok harchive hhash hseq hchronicle hmade.link with
    ⟨habsent, hlink⟩ | ⟨s, hload, hdevice, hlink⟩
  · exact ⟨a.bundle, _, a.manifest, ⟨hmade.bundle, hmade.chronicleManifest hlink, hpath, hjson,
      hrotation, hsaved _ hlink rfl⟩, Or.inl ⟨habsent, rfl⟩⟩
  · exact ⟨a.bundle, _, a.manifest, ⟨hmade.bundle, hmade.chronicleManifest hlink, hpath, hjson,
      hrotation, hsaved _ hlink rfl⟩, Or.inr ⟨s, hload, hdevice, rfl⟩⟩

end Spec

end Sealedge
