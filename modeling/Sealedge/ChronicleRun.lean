import Sealedge.ChronicleSound
import Sealedge.Rekey
import Sealedge.WrapValid

namespace Sealedge

open Fallible

/-- A chronicle on disk: its state file and the directories of its entries, oldest first. -/
structure ChronicleDisk where
  stateFile : Node
  dirs : List SealDir

section Runs

variable (x : Crates) (c : ContentCrates) (fig : Figures) (st : Storage) (statePath : String)

/-- A successful wrap into the chronicle of a state file, in a new directory. -/
structure WrapStep (disk : ChronicleDisk) (env : WrapEnv) (args : WrapCmd) (result : WrapResult) :
    Prop where
  ok : handleWrap x c fig st env args = .ok result
  stateFile : env.stateFile = disk.stateFile
  chronicle : args.chronicle = some statePath
  noPrevArchive : args.prevArchive = none
  noPrevHash : args.prevHash = none
  noPrevSeq : args.prevSeq = none
  fresh : env.output = .empty env.output.path
  distinct : env.output.path ∉ disk.dirs.map SealDir.path
  valid : validateArchive x st result.dir = .ok ()

structure RekeyStep (disk : ChronicleDisk) (env : RekeyEnv) (args : RekeyCmd)
    (result : RekeyResult) : Prop where
  ok : handleRekey x c st env args = .ok result
  stateFile : env.stateFile = disk.stateFile
  chronicle : args.chronicle = statePath
  distinct : args.out ∉ disk.dirs.map SealDir.path

/-- The runs of wraps and rekeys that start without a state file, with the signing key of the first
wrap and the number of rotations. -/
inductive ChronicleRun : Option String → ChronicleDisk → Nat → Prop
  | start : ChronicleRun none ⟨.absent, []⟩ 0
  | wrap {first : Option String} {disk : ChronicleDisk} {rotations : Nat} {env : WrapEnv}
      {args : WrapCmd} {result : WrapResult} {bundle : DeviceBundle}
      (run : ChronicleRun first disk rotations)
      (step : WrapStep x c fig st statePath disk env args result)
      (key : env.bundle = .ok bundle) :
      ChronicleRun (some (first.getD (bundle.signing.public x)))
        ⟨result.stateFile, disk.dirs ++ [result.dir]⟩ rotations
  | rekey {first : Option String} {disk : ChronicleDisk} {rotations : Nat} {env : RekeyEnv}
      {args : RekeyCmd} {result : RekeyResult} (run : ChronicleRun first disk rotations)
      (step : RekeyStep x c st statePath disk env args result) :
      ChronicleRun first ⟨result.stateFile, disk.dirs ++ [result.dir]⟩ (rotations + 1)

/-- Entries that verify from a genesis key, and a state that names the last of them and the
identity in force. -/
structure Recorded (genesis : String) (entries : List Entry) (s : ChronicleState) : Prop where
  sequences : ∀ (i : Nat) (e : Entry), entries[i]? = some e → e.seq = UInt64.ofNat i
  first : ∃ (e : Entry) (m : TrstManifest),
    entries[0]? = some e ∧ e.kind = .archive m ∧ e.prev = none
  links : ∀ (i : Nat) (a b : Entry), entries[i]? = some a → entries[i + 1]? = some b →
    b.prev = some (formatArchiveId a.digest)
  holds : ∀ (i : Nat) (e : Entry), entries[i]? = some e →
    EntryHolds x st ((Walk.start genesis).past (entries.take i)).activeSigner
      ((Walk.start genesis).past (entries.take i)).activeEpoch.toNat e
  head : ∃ last, entries.getLast? = some last ∧ s.sequence = last.seq ∧
    s.tip = formatArchiveId last.digest
  signer : s.devicePub = ((Walk.start genesis).past entries).activeSigner
  epoch : s.keyEpoch = ((Walk.start genesis).past entries).activeEpoch

/-- A state that names an entry as the last one, and the identity in force after it. -/
structure Names (w : Walk) (e : Entry) (s : ChronicleState) : Prop where
  sequence : s.sequence = e.seq
  tip : s.tip = formatArchiveId e.digest
  signer : s.devicePub = (w.advance e).activeSigner
  epoch : s.keyEpoch = (w.advance e).activeEpoch

end Runs

section Recording

variable {x : Crates} {c : ContentCrates} {fig : Figures} {st : Storage} {statePath : String}

theorem getElem?_snoc {α : Type} {items : List α} {a b : α} {i : Nat}
    (h : (items ++ [a])[i]? = some b) : items[i]? = some b ∨ i = items.length ∧ a = b := by
  by_cases hlt : i < items.length
  · rw [List.getElem?_append_left hlt] at h
    exact Or.inl h
  · have hlen := (List.getElem?_eq_some_iff.mp h).1
    rw [List.length_append, List.length_singleton] at hlen
    have hi : i = items.length := by omega
    rw [hi, List.getElem?_concat_length] at h
    exact Or.inr ⟨hi, Option.some.inj h⟩

theorem recorded_singleton {e : Entry} {m : TrstManifest} {s : ChronicleState} {genesis : String}
    (hkind : e.kind = .archive m) (hseq : e.seq = 0) (hprev : e.prev = none)
    (hholds : EntryHolds x st genesis 0 e) (hnames : Names (.start genesis) e s) :
    Recorded x st genesis [e] s := by
  have honly : ∀ {i : Nat} {e' : Entry}, [e][i]? = some e' → i = 0 ∧ e = e' := by
    intro i e' he'
    rcases getElem?_snoc (show ([] ++ [e])[i]? = some e' from he') with hnone | hlast
    · simp at hnone
    · exact hlast
  refine ⟨?_, ⟨e, m, rfl, hkind, hprev⟩, ?_, ?_, ⟨e, rfl, hnames.sequence, hnames.tip⟩,
    hnames.signer, hnames.epoch⟩
  · intro i e' he'
    obtain ⟨rfl, rfl⟩ := honly he'
    exact hseq
  · intro i a b _ hb
    have hi := (honly hb).1
    omega
  · intro i e' he'
    obtain ⟨rfl, rfl⟩ := honly he'
    exact hholds

theorem Recorded.snoc {genesis : String} {entries : List Entry} {s s' : ChronicleState} {e : Entry}
    (h : Recorded x st genesis entries s) (hseq : e.seq = s.sequence + 1)
    (hprev : e.prev = some s.tip) (hholds : EntryHolds x st s.devicePub s.keyEpoch.toNat e)
    (hnames : Names ((Walk.start genesis).past entries) e s') :
    Recorded x st genesis (entries ++ [e]) s' := by
  obtain ⟨last, hlast, hlastSeq, hlastTip⟩ := h.head
  have hne : entries ≠ [] := by
    intro hnil
    rw [hnil] at hlast
    cases hlast
  have hpos := List.length_pos_of_ne_nil hne
  have hlastAt : entries[entries.length - 1]? = some last := by
    rw [← List.getLast?_eq_getElem?]
    exact hlast
  have hearlier : ∀ {i : Nat}, i ≤ entries.length → (entries ++ [e]).take i = entries.take i :=
    fun hi => List.take_append_of_le_length hi
  refine ⟨?_, ?_, ?_, ?_, ⟨e, by simp, hnames.sequence, hnames.tip⟩, ?_, ?_⟩
  · intro i e' he'
    rcases getElem?_snoc he' with hold | ⟨rfl, rfl⟩
    · exact h.sequences i e' hold
    · have hlen : entries.length = entries.length - 1 + 1 := by omega
      rw [hseq, hlastSeq, h.sequences _ last hlastAt]
      nth_rewrite 2 [hlen]
      rw [UInt64.ofNat_add]
      rfl
  · obtain ⟨first, m, hfirst, hm, hnone⟩ := h.first
    exact ⟨first, m, by rw [List.getElem?_append_left hpos]; exact hfirst, hm, hnone⟩
  · intro i a b ha hb
    rcases getElem?_snoc hb with hold | ⟨hi, rfl⟩
    · have hlt := (List.getElem?_eq_some_iff.mp hold).1
      rw [List.getElem?_append_left (by omega)] at ha
      exact h.links i a b ha hold
    · have hi : i = entries.length - 1 := by omega
      rw [List.getElem?_append_left (by omega), hi, hlastAt] at ha
      rw [hprev, hlastTip, Option.some.inj ha]
  · intro i e' he'
    rcases getElem?_snoc he' with hold | ⟨rfl, rfl⟩
    · have hlt := (List.getElem?_eq_some_iff.mp hold).1
      rw [hearlier (by omega)]
      exact h.holds i e' hold
    · rw [hearlier (Nat.le_refl _), List.take_length, ← h.signer, ← h.epoch]
      exact hholds
  · rw [Walk.past_snoc]
    exact hnames.signer
  · rw [Walk.past_snoc]
    exact hnames.epoch

theorem Recorded.checkEntries {genesis : String} {entries : List Entry} {s : ChronicleState}
    (h : Recorded x st genesis entries s) :
    checkEntries x st genesis entries = .ok ((Walk.start genesis).past entries) := by
  have hcontiguity : checkContiguity 0 entries = .ok () := by
    apply checkContiguity_eq_ok.mpr
    intro j e he
    rw [Nat.zero_add]
    exact h.sequences j e he
  exact bind_eq_ok.mpr ⟨(), hcontiguity, bind_eq_ok.mpr ⟨(), checkGenesis_eq_ok.mpr h.first,
    bind_eq_ok.mpr ⟨(), checkLinks_eq_ok.mpr h.links, walkEntries_eq_ok.mpr ⟨h.holds, rfl⟩⟩⟩⟩

/-- With at most `2 ^ 64` entries the sequences do not wrap around, so the entries are sorted and
have different sequences. -/
theorem Recorded.seq_toNat {genesis : String} {entries : List Entry} {s : ChronicleState}
    (h : Recorded x st genesis entries s) (hlen : entries.length ≤ 2 ^ 64) {i : Nat} {e : Entry}
    (he : entries[i]? = some e) : e.seq.toNat = i := by
  have hlt := (List.getElem?_eq_some_iff.mp he).1
  rw [h.sequences i e he, UInt64.toNat_ofNat']
  exact Nat.mod_eq_of_lt (by omega)

theorem Recorded.pairwise {genesis : String} {entries : List Entry} {s : ChronicleState}
    (h : Recorded x st genesis entries s) (hlen : entries.length ≤ 2 ^ 64) :
    entries.Pairwise (fun a b => a.seq ≤ b.seq) := by
  apply List.pairwise_iff_getElem.mpr
  intro i j hi hj hij
  rw [UInt64.le_iff_toNat_le, h.seq_toNat hlen (List.getElem?_eq_getElem hi),
    h.seq_toNat hlen (List.getElem?_eq_getElem hj)]
  omega

theorem Recorded.seq_inj {genesis : String} {entries : List Entry} {s : ChronicleState}
    (h : Recorded x st genesis entries s) (hlen : entries.length ≤ 2 ^ 64) :
    ∀ a ∈ entries, ∀ b ∈ entries, a.seq = b.seq → a = b := by
  intro a ha b hb hab
  obtain ⟨i, hi⟩ := List.mem_iff_getElem?.mp ha
  obtain ⟨j, hj⟩ := List.mem_iff_getElem?.mp hb
  have hij : i = j := by
    rw [← h.seq_toNat hlen hi, ← h.seq_toNat hlen hj, hab]
  rw [hij, hj] at hi
  exact (Option.some.inj hi).symm

/-- The entry that a wrap has written loads, and it holds for the key and epoch it was made
with. -/
theorem wrapped_entry (hx : x.SignsLawfully) (hst : st.Lossless) {env : WrapEnv}
    {result : WrapResult} {bundle : DeviceBundle} {link : ChronicleLink} {m : TrstManifest}
    (h : WrappedInto x st env result bundle link m) (hvalid : validateArchive x st result.dir = .ok ()) :
    loadEntry x st result.dir =
        .ok ⟨link.sequence, m.archiveDigest x, link.prev, result.dir, .archive m⟩ ∧
      EntryHolds x st (bundle.signing.public x) link.keyEpoch.toNat
        ⟨link.sequence, m.archiveDigest x, link.prev, result.dir, .archive m⟩ := by
  obtain ⟨m', sig, files, harchive⟩ := validateArchive_eq_ok.mp hvalid
  have hsame : m' = m := by
    obtain ⟨bytes, hread⟩ := readManifest_eq_ok.mp harchive.read
    have hparsed := hread.parsed
    rw [← Node.file.inj (h.json.symm.trans hread.json)] at hparsed
    exact hst.manifest m m' hparsed
  have hread := harchive.read
  rw [hsame] at hread
  constructor
  · unfold loadEntry
    rw [if_neg (by rw [h.noRotation]; simp [Node.isFile])]
    refine loadArchive_eq_ok.mpr
      ⟨m, sig, link.sequence, hread, h.manifest.version, h.manifest.sequence, ?_⟩
    rw [h.manifest.prev]
  · refine ⟨h.manifest.publicKey, congrArg UInt32.toNat h.manifest.epoch, ⟨_, h.manifest.signature, ?_⟩,
      hvalid⟩
    exact verifyManifest_signManifest hx bundle.signing _

/-- The entry that a rekey has written loads, and it holds for the key and epoch of the state. -/
theorem rekeyed_entry (hx : x.SignsLawfully) (hst : st.Lossless) {env : RekeyEnv} {args : RekeyCmd}
    {result : RekeyResult} {s : ChronicleState} {old new : DeviceBundle} {record : RotationRecord}
    (h : Rekeyed x c st env args result s old new record) (hepoch : s.keyEpoch.toNat + 1 < 2 ^ 32) :
    loadEntry x st result.dir =
        .ok ⟨s.sequence + 1, record.archiveDigest x, some s.tip, result.dir, .rotation record⟩ ∧
      EntryHolds x st s.devicePub s.keyEpoch.toNat
        ⟨s.sequence + 1, record.archiveDigest x, some s.tip, result.dir, .rotation record⟩ := by
  have hread : readRotation st result.dir = .ok record := by
    rw [h.dir]
    exact bind_eq_ok.mpr ⟨_, rfl, mapError_eq_ok.mpr (hst.rotation record)⟩
  have hcosigned : record.Cosigned x := by
    rw [h.handsOver]
    exact RotationRecord.createSigned_cosigned hx hepoch _ _ _ _
  have hfields : record.trstVersion = "0.2.0" ∧ record.sequence = s.sequence + 1 ∧
      record.prevArchiveHash = s.tip ∧ record.old.publicKey = s.devicePub ∧
      record.old.keyEpoch = s.keyEpoch := by
    rw [h.handsOver]
    exact ⟨rfl, rfl, rfl, h.active, rfl⟩
  obtain ⟨hversion, hseq, hprev, hold, holdEpoch⟩ := hfields
  constructor
  · unfold loadEntry
    rw [if_pos (by rw [h.dir]; rfl)]
    refine loadRotation_eq_ok.mpr ⟨record, hread, hversion, ?_⟩
    rw [hseq, hprev]
  · exact ⟨hold, congrArg UInt32.toNat holdEpoch, hcosigned⟩

end Recording

section Completeness

variable {x : Crates} {c : ContentCrates} {fig : Figures} {st : Storage} {statePath : String}

/-- What a run that has begun has left on disk. -/
structure OnDisk (x : Crates) (st : Storage) (genesis : String) (disk : ChronicleDisk)
    (rotations : Nat) (entries : List Entry) (s : ChronicleState) : Prop where
  stateFile : disk.stateFile = .file (intoBytes (st.printState s))
  loads : List.Forall₂ (fun dir e => loadEntry x st dir = .ok e) disk.dirs entries
  areEntries : ∀ dir ∈ disk.dirs, isChronicleEntryDir dir = true
  recorded : Recorded x st genesis entries s
  rotations : s.keyEpoch.toNat = rotations

theorem ChronicleState.load_file (hst : st.Lossless) {node : Node} {s s' : ChronicleState}
    (hnode : node = .file (intoBytes (st.printState s)))
    (h : ChronicleState.load st node = .ok s') : s' = s := by
  rw [hnode] at h
  obtain ⟨bytes, hbytes, h⟩ := bind_eq_ok.mp h
  have h := mapError_eq_ok.mp h
  rw [← Except.ok.inj hbytes, hst.state s] at h
  exact (Except.ok.inj h).symm

theorem OnDisk.wrap (hx : x.SignsLawfully) (hst : st.Lossless) {genesis : String}
    {disk : ChronicleDisk} {rotations : Nat} {entries : List Entry} {s : ChronicleState}
    (h : OnDisk x st genesis disk rotations entries s) {env : WrapEnv} {args : WrapCmd}
    {result : WrapResult} (step : WrapStep x c fig st statePath disk env args result) :
    ∃ entries' s', OnDisk x st genesis ⟨result.stateFile, disk.dirs ++ [result.dir]⟩ rotations
      entries' s' := by
  obtain ⟨bundle, link, m, hinto, hlink⟩ := handleWrap_eq_ok step.noPrevArchive step.noPrevHash
    step.noPrevSeq step.chronicle step.fresh step.ok
  obtain ⟨hload, hholds⟩ := wrapped_entry hx hst hinto step.valid
  rcases hlink with ⟨habsent, -⟩ | ⟨s₀, hs₀, hdevice, rfl⟩
  · rw [step.stateFile, h.stateFile] at habsent
    cases habsent
  · rw [step.stateFile] at hs₀
    have hsame := ChronicleState.load_file hst h.stateFile hs₀
    subst hsame
    refine ⟨entries ++ [_], _, hinto.stateFile, List.rel_append h.loads (.cons hload .nil), ?_,
      h.recorded.snoc rfl rfl ?_ ⟨rfl, rfl, ?_, ?_⟩, h.rotations⟩
    · intro dir hdir
      rcases List.mem_append.mp hdir with hold | hnew
      · exact h.areEntries dir hold
      · rw [List.mem_singleton.mp hnew, isChronicleEntryDir, hinto.json]
        rfl
    · rw [hdevice]
      exact hholds
    · exact hdevice.symm.trans h.recorded.signer
    · exact h.recorded.epoch

theorem OnDisk.rekey (hx : x.SignsLawfully) (hst : st.Lossless) {genesis : String}
    {disk : ChronicleDisk} {rotations : Nat} {entries : List Entry} {s : ChronicleState}
    (h : OnDisk x st genesis disk rotations entries s) (hrotations : rotations + 1 < 2 ^ 32)
    {env : RekeyEnv} {args : RekeyCmd} {result : RekeyResult}
    (step : RekeyStep x c st statePath disk env args result) :
    ∃ entries' s', OnDisk x st genesis ⟨result.stateFile, disk.dirs ++ [result.dir]⟩
      (rotations + 1) entries' s' := by
  obtain ⟨s₀, old, new, record, hrekeyed⟩ := handleRekey_eq_ok step.ok
  have hs₀ := hrekeyed.loaded
  rw [step.stateFile] at hs₀
  have hsame := ChronicleState.load_file hst h.stateFile hs₀
  subst hsame
  have hbound : s₀.keyEpoch.toNat + 1 < 2 ^ 32 := by
    rw [h.rotations]
    exact hrotations
  obtain ⟨hload, hholds⟩ := rekeyed_entry hx hst hrekeyed hbound
  have hnew : record.new.publicKey = new.signing.public x ∧ record.new.keyEpoch = s₀.keyEpoch + 1 := by
    rw [hrekeyed.handsOver]
    exact ⟨rfl, rfl⟩
  refine ⟨entries ++ [_], _, hrekeyed.stateFile, List.rel_append h.loads (.cons hload .nil), ?_,
    h.recorded.snoc rfl rfl hholds ⟨rfl, rfl, hnew.1.symm, rfl⟩, ?_⟩
  · intro dir hdir
    rcases List.mem_append.mp hdir with hold | hlast
    · exact h.areEntries dir hold
    · rw [List.mem_singleton.mp hlast, hrekeyed.dir]
      rfl
  · show record.new.keyEpoch.toNat = rotations + 1
    rw [hnew.2, UInt32.toNat_add, ← h.rotations]
    exact Nat.mod_eq_of_lt hbound

theorem onDisk_first (hx : x.SignsLawfully) (hst : st.Lossless) {env : WrapEnv} {args : WrapCmd}
    {result : WrapResult} {bundle : DeviceBundle} (hbundle : env.bundle = .ok bundle)
    (step : WrapStep x c fig st statePath ⟨.absent, []⟩ env args result) :
    ∃ entries s, OnDisk x st (bundle.signing.public x) ⟨result.stateFile, [result.dir]⟩ 0
      entries s := by
  obtain ⟨bundle', link, m, hinto, hlink⟩ := handleWrap_eq_ok step.noPrevArchive step.noPrevHash
    step.noPrevSeq step.chronicle step.fresh step.ok
  obtain ⟨hload, hholds⟩ := wrapped_entry hx hst hinto step.valid
  have hsame : bundle' = bundle := Except.ok.inj (hinto.loaded.symm.trans hbundle)
  subst hsame
  rcases hlink with ⟨-, rfl⟩ | ⟨s, hs, -⟩
  · refine ⟨[_], _, hinto.stateFile, .cons hload .nil, ?_,
      recorded_singleton rfl rfl rfl hholds ⟨rfl, rfl, rfl, rfl⟩, rfl⟩
    intro dir hdir
    rw [List.mem_singleton.mp hdir, isChronicleEntryDir, hinto.json]
    rfl
  · rw [step.stateFile] at hs
    cases hs

/-- A run has either not begun, or its disk holds a record of its first key. -/
theorem chronicleRun_onDisk (hx : x.SignsLawfully) (hst : st.Lossless) {first : Option String}
    {disk : ChronicleDisk} {rotations : Nat}
    (run : ChronicleRun x c fig st statePath first disk rotations) (hrotations : rotations < 2 ^ 32) :
    (first = none ∧ disk = ⟨.absent, []⟩ ∧ rotations = 0) ∨
      ∃ genesis entries s, first = some genesis ∧ OnDisk x st genesis disk rotations entries s := by
  induction run with
  | start => exact Or.inl ⟨rfl, rfl, rfl⟩
  | wrap run step key ih =>
    right
    rcases ih hrotations with ⟨rfl, rfl, rfl⟩ | ⟨genesis, entries, s, rfl, h⟩
    · obtain ⟨entries, s, h⟩ := onDisk_first hx hst key step
      exact ⟨_, entries, s, rfl, h⟩
    · obtain ⟨entries', s', h'⟩ := h.wrap hx hst step
      exact ⟨genesis, entries', s', rfl, h'⟩
  | rekey run step ih =>
    right
    rcases ih (by omega) with ⟨rfl, rfl, -⟩ | ⟨genesis, entries, s, rfl, h⟩
    · obtain ⟨s, old, new, record, hrekeyed⟩ := handleRekey_eq_ok step.ok
      have hloaded := hrekeyed.loaded
      rw [step.stateFile] at hloaded
      cases hloaded
    · obtain ⟨entries', s', h'⟩ := h.rekey hx hst hrotations step
      exact ⟨genesis, entries', s', rfl, h'⟩

theorem chronicleRun_first_key {first : Option String} {disk : ChronicleDisk} {rotations : Nat}
    (run : ChronicleRun x c fig st statePath first disk rotations) {genesis : String}
    (hfirst : first = some genesis) : ∃ k : DeviceKeypair, genesis = k.public x := by
  induction run with
  | start => cases hfirst
  | @wrap first _ _ _ _ _ bundle _ _ _ ih =>
    cases first with
    | none => exact ⟨bundle.signing, (Option.some.inj hfirst).symm⟩
    | some key => exact ih hfirst
  | rekey _ _ ih => exact ih hfirst

theorem OnDisk.sortedEntries {genesis : String} {disk : ChronicleDisk} {rotations : Nat}
    {entries : List Entry} {s : ChronicleState} (h : OnDisk x st genesis disk rotations entries s)
    (hcount : disk.dirs.length ≤ 2 ^ 64) {order : List SealDir} (horder : order.Perm disk.dirs)
    (children : SealDir → Except IoError (List (Option SealDir))) :
    sortedEntries x st (order.map (fun dir => .directory dir (children dir))) = .ok entries := by
  have hlen : entries.length ≤ 2 ^ 64 := by
    rw [← h.loads.length_eq]
    exact hcount
  have hne : disk.dirs.isEmpty = false := by
    obtain ⟨last, hlast, -⟩ := h.recorded.head
    rw [List.isEmpty_eq_false_iff]
    intro hnil
    have hloads := h.loads
    rw [hnil, List.forall₂_nil_left_iff] at hloads
    rw [hloads] at hlast
    cases hlast
  have hsorted : sortEntries entries = entries := (h.recorded.pairwise hlen).insertionSort_eq
  refine sortedEntries_perm (horder.map _) ?_ (h.recorded.seq_inj hlen)
  refine bind_eq_ok.mpr ⟨disk.dirs, collectArchiveDirs_entries h.areEntries children,
    bind_eq_ok.mpr ⟨(), failWhen_eq_ok.mpr hne, bind_eq_ok.mpr ⟨entries, mapM_eq_ok.mpr h.loads, ?_⟩⟩⟩
  rw [hsorted]
  rfl

/-- The chronicle that a run of wraps and rekeys has written verifies from the key of its first
wrap, in whatever order its directories are given, and the report is what the state file says. -/
theorem verifyChronicle_complete (hx : x.SignsLawfully) (hst : st.Lossless) {genesis : String}
    {disk : ChronicleDisk} {rotations : Nat}
    (run : ChronicleRun x c fig st statePath (some genesis) disk rotations)
    (hrotations : rotations < 2 ^ 32) (hcount : disk.dirs.length ≤ 2 ^ 64)
    {order : List SealDir} (horder : order.Perm disk.dirs)
    (children : SealDir → Except IoError (List (Option SealDir))) (web : WebCodec)
    (jwks : Option JwksSource) :
    ∃ s report, ChronicleState.load st disk.stateFile = .ok s ∧
      handleVerifyChronicle x st web
        ⟨order.map (fun dir => .directory dir (children dir)), genesis, none, jwks⟩ = .ok report ∧
      report.tip = s.tip ∧ report.tipSequence = s.sequence ∧
      report.currentIdentity = s.devicePub ∧ report.currentEpoch = s.keyEpoch := by
  rcases chronicleRun_onDisk hx hst run hrotations with ⟨hnone, -⟩ | ⟨genesis', entries, s, hsame, h⟩
  · cases hnone
  · cases hsame
    obtain ⟨k, hk⟩ := chronicleRun_first_key run rfl
    obtain ⟨last, hlast, hseq, htip⟩ := h.recorded.head
    have hload : ChronicleState.load st disk.stateFile = .ok s := by
      rw [h.stateFile]
      exact bind_eq_ok.mpr ⟨_, rfl, mapError_eq_ok.mpr (hst.state s)⟩
    have haccepts : Accepts x st web
        ⟨order.map (fun dir => .directory dir (children dir)), genesis, none, jwks⟩ entries last
        ((Walk.start genesis).past entries) none := by
      refine ⟨h.sortedEntries hcount horder children, ?_, hlast, rfl⟩
      rw [VerifyChronicleCmd.genesisKey_public hk, ← hk]
      exact h.recorded.checkEntries
    exact ⟨s, _, hload, handleVerifyChronicle_eq_ok.mpr ⟨entries, last, _, none, haccepts, rfl⟩,
      htip.symm, hseq.symm, h.recorded.signer.symm, h.recorded.epoch.symm⟩

end Completeness

section Sample

variable {x : Crates} (fig : Figures) (k k' : DeviceKeypair)

def sampleRekeyCmd : RekeyCmd := ⟨"device.chronicle", "device.key", "next.key", "rotation.seal"⟩

def sampleRekeyEnv (stateFile : Node) : RekeyEnv where
  stateFile := stateFile
  oldBundle := .ok (sampleBundle k)
  newBundle := .ok (sampleBundle k')
  outExists := false
  rotatedAt := "2026-01-02T00:00:00Z"
  updatedAt := "2026-01-02T00:00:00Z"
  faults _ := none

theorem sample_rekey {st : Storage} (hst : st.Lossless) (hne : k'.public x ≠ k.public x)
    {s : ChronicleState} (hs : s.devicePub = k.public x) :
    ∃ result, handleRekey x sampleContent st
      (sampleRekeyEnv k k' (.file (intoBytes (st.printState s)))) sampleRekeyCmd = .ok result := by
  have hload : ChronicleState.load st (.file (intoBytes (st.printState s))) = .ok s :=
    bind_eq_ok.mpr ⟨_, rfl, mapError_eq_ok.mpr (hst.state s)⟩
  refine ⟨_, bind_eq_ok.mpr ⟨(), rfl, bind_eq_ok.mpr ⟨s, mapError_eq_ok.mpr hload, bind_eq_ok.mpr
    ⟨sampleBundle k, rfl, bind_eq_ok.mpr ⟨sampleBundle k', rfl, bind_eq_ok.mpr
    ⟨(), failWhen_eq_ok.mpr ?_, bind_eq_ok.mpr ⟨(), failWhen_eq_ok.mpr ?_, rfl⟩⟩⟩⟩⟩⟩⟩
  · simp [hs, sampleBundle]
  · simpa [sampleBundle] using hne

theorem sample_run (hx : x.SignsLawfully) (hshort : x.SignsShort) (hne : k'.public x ≠ k.public x) :
    ∃ m disk, disk.dirs.length = 2 ∧
      ChronicleRun x sampleContent fig (runStorage m) "device.chronicle" (some (k.public x)) disk 1 := by
  obtain ⟨a, result, -, hwrap, -, hvalid⟩ := sample_wrap hx.base64 hx.publicLength fig k hshort
  have hst := runStorage_lossless a.manifest
  have hstep : WrapStep x sampleContent fig (runStorage a.manifest) "device.chronicle" ⟨.absent, []⟩
      (sampleWrapEnv k) sampleWrapCmd result :=
    ⟨hwrap, rfl, rfl, rfl, rfl, rfl, rfl, by simp, hvalid⟩
  obtain ⟨entries, s, hdisk⟩ := onDisk_first hx hst rfl hstep
  obtain ⟨bundle, link, m, hinto, -⟩ := handleWrap_eq_ok rfl rfl rfl rfl rfl hwrap
  have hs : s.devicePub = k.public x := by
    have hbundle : bundle = sampleBundle k := (Except.ok.inj hinto.loaded).symm
    have hnode := Node.file.inj (hdisk.stateFile.symm.trans hinto.stateFile)
    rw [stateText_injective (intoBytes_injective hnode), hbundle]
    rfl
  obtain ⟨rekeyed, hrekey⟩ := sample_rekey k k' hst hne hs
  refine ⟨a.manifest, ⟨rekeyed.stateFile, [result.dir] ++ [rekeyed.dir]⟩, rfl,
    .rekey (.wrap .start hstep rfl) ⟨hrekey, hdisk.stateFile.symm, rfl, ?_⟩⟩
  have hpath : result.dir.path = "day0.seal" := hinto.path
  simp [sampleRekeyCmd, hpath]

end Sample

theorem sampleKey_public_ne : (sampleKey 2).public sampleCrates ≠ (sampleKey 1).public sampleCrates := by
  intro h
  have hencoded := (String.append_right_inj "ed25519:").mp h
  have hdecoded := congrArg sampleCrates.base64Decode hencoded
  rw [sampleCrates_signsLawfully.base64, sampleCrates_signsLawfully.base64] at hdecoded
  exact absurd (Except.ok.inj hdecoded) (by decide)

theorem verifyChronicle_complete_sample :
    ∃ (m : TrstManifest) (disk : ChronicleDisk) (s : ChronicleState) (report : ChronicleReport),
      disk.dirs.length = 2 ∧ ChronicleState.load (runStorage m) disk.stateFile = .ok s ∧
      handleVerifyChronicle sampleCrates (runStorage m) mute
        ⟨disk.dirs.reverse.map (fun dir => .directory dir (.ok [])),
          (sampleKey 1).public sampleCrates, none, none⟩ = .ok report ∧
      report.tip = s.tip ∧ report.tipSequence = s.sequence ∧
      report.currentIdentity = s.devicePub ∧ report.currentEpoch = s.keyEpoch := by
  obtain ⟨m, disk, hlen, hrun⟩ := sample_run sampleFigures (sampleKey 1) (sampleKey 2)
    sampleCrates_signsLawfully sampleCrates_signsShort sampleKey_public_ne
  obtain ⟨s, report, hreport⟩ := verifyChronicle_complete sampleCrates_signsLawfully
    (runStorage_lossless m) hrun (by decide) (by omega) (List.reverse_perm disk.dirs)
    (fun _ => .ok []) mute none
  exact ⟨m, disk, s, report, hlen, hreport⟩

end Sealedge
