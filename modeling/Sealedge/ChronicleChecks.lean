import Sealedge.VerifyChronicle

namespace Sealedge

open Fallible

namespace EntryKind

/-- The bytes that the signatures of an entry cover and its digest is the hash of. -/
def canonicalBytes (x : TextCodec) : EntryKind → Bytes
  | archive m => m.toCanonicalBytes x
  | rotation r => r.signingBytes x

def sequence : EntryKind → Option UInt64
  | archive m => m.sequence
  | rotation r => some r.sequence

def prevArchiveHash : EntryKind → Option String
  | archive m => m.prevArchiveHash
  | rotation r => some r.prevArchiveHash

def isRotation : EntryKind → Bool
  | archive _ => false
  | rotation _ => true

end EntryKind

/-- The fields of an entry are those of the document in its directory. -/
structure Entry.ReadFrom (x : Crates) (st : Storage) (e : Entry) : Prop where
  load : loadEntry x st e.dir = .ok e
  seq : e.kind.sequence = some e.seq
  prev : e.prev = e.kind.prevArchiveHash
  digest : e.digest = x.blake3 (e.kind.canonicalBytes x.text)

theorem requireSupportedVersion_eq_ok {version : String} :
    requireSupportedVersion version = .ok () ↔ version = "0.2.0" := by
  unfold requireSupportedVersion
  by_cases h : version = "0.2.0"
  · simp [h]
  · rw [if_neg h]
    constructor
    · intro herr
      split at herr
      · cases herr
      · cases herr
    · intro he
      exact absurd he h

theorem loadRotation_eq_ok {x : Crates} {st : Storage} {dir : SealDir} {e : Entry} :
    loadRotation x st dir = .ok e ↔
      ∃ r, readRotation st dir = .ok r ∧ r.trstVersion = "0.2.0" ∧
        e = ⟨r.sequence, r.archiveDigest x, some r.prevArchiveHash, dir, .rotation r⟩ := by
  unfold loadRotation
  rw [bind_eq_ok]
  constructor
  · rintro ⟨r, hread, h⟩
    obtain ⟨_, hversion, h⟩ := bind_eq_ok.mp h
    refine ⟨r, mapError_eq_ok.mp hread,
      requireSupportedVersion_eq_ok.mp (mapError_eq_ok.mp hversion), ?_⟩
    cases h
    rfl
  · rintro ⟨r, hread, hversion, rfl⟩
    exact ⟨r, mapError_eq_ok.mpr hread, bind_eq_ok.mpr
      ⟨(), mapError_eq_ok.mpr (requireSupportedVersion_eq_ok.mpr hversion), rfl⟩⟩

theorem loadArchive_eq_ok {x : Crates} {st : Storage} {dir : SealDir} {e : Entry} :
    loadArchive x st dir = .ok e ↔
      ∃ m sig seq, readManifest st dir = .ok (m, sig) ∧ m.trstVersion = "0.2.0" ∧
        m.sequence = some seq ∧
        e = ⟨seq, m.archiveDigest x, m.prevArchiveHash, dir, .archive m⟩ := by
  unfold loadArchive
  rw [bind_eq_ok]
  constructor
  · rintro ⟨⟨m, sig⟩, hread, h⟩
    obtain ⟨_, hversion, h⟩ := bind_eq_ok.mp h
    cases hseq : m.sequence with
    | none =>
      simp only [hseq] at h
      cases h
    | some seq =>
      simp only [hseq] at h
      refine ⟨m, sig, seq, mapError_eq_ok.mp hread,
        requireSupportedVersion_eq_ok.mp (mapError_eq_ok.mp hversion), hseq, ?_⟩
      cases h
      rfl
  · rintro ⟨m, sig, seq, hread, hversion, hseq, rfl⟩
    refine ⟨(m, sig), mapError_eq_ok.mpr hread, bind_eq_ok.mpr
      ⟨(), mapError_eq_ok.mpr (requireSupportedVersion_eq_ok.mpr hversion), ?_⟩⟩
    simp only [hseq]
    rfl

theorem loadEntry_readFrom {x : Crates} {st : Storage} {dir : SealDir} {e : Entry}
    (h : loadEntry x st dir = .ok e) : e.dir = dir ∧ e.ReadFrom x st := by
  have hload := h
  unfold loadEntry at h
  split at h
  · obtain ⟨r, -, -, rfl⟩ := loadRotation_eq_ok.mp h
    exact ⟨rfl, hload, rfl, rfl, rfl⟩
  · obtain ⟨m, sig, seq, -, -, hseq, rfl⟩ := loadArchive_eq_ok.mp h
    exact ⟨rfl, hload, hseq, rfl, rfl⟩

theorem collectArchiveDirs_perm {paths paths' : List PathArg} {dirs : List SealDir}
    (hp : paths'.Perm paths) (h : collectArchiveDirs paths = .ok dirs) :
    ∃ dirs', collectArchiveDirs paths' = .ok dirs' ∧ dirs'.Perm dirs := by
  obtain ⟨expanded, hexpanded, h⟩ := bind_eq_ok.mp h
  cases h
  obtain ⟨expanded', hexpanded', hperm⟩ := mapM_perm hp hexpanded
  exact ⟨expanded'.flatten, bind_eq_ok.mpr ⟨expanded', hexpanded', rfl⟩, hperm.flatten⟩

theorem loadEntries_readFrom {x : Crates} {st : Storage} {dirs : List SealDir}
    {entries : List Entry} (h : loadEntries x st dirs = .ok entries) :
    entries.map Entry.dir = dirs ∧ ∀ e ∈ entries, e.ReadFrom x st := by
  have hall := mapM_eq_ok.mp h
  clear h
  induction hall with
  | nil => simp
  | cons hload _ ih =>
    obtain ⟨hdir, hread⟩ := loadEntry_readFrom hload
    obtain ⟨hdirs, hreads⟩ := ih
    refine ⟨by rw [List.map_cons, hdir, hdirs], ?_⟩
    intro e he
    rcases List.mem_cons.mp he with rfl | he
    · exact hread
    · exact hreads e he

/-- What the sorted entries of some paths are. -/
structure SortedFrom (x : Crates) (st : Storage) (paths : List PathArg) (dirs : List SealDir)
    (entries : List Entry) : Prop where
  collected : collectArchiveDirs paths = .ok dirs
  nonempty : dirs ≠ []
  dirs_perm : (entries.map Entry.dir).Perm dirs
  sorted : entries.Pairwise (fun a b => a.seq ≤ b.seq)
  readFrom : ∀ e ∈ entries, e.ReadFrom x st

theorem sortEntries_perm (entries : List Entry) : (sortEntries entries).Perm entries :=
  List.perm_insertionSort _ entries

theorem sortEntries_pairwise (entries : List Entry) :
    (sortEntries entries).Pairwise (fun a b => a.seq ≤ b.seq) := by
  have total : Std.Total (fun a b : Entry => a.seq ≤ b.seq) :=
    ⟨fun a b => UInt64.le_total a.seq b.seq⟩
  have trans : IsTrans Entry (fun a b => a.seq ≤ b.seq) :=
    ⟨fun a b c hab hbc => UInt64.le_trans hab hbc⟩
  exact List.pairwise_insertionSort _ entries

theorem sortedEntries_sortedFrom {x : Crates} {st : Storage} {paths : List PathArg}
    {entries : List Entry} (h : sortedEntries x st paths = .ok entries) :
    ∃ dirs, SortedFrom x st paths dirs entries := by
  unfold sortedEntries at h
  obtain ⟨dirs, hcollect, h⟩ := bind_eq_ok.mp h
  obtain ⟨_, hne, h⟩ := bind_eq_ok.mp h
  obtain ⟨loaded, hload, h⟩ := bind_eq_ok.mp h
  cases h
  have hne := failWhen_eq_ok.mp hne
  obtain ⟨hdirs, hread⟩ := loadEntries_readFrom hload
  have hperm := sortEntries_perm loaded
  refine ⟨dirs, hcollect, by simpa using hne, ?_, sortEntries_pairwise loaded, ?_⟩
  · rw [← hdirs]
    exact hperm.map Entry.dir
  · intro e he
    exact hread e (hperm.mem_iff.mp he)

/-- Entries of different sequences are sorted the same way whatever the order of the paths. -/
theorem sortedEntries_perm {x : Crates} {st : Storage} {paths paths' : List PathArg}
    {entries : List Entry} (hp : paths'.Perm paths) (h : sortedEntries x st paths = .ok entries)
    (hinj : ∀ a ∈ entries, ∀ b ∈ entries, a.seq = b.seq → a = b) :
    sortedEntries x st paths' = .ok entries := by
  unfold sortedEntries at h
  obtain ⟨dirs, hcollect, h⟩ := bind_eq_ok.mp h
  obtain ⟨_, hne, h⟩ := bind_eq_ok.mp h
  obtain ⟨loaded, hload, h⟩ := bind_eq_ok.mp h
  cases h
  obtain ⟨dirs', hcollect', hdirs⟩ := collectArchiveDirs_perm hp hcollect
  obtain ⟨loaded', hload', hloaded⟩ := mapM_perm hdirs hload
  have hne' : dirs'.isEmpty = false := by
    have hne := failWhen_eq_ok.mp hne
    rw [List.isEmpty_eq_false_iff] at hne ⊢
    intro hnil
    rw [hnil] at hdirs
    exact hne hdirs.symm.eq_nil
  have hperm : (sortEntries loaded').Perm (sortEntries loaded) :=
    ((sortEntries_perm loaded').trans hloaded).trans (sortEntries_perm loaded).symm
  have hsame : sortEntries loaded' = sortEntries loaded := by
    refine List.Perm.eq_of_pairwise ?_ (sortEntries_pairwise loaded') (sortEntries_pairwise loaded)
      hperm
    intro a b ha hb hab hba
    exact hinj a (hperm.mem_iff.mp ha) b hb (UInt64.le_antisymm hab hba)
  refine bind_eq_ok.mpr ⟨dirs', hcollect', bind_eq_ok.mpr ⟨(), failWhen_eq_ok.mpr hne',
    bind_eq_ok.mpr ⟨loaded', hload', ?_⟩⟩⟩
  rw [hsame]
  rfl

theorem collectArchiveDirs_entries {dirs : List SealDir}
    (h : ∀ dir ∈ dirs, isChronicleEntryDir dir = true)
    (children : SealDir → Except IoError (List (Option SealDir))) :
    collectArchiveDirs (dirs.map (fun dir => .directory dir (children dir))) = .ok dirs := by
  have hexpand : (dirs.map (fun dir => PathArg.directory dir (children dir))).mapM expandPath =
      .ok (dirs.map (fun dir => [dir])) := by
    refine mapM_eq_ok.mpr (List.forall₂_map_left_iff.mpr (List.forall₂_map_right_iff.mpr ?_))
    refine List.forall₂_same.mpr ?_
    intro dir hdir
    simp [expandPath, h dir hdir]
  refine bind_eq_ok.mpr ⟨_, hexpand, ?_⟩
  rw [← List.flatMap_def, List.flatMap_singleton']
  rfl

theorem VerifyChronicleCmd.genesisKey_public {x : Crates} {args : VerifyChronicleCmd}
    {k : DeviceKeypair} (h : args.devicePub = k.public x) : args.genesisKey = k.public x := by
  have hbegins : Texts.startsWith args.devicePub "ed25519:" = true := by
    rw [h]
    exact Texts.startsWith_iff.mpr ⟨_, rfl⟩
  unfold VerifyChronicleCmd.genesisKey
  rw [if_pos (by rw [hbegins]; rfl)]
  exact h

theorem checkContiguity_eq_ok {i : Nat} {entries : List Entry} :
    checkContiguity i entries = .ok () ↔
      ∀ j e, entries[j]? = some e → e.seq = UInt64.ofNat (i + j) := by
  induction entries generalizing i with
  | nil => simp [checkContiguity]
  | cons e rest ih =>
    unfold checkContiguity
    by_cases hseq : e.seq = UInt64.ofNat i
    · rw [if_neg (by simp [hseq]), ih]
      constructor
      · intro h j e' he'
        cases j with
        | zero =>
          cases Option.some.inj he'
          exact hseq
        | succ j =>
          have hj : i + (j + 1) = i + 1 + j := by omega
          rw [hj]
          exact h j e' he'
      · intro h j e' he'
        have hj : i + 1 + j = i + (j + 1) := by omega
        rw [hj]
        exact h (j + 1) e' he'
    · rw [if_pos (by simpa using hseq)]
      constructor
      · intro herr
        cases herr
      · intro h
        exact absurd (h 0 e rfl) hseq

/-- Sorted entries with the sequences 0, 1, 2 and so on as machine numbers have them as numbers: a
sequence that wrapped around would stand before its predecessor. -/
theorem seq_toNat_of_contiguous {entries : List Entry}
    (hsorted : entries.Pairwise (fun a b => a.seq ≤ b.seq))
    (hseq : ∀ i e, entries[i]? = some e → e.seq = UInt64.ofNat i) {i : Nat} {e : Entry}
    (he : entries[i]? = some e) : e.seq.toNat = i := by
  rw [hseq i e he, UInt64.toNat_ofNat']
  apply Nat.mod_eq_of_lt
  by_contra hbig
  obtain ⟨hi, -⟩ := List.getElem?_eq_some_iff.mp he
  have hlow : 2 ^ 64 - 1 < entries.length := by omega
  have hhigh : 2 ^ 64 < entries.length := by omega
  have hle := List.pairwise_iff_getElem.mp hsorted (2 ^ 64 - 1) (2 ^ 64) hlow hhigh (by omega)
  rw [hseq _ _ (List.getElem?_eq_getElem hlow), hseq _ _ (List.getElem?_eq_getElem hhigh),
    UInt64.le_iff_toNat_le, UInt64.toNat_ofNat', UInt64.toNat_ofNat'] at hle
  omega

theorem checkGenesis_eq_ok {entries : List Entry} :
    checkGenesis entries = .ok () ↔
      ∃ e m, entries[0]? = some e ∧ e.kind = .archive m ∧ e.prev = none := by
  cases entries with
  | nil => simp [checkGenesis]
  | cons e rest =>
    have hhead : ∀ e', (e :: rest)[0]? = some e' ↔ e = e' := by simp
    simp only [checkGenesis, hhead]
    cases hkind : e.kind with
    | rotation r =>
      constructor
      · intro herr
        cases herr
      · rintro ⟨e', m, rfl, hm, -⟩
        cases hkind.symm.trans hm
    | archive m =>
      cases hprev : e.prev with
      | some prev =>
        constructor
        · intro herr
          cases herr
        · rintro ⟨e', m', rfl, -, hnone⟩
          cases hprev.symm.trans hnone
      | none =>
        constructor
        · intro _
          exact ⟨e, m, rfl, hkind, hprev⟩
        · intro _
          rfl

theorem checkLink_eq_ok {before e : Entry} :
    checkLink before e = .ok () ↔ e.prev = some (formatArchiveId before.digest) := by
  unfold checkLink
  cases e.prev with
  | none => simp
  | some prev =>
    simp only [failWhen_eq_ok, Option.some.injEq]
    simp

theorem checkLinks_eq_ok {entries : List Entry} :
    checkLinks entries = .ok () ↔
      ∀ i a b, entries[i]? = some a → entries[i + 1]? = some b →
        b.prev = some (formatArchiveId a.digest) := by
  induction entries with
  | nil => simp [checkLinks]
  | cons first rest ih =>
    cases rest with
    | nil => simp [checkLinks]
    | cons second rest =>
      unfold checkLinks
      rw [bind_eq_ok]
      constructor
      · rintro ⟨_, hlink, hrest⟩ i a b ha hb
        cases i with
        | zero =>
          cases Option.some.inj ha
          cases Option.some.inj hb
          exact checkLink_eq_ok.mp hlink
        | succ i => exact ih.mp hrest i a b ha hb
      · intro h
        refine ⟨(), checkLink_eq_ok.mpr (h 0 first second rfl rfl), ih.mpr ?_⟩
        intro i a b ha hb
        exact h (i + 1) a b ha hb

end Sealedge
