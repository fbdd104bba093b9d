import Sealedge.ChronicleWalk
import Sealedge.SampleCrates

namespace Sealedge

open Fallible

/-- An accepted chronicle: entries in sequence from a genesis archive, linked by their digests,
each signed by the key in force, which only a rotation replaces. -/
structure ChronicleHolds (x : Crates) (st : Storage) (genesis : String) (entries : List Entry)
    (active : Nat → String) : Prop where
  sequences : ∀ (i : Nat) (e : Entry), entries[i]? = some e → e.seq.toNat = i
  first : ∃ (e : Entry) (m : TrstManifest), entries[0]? = some e ∧ e.kind = .archive m ∧ m.prevArchiveHash = none
  links : ∀ (i : Nat) (a b : Entry), entries[i]? = some a → entries[i + 1]? = some b →
    b.kind.prevArchiveHash = some (formatArchiveId (x.blake3 (a.kind.canonicalBytes x.text)))
  starts : active 0 = genesis
  archives : ∀ (i : Nat) (e : Entry) (m : TrstManifest), entries[i]? = some e → e.kind = .archive m →
    active (i + 1) = active i ∧ m.device.publicKey = active i ∧
    (∃ sig, m.signature = some sig ∧
      verifyManifest x (active i) (m.toCanonicalBytes x.text) sig = .ok true) ∧
    (m.device.keyEpoch.getD 0).toNat = rotationCount (entries.take i) ∧
    validateArchive x st e.dir = .ok ()
  rotations : ∀ (i : Nat) (e : Entry) (r : RotationRecord), entries[i]? = some e → e.kind = .rotation r →
    active (i + 1) = r.new.publicKey ∧ r.old.publicKey = active i ∧ r.Cosigned x

/-- The key in force before the entry at a position. -/
def activeKey (genesis : String) (entries : List Entry) (i : Nat) : String :=
  ((Walk.start genesis).past (entries.take i)).activeSigner

section Accepted

variable {x : Crates} {st : Storage} {web : WebCodec}

theorem activeKey_succ (genesis : String) {entries : List Entry} {i : Nat} {e : Entry}
    (he : entries[i]? = some e) :
    activeKey genesis entries (i + 1) =
      match e.kind with
      | .archive _ => activeKey genesis entries i
      | .rotation r => r.new.publicKey := by
  have htake : entries.take (i + 1) = entries.take i ++ [e] := by
    rw [List.take_add_one, he]
    rfl
  rw [activeKey, htake, Walk.past_snoc, Walk.advance]
  cases e.kind <;> rfl

theorem checkEntries_holds {genesis : String} {paths : List PathArg} {dirs : List SealDir}
    {entries : List Entry} {w : Walk} (hsorted : SortedFrom x st paths dirs entries)
    (h : checkEntries x st genesis entries = .ok w) :
    ChronicleHolds x st genesis entries (activeKey genesis entries) ∧
      w = (Walk.start genesis).past entries ∧ w.activeEpoch.toNat = rotationCount entries := by
  obtain ⟨_, hcontiguity, h⟩ := bind_eq_ok.mp h
  obtain ⟨_, hgenesis, h⟩ := bind_eq_ok.mp h
  obtain ⟨_, hlinks, h⟩ := bind_eq_ok.mp h
  obtain ⟨hall, rfl⟩ := walkEntries_eq_ok.mp h
  have hseq : ∀ i e, entries[i]? = some e → e.seq = UInt64.ofNat i := by
    intro i e he
    simpa using checkContiguity_eq_ok.mp hcontiguity i e he
  have hread : ∀ {i : Nat} {e : Entry}, entries[i]? = some e → e.ReadFrom x st :=
    fun he => hsorted.readFrom _ (List.mem_of_getElem? he)
  have hepoch := activeEpoch_eq_rotationCount hall
  refine ⟨⟨?_, ?_, ?_, rfl, ?_, ?_⟩, rfl, ?_⟩
  · intro i e he
    exact seq_toNat_of_contiguous hsorted.sorted hseq he
  · obtain ⟨e, m, he, hm, hprev⟩ := checkGenesis_eq_ok.mp hgenesis
    refine ⟨e, m, he, hm, ?_⟩
    have hprevs := (hread he).prev
    rw [hprev, hm] at hprevs
    exact hprevs.symm
  · intro i a b ha hb
    have hlink := checkLinks_eq_ok.mp hlinks i a b ha hb
    rw [(hread hb).prev, (hread ha).digest] at hlink
    exact hlink
  · intro i e m he hm
    have hholds := hall i e he
    have hnext := activeKey_succ genesis he
    unfold EntryHolds at hholds
    simp only [hm] at hholds hnext
    obtain ⟨hkey, hkeyEpoch, hsig, harchive⟩ := hholds
    exact ⟨hnext, hkey, hsig, hkeyEpoch.trans (hepoch i), harchive⟩
  · intro i e r he hr
    have hholds := hall i e he
    have hnext := activeKey_succ genesis he
    unfold EntryHolds at hholds
    simp only [hr] at hholds hnext
    obtain ⟨hkey, -, hcosigned⟩ := hholds
    exact ⟨hnext, hkey, hcosigned⟩
  · have hlast := hepoch entries.length
    rw [List.take_length] at hlast
    exact hlast

/-- Accepted entries have different sequences, so the order of the paths does not matter. -/
theorem Accepts.perm {args : VerifyChronicleCmd} {entries : List Entry} {last : Entry} {w : Walk}
    {witnessed : Option (UInt64 × String)} (h : Accepts x st web args entries last w witnessed)
    {paths : List PathArg} (hp : paths.Perm args.paths) :
    Accepts x st web { args with paths := paths } entries last w witnessed := by
  obtain ⟨dirs, hsorted⟩ := sortedEntries_sortedFrom h.sorted
  have hholds := (checkEntries_holds hsorted h.checked).1
  have hinj : ∀ a ∈ entries, ∀ b ∈ entries, a.seq = b.seq → a = b := by
    intro a ha b hb hab
    obtain ⟨i, hi⟩ := List.mem_iff_getElem?.mp ha
    obtain ⟨j, hj⟩ := List.mem_iff_getElem?.mp hb
    have hij : i = j := by
      rw [← hholds.sequences i a hi, ← hholds.sequences j b hj, hab]
    rw [hij, hj] at hi
    exact (Option.some.inj hi).symm
  exact ⟨sortedEntries_perm hp h.sorted hinj, h.checked, h.ends, h.witness⟩

/-- An accepted chronicle is what it should be, the report names its tip, its last key and its
number of rotations, and the order of the paths does not matter. -/
theorem verifyChronicle_sound {args : VerifyChronicleCmd} {report : ChronicleReport}
    (hw : args.witness = none) (h : handleVerifyChronicle x st web args = .ok report) :
    ∃ dirs entries active last,
      collectArchiveDirs args.paths = .ok dirs ∧ (entries.map Entry.dir).Perm dirs ∧
      (∀ e ∈ entries, e.ReadFrom x st) ∧
      entries.Pairwise (fun a b => a.seq ≤ b.seq) ∧
      ChronicleHolds x st args.genesisKey entries active ∧
      entries.getLast? = some last ∧
      report.tip = formatArchiveId (x.blake3 (last.kind.canonicalBytes x.text)) ∧
      report.currentIdentity = active entries.length ∧
      report.currentEpoch.toNat = rotationCount entries ∧
      report.rotations = rotationCount entries ∧
      report.witnessed = none ∧
      ∀ paths, paths.Perm args.paths →
        handleVerifyChronicle x st web { args with paths := paths } = .ok report := by
  obtain ⟨entries, last, w, witnessed, haccepts, rfl⟩ := handleVerifyChronicle_eq_ok.mp h
  obtain ⟨dirs, hsorted⟩ := sortedEntries_sortedFrom haccepts.sorted
  obtain ⟨hholds, hwalk, hepoch⟩ := checkEntries_holds hsorted haccepts.checked
  have hlastRead := hsorted.readFrom last (List.mem_of_getLast? haccepts.ends)
  have hwitness : witnessed = none := by
    have hnone := haccepts.witness
    unfold checkWitness at hnone
    rw [hw] at hnone
    exact (Except.ok.inj hnone).symm
  refine ⟨dirs, entries, activeKey args.genesisKey entries, last, hsorted.collected,
    hsorted.dirs_perm, hsorted.readFrom, hsorted.sorted, hholds, haccepts.ends, ?_, ?_, hepoch,
    ?_, hwitness, ?_⟩
  · rw [← hlastRead.digest]
    rfl
  · rw [activeKey, List.take_length, ← hwalk]
    rfl
  · have hcount := Walk.past_rotations (.start args.genesisKey) entries
    rw [← hwalk] at hcount
    exact hcount.trans (Nat.zero_add _)
  · intro paths hp
    exact handleVerifyChronicle_eq_ok.mpr ⟨entries, last, w, witnessed, haccepts.perm hp, rfl⟩

end Accepted

/-- Every signature text fits the cap of the detached signature file. -/
def Crates.SignsShort (x : Crates) : Prop :=
  ∀ k bytes, (intoBytes (signManifest x k bytes)).length ≤ sigMaxBytes

theorem sampleCrates_signsShort : sampleCrates.SignsShort := by
  intro k bytes
  have hlen := sampleCrates_signsLawfully.signatureLength k.secret bytes
  have hbound := utf8Encode_size_le
    (Base64.encodeChars (sampleCrates.ed25519Sign k.secret bytes))
  have hsize : (intoBytes (signManifest sampleCrates k bytes)).length =
      (intoBytes "ed25519:").length +
        (Base64.encodeChars (sampleCrates.ed25519Sign k.secret bytes)).utf8Encode.size := by
    rw [signManifest, intoBytes_append, List.length_append]
    simp [sampleCrates, Base64.encode, intoBytes, String.toByteArray_ofList]
  have hbegins : (intoBytes "ed25519:").length = 8 := by decide
  rw [Base64.encodeChars_length, hlen] at hbound
  rw [hsize, hbegins]
  unfold sigMaxBytes
  omega

def sampleChunk : Bytes := [1, 2, 3]

section Sample

variable (x : Crates) (k k' : DeviceKeypair)

def sampleSegment : SegmentInfo where
  chunkFile := "00000.bin"
  blake3Hash := Numerals.hexEncode (x.blake3 sampleChunk).val
  startTime := "0.000s"
  durationSeconds := ⟨0⟩
  continuityHash :=
    Numerals.hexEncode (chainNext x (chainGenesis x) (x.blake3 sampleChunk)).val

def unsignedGenesis : TrstManifest where
  trstVersion := "0.2.0"
  profile := "generic"
  device :=
    { id := "te:dev:0001"
      model := "TrustEdgeRefCam"
      firmwareVersion := "1.0.0"
      publicKey := k.public x
      keyAgreementPublic := none
      keyEpoch := none }
  metadata := .generic
    { startedAt := "2026-01-01T00:00:00Z"
      endedAt := "2026-01-01T00:00:02Z"
      dataType := none
      source := none
      description := none
      mimeType := none
      labels := .empty }
  chunk := { sizeBytes := 1048576, durationSeconds := ⟨0⟩ }
  segments := [sampleSegment x]
  claims := []
  encryption := none
  sequence := some 0
  prevArchiveHash := none
  signature := none

def genesisSignature : String :=
  signManifest x k ((unsignedGenesis x k).toCanonicalBytes x.text)

/-- The manifest of a first archive with one chunk. -/
def genesisManifest : TrstManifest :=
  { unsignedGenesis x k with signature := some (genesisSignature x k) }

/-- The rotation that follows it. -/
def genesisRotation : RotationRecord :=
  .createSigned x k 0 k' "x25519:next" 1 (formatArchiveId ((genesisManifest x k).archiveDigest x))
    "2026-01-02T00:00:00Z"

/-- Storage for the two documents, each under a text of its own. -/
def sampleStorage : Storage where
  parseManifest bytes :=
    if bytes = intoBytes "manifest" then .ok (genesisManifest x k)
    else .error "expected value at line 1 column 1"
  printManifest m := if m = genesisManifest x k then "manifest" else "null"
  parseRotation bytes :=
    if bytes = intoBytes "rotation" then .ok (genesisRotation x k k')
    else .error "expected value at line 1 column 1"
  printRotation r := if r = genesisRotation x k k' then "rotation" else "null"
  parseState _ := .error "expected value at line 1 column 1"
  printState _ := "null"
  utf8Lossy bytes := (utf8Decode bytes).getD "�"

def genesisDir : SealDir where
  path := "day0.seal"
  manifestJson := .file (intoBytes "manifest")
  manifestSig := .file (intoBytes (genesisSignature x k))
  rotationJson := .absent
  chunks := .directory (Listing.empty.put (intoBytes (chunkFileName 0)) (.file sampleChunk))

def rotationDir : SealDir where
  path := "rotation.seal"
  manifestJson := .absent
  manifestSig := .absent
  rotationJson := .file (intoBytes "rotation")
  chunks := .absent

def genesisEntry : Entry where
  seq := 0
  digest := (genesisManifest x k).archiveDigest x
  prev := none
  dir := genesisDir x k
  kind := .archive (genesisManifest x k)

def rotationEntry : Entry where
  seq := 1
  digest := (genesisRotation x k k').archiveDigest x
  prev := some (formatArchiveId ((genesisManifest x k).archiveDigest x))
  dir := rotationDir
  kind := .rotation (genesisRotation x k k')

/-- The arguments that verify the two entries, given in the wrong order. -/
def sampleArgs : VerifyChronicleCmd where
  paths := [.directory rotationDir (.ok []), .directory (genesisDir x k) (.ok [])]
  devicePub := k.public x
  witness := none
  witnessJwks := none

end Sample

section Facts

variable {x : Crates} (k k' : DeviceKeypair)

theorem genesisManifest_valid : (genesisManifest x k).validate = .ok () := by
  have hpub : (k.public x == "") = false := by simp [DeviceKeypair.public_ne_empty]
  have hhash : (Numerals.hexEncode (x.blake3 sampleChunk).val == "") = false := by
    simp [hexEncode_digest_ne_empty]
  have hlink : (Numerals.hexEncode
      (chainNext x (chainGenesis x) (x.blake3 sampleChunk)).val == "") = false := by
    simp [hexEncode_digest_ne_empty]
  simp [TrstManifest.validate, genesisManifest, unsignedGenesis, sampleSegment, requireText,
    invalidWhen, failWhen, hpub, hhash, hlink, knownProfiles, ProfileMetadata.validate,
    validateSegments, validateEncryption, validateChronicle, bind, Except.bind]

theorem genesisDir_node :
    (genesisDir x k).chunks.node (chunkFileName 0) = .file sampleChunk :=
  Listing.node_put_self _ _ _

theorem readManifest_genesisDir (hshort : x.SignsShort) :
    readManifest (sampleStorage x k k') (genesisDir x k) =
      .ok (genesisManifest x k, intoBytes (genesisSignature x k)) := by
  have hname : (intoBytes "manifest").length = 8 := by decide
  refine readManifest_eq_ok.mpr ⟨intoBytes "manifest", rfl, ?_, ?_, rfl, hshort _ _, ?_⟩
  · rw [hname]
    decide
  · simp [sampleStorage]
  · intro embedded hembedded
    have hlossy : (sampleStorage x k k').utf8Lossy (intoBytes (genesisSignature x k)) =
        genesisSignature x k := by
      simp [sampleStorage, utf8Decode_intoBytes]
    rw [hlossy]
    exact (Option.some.inj hembedded).symm

theorem genesisDir_valid (hshort : x.SignsShort) :
    validateArchive x (sampleStorage x k k') (genesisDir x k) = .ok () := by
  have hname : "00000.bin" = chunkFileName 0 := by decide
  have hfile : (sampleSegment x).chunkFile = chunkFileName 0 := hname
  refine validateArchive_eq_ok.mpr ⟨genesisManifest x k, _, [sampleChunk],
    readManifest_genesisDir k k' hshort, ⟨rfl, ?_⟩, genesisManifest_valid k, ?_⟩
  · intro name hname _
    have hone : name = intoBytes (chunkFileName 0) := by
      have hmem : name ∈ [intoBytes (chunkFileName 0)] := hname
      simpa using hmem
    have hlossy : (sampleStorage x k k').utf8Lossy (intoBytes (chunkFileName 0)) =
        chunkFileName 0 := by
      simp [sampleStorage, utf8Decode_intoBytes]
    rw [hone, hlossy, ← hfile]
    exact List.mem_singleton_self _
  · refine .cons ⟨hfile, genesisDir_node k, by decide, rfl, ?_⟩ .nil
    exact Numerals.hexDecode_hexEncode _

theorem sample_sortedEntries (hshort : x.SignsShort) :
    sortedEntries x (sampleStorage x k k') (sampleArgs x k).paths =
      .ok [genesisEntry x k, rotationEntry x k k'] := by
  have hrotation : loadEntry x (sampleStorage x k k') rotationDir = .ok (rotationEntry x k k') :=
    loadRotation_eq_ok.mpr ⟨genesisRotation x k k', by
      simp [readRotation, rotationDir, Node.read, Except.mapError, sampleStorage, bind, Except.bind],
      rfl, rfl⟩
  have hgenesis : loadEntry x (sampleStorage x k k') (genesisDir x k) = .ok (genesisEntry x k) :=
    loadArchive_eq_ok.mpr ⟨genesisManifest x k, _, 0, readManifest_genesisDir k k' hshort, rfl, rfl,
      rfl⟩
  have hcollect : collectArchiveDirs (sampleArgs x k).paths = .ok [rotationDir, genesisDir x k] :=
    rfl
  have hload : loadEntries x (sampleStorage x k k') [rotationDir, genesisDir x k] =
      .ok [rotationEntry x k k', genesisEntry x k] :=
    mapM_eq_ok.mpr (.cons hrotation (.cons hgenesis .nil))
  refine bind_eq_ok.mpr ⟨_, hcollect, bind_eq_ok.mpr ⟨(), rfl, bind_eq_ok.mpr ⟨_, hload, ?_⟩⟩⟩
  have hsort : sortEntries [rotationEntry x k k', genesisEntry x k] =
      [genesisEntry x k, rotationEntry x k k'] := by
    have hle : ¬(rotationEntry x k k').seq ≤ (genesisEntry x k).seq := by
      show ¬(1 : UInt64) ≤ 0
      decide
    simp [sortEntries, List.insertionSort, List.orderedInsert, hle]
  rw [hsort]
  rfl

theorem sample_checkEntries (hx : x.SignsLawfully) (hshort : x.SignsShort) :
    checkEntries x (sampleStorage x k k') (k.public x)
      [genesisEntry x k, rotationEntry x k k'] =
      .ok ⟨k'.public x, 1, 1, [k.public x, k'.public x]⟩ := by
  have hfirst : EntryHolds x (sampleStorage x k k') (k.public x) 0 (genesisEntry x k) :=
    ⟨rfl, rfl, ⟨_, rfl, verifyManifest_signManifest hx k _⟩, genesisDir_valid k k' hshort⟩
  have hsecond : EntryHolds x (sampleStorage x k k') (k.public x) 0 (rotationEntry x k k') :=
    ⟨rfl, rfl, RotationRecord.createSigned_cosigned hx (by decide) _ _ _ _⟩
  have hwalk : walkEntries x (sampleStorage x k k') (.start (k.public x))
      [genesisEntry x k, rotationEntry x k k'] =
      .ok ⟨k'.public x, 1, 1, [k.public x, k'.public x]⟩ := by
    refine walkEntries_eq_ok.mpr ⟨?_, rfl⟩
    intro i e he
    match i with
    | 0 =>
      cases Option.some.inj he
      exact hfirst
    | 1 =>
      cases Option.some.inj he
      exact hsecond
    | _ + 2 => cases he
  have hlinks : checkLinks [genesisEntry x k, rotationEntry x k k'] = .ok () :=
    bind_eq_ok.mpr ⟨(), checkLink_eq_ok.mpr rfl, rfl⟩
  exact bind_eq_ok.mpr ⟨(), rfl, bind_eq_ok.mpr ⟨(), rfl, bind_eq_ok.mpr ⟨(), hlinks, hwalk⟩⟩⟩

theorem sampleArgs_genesisKey : (sampleArgs x k).genesisKey = k.public x :=
  VerifyChronicleCmd.genesisKey_public rfl

theorem sample_accepts (hx : x.SignsLawfully) (hshort : x.SignsShort) (web : WebCodec) :
    Accepts x (sampleStorage x k k') web (sampleArgs x k)
      [genesisEntry x k, rotationEntry x k k'] (rotationEntry x k k')
      ⟨k'.public x, 1, 1, [k.public x, k'.public x]⟩ none where
  sorted := sample_sortedEntries k k' hshort
  checked := by
    rw [sampleArgs_genesisKey]
    exact sample_checkEntries k k' hx hshort
  ends := rfl
  witness := rfl

end Facts

/-- A codec for web tokens that reads nothing. -/
def mute : WebCodec := ⟨fun _ => .error "EOF while parsing a value", fun _ => .error "Invalid byte"⟩

theorem verifyChronicle_sound_sample :
    ∃ report entries active,
      handleVerifyChronicle sampleCrates (sampleStorage sampleCrates (sampleKey 1) (sampleKey 2)) mute
        (sampleArgs sampleCrates (sampleKey 1)) = .ok report ∧
      ChronicleHolds sampleCrates (sampleStorage sampleCrates (sampleKey 1) (sampleKey 2))
        (sampleArgs sampleCrates (sampleKey 1)).genesisKey entries active ∧
      report.currentIdentity = active entries.length := by
  have haccepted := handleVerifyChronicle_eq_ok.mpr ⟨_, _, _, _,
    sample_accepts (sampleKey 1) (sampleKey 2) sampleCrates_signsLawfully sampleCrates_signsShort mute,
    rfl⟩
  obtain ⟨-, entries, active, -, -, -, -, -, hholds, -, -, hidentity, -⟩ :=
    verifyChronicle_sound rfl haccepted
  exact ⟨_, entries, active, haccepted, hholds, hidentity⟩

end Sealedge
