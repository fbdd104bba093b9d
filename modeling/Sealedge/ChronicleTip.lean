import Sealedge.ChronicleSound
import Sealedge.HashChain
import Sealedge.RotationReads

namespace Sealedge

open HashChain

/-- Two entries of one kind with the same signed bytes. -/
def SameEntry (x : TextCodec) (a b : Entry) : Prop :=
  a.kind.isRotation = b.kind.isRotation ∧ a.kind.canonicalBytes x = b.kind.canonicalBytes x

/-- The identifier under which the next entry refers to an entry. -/
def Entry.ident (x : Crates) (e : Entry) : String :=
  formatArchiveId (x.blake3 (e.kind.canonicalBytes x.text))

/-- The byte strings whose digests identify some entries. -/
def hashedBytes (x : TextCodec) (entries : List Entry) : Set Bytes :=
  {bytes | ∃ e ∈ entries, e.kind.canonicalBytes x = bytes}

section Entries

variable {x : TextCodec} (hx : x.Lawful)

include hx

theorem sameEntry_of_canonicalBytes_eq {a b : Entry}
    (h : a.kind.canonicalBytes x = b.kind.canonicalBytes x) : SameEntry x a b := by
  refine ⟨?_, h⟩
  cases ha : a.kind with
  | archive m =>
    cases hb : b.kind with
    | archive m' => rfl
    | rotation r =>
      rw [ha, hb] at h
      exact absurd h (toCanonicalBytes_ne_signingBytes hx.escapes m r)
  | rotation r =>
    cases hb : b.kind with
    | archive m =>
      rw [ha, hb] at h
      exact absurd h.symm (toCanonicalBytes_ne_signingBytes hx.escapes m r)
    | rotation r' => rfl

/-- Entries with the same signed bytes are two archives or two rotations with the same content. -/
theorem SameEntry.contents {a b : Entry} (h : SameEntry x a b) :
    (∃ m m', a.kind = .archive m ∧ b.kind = .archive m' ∧
      m.toCanonicalBytes x = m'.toCanonicalBytes x) ∨
    ∃ r r', a.kind = .rotation r ∧ b.kind = .rotation r' ∧ r.SameSigned r' := by
  obtain ⟨hkind, hbytes⟩ := h
  cases ha : a.kind with
  | archive m =>
    cases hb : b.kind with
    | archive m' =>
      rw [ha, hb] at hbytes
      exact Or.inl ⟨m, m', rfl, rfl, hbytes⟩
    | rotation r =>
      rw [ha, hb] at hkind
      cases hkind
  | rotation r =>
    cases hb : b.kind with
    | archive m =>
      rw [ha, hb] at hkind
      cases hkind
    | rotation r' =>
      rw [ha, hb] at hbytes
      exact Or.inr ⟨r, r', rfl, rfl,
        RotationRecord.sameSigned_of_signingBytes_eq hx.escapes hbytes⟩

theorem SameEntry.prevArchiveHash_eq {a b : Entry} (h : SameEntry x a b) :
    a.kind.prevArchiveHash = b.kind.prevArchiveHash := by
  rcases h.contents hx with ⟨m, m', ha, hb, hbytes⟩ | ⟨r, r', ha, hb, hsame⟩
  · rw [ha, hb]
    exact (sameText_of_serializeCanonical_eq hx (toCanonicalBytes_inj.mp hbytes)).prevArchiveHash
  · rw [ha, hb]
    have hprev := congrArg RotationRecord.prevArchiveHash hsame
    exact congrArg some hprev

end Entries

section Tips

variable {x : Crates} {st st' : Storage} {genesis genesis' : String} {entries entries' : List Entry}
  {active active' : Nat → String}

theorem ChronicleHolds.linked (h : ChronicleHolds x st genesis entries active) :
    Linked (Entry.ident x) (fun e => e.kind.prevArchiveHash) entries := by
  refine linked_iff_getElem.mpr ⟨?_, h.links⟩
  obtain ⟨e, m, he, hm, hnone⟩ := h.first
  refine ⟨e, he, ?_⟩
  show e.kind.prevArchiveHash = none
  rw [hm]
  exact hnone

/-- Two accepted chronicles that end in entries with one identifier agree in every entry. -/
theorem sameEntries_of_ident_eq (hx : x.text.Lawful) {l l' : List Entry} {a b : Entry}
    (hl : Linked (Entry.ident x) (fun e => e.kind.prevArchiveHash) (l ++ [a]))
    (hl' : Linked (Entry.ident x) (fun e => e.kind.prevArchiveHash) (l' ++ [b]))
    (hinj : Set.InjOn x.blake3
      (hashedBytes x.text (l ++ [a]) ∪ hashedBytes x.text (l' ++ [b])))
    (htip : a.ident x = b.ident x) :
    List.Forall₂ (SameEntry x.text) (l ++ [a]) (l' ++ [b]) := by
  refine forall₂_of_tip_eq hl hl' ?_ (fun u v => SameEntry.prevArchiveHash_eq hx) htip
  intro u hu v hv huv
  have hdigest := formatArchiveId_injective huv
  have hbytes := hinj (Or.inl ⟨u, hu, rfl⟩) (Or.inr ⟨v, hv, rfl⟩) hdigest
  exact sameEntry_of_canonicalBytes_eq hx hbytes

/-- The reported tip determines the chronicle: its length, and the kind and the signed bytes of
every entry. -/
theorem tip_determines_history (hx : x.text.Lawful) {web web' : WebCodec}
    {args args' : VerifyChronicleCmd} {report report' : ChronicleReport}
    (h : handleVerifyChronicle x st web args = .ok report)
    (h' : handleVerifyChronicle x st' web' args' = .ok report')
    (hentries : sortedEntries x st args.paths = .ok entries)
    (hentries' : sortedEntries x st' args'.paths = .ok entries')
    (hinj : Set.InjOn x.blake3 (hashedBytes x.text entries ∪ hashedBytes x.text entries'))
    (htip : report.tip = report'.tip) :
    entries.length = entries'.length ∧
    ∀ (i : Nat) (a b : Entry), entries[i]? = some a → entries'[i]? = some b →
      a.seq.toNat = i ∧ b.seq.toNat = i ∧ SameEntry x.text a b := by
  obtain ⟨found, last, w, witnessed, haccepts, rfl⟩ := handleVerifyChronicle_eq_ok.mp h
  obtain ⟨found', last', w', witnessed', haccepts', rfl⟩ := handleVerifyChronicle_eq_ok.mp h'
  cases hentries.symm.trans haccepts.sorted
  cases hentries'.symm.trans haccepts'.sorted
  obtain ⟨dirs, hsorted⟩ := sortedEntries_sortedFrom hentries
  obtain ⟨dirs', hsorted'⟩ := sortedEntries_sortedFrom hentries'
  have hholds := (checkEntries_holds hsorted haccepts.checked).1
  have hholds' := (checkEntries_holds hsorted' haccepts'.checked).1
  obtain ⟨l, rfl⟩ := List.getLast?_eq_some_iff.mp haccepts.ends
  obtain ⟨l', rfl⟩ := List.getLast?_eq_some_iff.mp haccepts'.ends
  have hident : last.ident x = last'.ident x := by
    have hread := hsorted.readFrom last (by simp)
    have hread' := hsorted'.readFrom last' (by simp)
    rw [Entry.ident, Entry.ident, ← hread.digest, ← hread'.digest]
    exact htip
  have hsame := sameEntries_of_ident_eq hx hholds.linked hholds'.linked hinj hident
  refine ⟨hsame.length_eq, ?_⟩
  intro i a b ha hb
  exact ⟨hholds.sequences i a ha, hholds'.sequences i b hb, forall₂_getElem? hsame ha hb⟩

end Tips

section HeadHash

/-- A hash that keeps the head of the text, where a manifest and a rotation record differ. -/
def headHash (bytes : Bytes) : Digest := ⟨fit 32 bytes, fit_length 32 bytes⟩

theorem headHash_head {b b' : UInt8} {rest rest' : Bytes}
    (h : headHash (b :: rest) = headHash (b' :: rest')) : b = b' := by
  have hfit := congrArg Subtype.val h
  exact (List.cons.inj hfit).1

def headCrates : Crates := { sampleCrates with blake3 := headHash }

theorem headCrates_signsLawfully : headCrates.SignsLawfully :=
  ⟨sampleCrates_signsLawfully.base64, sampleCrates_signsLawfully.publicLength,
    sampleCrates_signsLawfully.publicKey, sampleCrates_signsLawfully.signatureLength,
    sampleCrates_signsLawfully.verifies⟩

theorem headCrates_signsShort : headCrates.SignsShort := sampleCrates_signsShort

def manifestHead : String := "\x7b\"trst_version\":\"0.2.0\",\"profile"

def rotationHead : String := "\x7b\"trst_version\":\"0.2.0\",\"kind\":\""

theorem versionText : serdeText.jsonStr "0.2.0" = "\"0.2.0\"" := by decide +kernel

theorem canonical_head {m : TrstManifest} (hversion : m.trstVersion = "0.2.0") :
    ∃ rest, serializeCanonical serdeText m =
      manifestHead ++ ("\":" ++ (serdeText.jsonStr m.profile ++ rest)) := by
  have hsplit : ∀ rest : String, "\x7b" ++ ("\"trst_version\":" ++ ("\"0.2.0\"" ++
      (",\"profile\":" ++ rest))) = manifestHead ++ ("\":" ++ rest) := by
    intro rest
    simp only [← String.append_assoc]
    congr 1
  unfold serializeCanonical
  simp only [String.append_assoc]
  rw [hversion, versionText]
  exact ⟨_, hsplit _⟩

theorem genesisManifest_head (k : DeviceKeypair) :
    ∃ rest, (genesisManifest headCrates k).toCanonicalBytes headCrates.text =
      intoBytes manifestHead ++ rest := by
  have hversion : (unsignedGenesis headCrates k).trstVersion = "0.2.0" := rfl
  obtain ⟨rest, hrest⟩ := canonical_head hversion
  refine ⟨intoBytes ("\":" ++ (serdeText.jsonStr (unsignedGenesis headCrates k).profile ++ rest)), ?_⟩
  rw [← intoBytes_append, ← hrest]
  rfl

theorem genesisRotation_head (k k' : DeviceKeypair) :
    ∃ rest, (genesisRotation headCrates k k').signingBytes headCrates.text =
      intoBytes rotationHead ++ rest := by
  have hkind : serdeText.jsonStr rotationKind = "\"" ++ "rotation\"" := by decide +kernel
  have hsplit : ∀ rest : String, "\x7b" ++ ("\"trst_version\":" ++ ("\"0.2.0\"" ++
      (",\"kind\":" ++ ("\"" ++ rest)))) = rotationHead ++ rest := by
    intro rest
    simp only [← String.append_assoc]
    congr 1
  have htext : ∃ rest, (genesisRotation headCrates k k').signingText serdeText =
      rotationHead ++ rest := by
    unfold RotationRecord.signingText
    rw [show (genesisRotation headCrates k k').trstVersion = "0.2.0" from rfl,
      show (genesisRotation headCrates k k').kind = rotationKind from rfl, versionText, hkind]
    simp only [String.append_assoc]
    exact ⟨_, hsplit _⟩
  obtain ⟨rest, hrest⟩ := htext
  refine ⟨intoBytes rest, ?_⟩
  rw [← intoBytes_append, ← hrest]
  rfl

theorem sample_hashedBytes (x : Crates) (k k' : DeviceKeypair) :
    hashedBytes x.text [genesisEntry x k, rotationEntry x k k'] =
      {(genesisManifest x k).toCanonicalBytes x.text, (genesisRotation x k k').signingBytes x.text} := by
  ext bytes
  rw [Set.mem_insert_iff, Set.mem_singleton_iff]
  constructor
  · rintro ⟨e, he, hbytes⟩
    rw [← hbytes]
    rcases List.mem_pair.mp he with rfl | rfl
    · exact Or.inl rfl
    · exact Or.inr rfl
  · intro h
    rcases h with h | h
    · exact ⟨genesisEntry x k, List.mem_cons_self, h.symm⟩
    · exact ⟨rotationEntry x k k', List.mem_cons_of_mem _ (List.mem_singleton_self _), h.symm⟩

theorem headHash_injOn (k k' : DeviceKeypair) :
    Set.InjOn headCrates.blake3
      (hashedBytes headCrates.text [genesisEntry headCrates k, rotationEntry headCrates k k']) := by
  obtain ⟨rest, hmanifest⟩ := genesisManifest_head k
  obtain ⟨rest', hrotation⟩ := genesisRotation_head k k'
  have hlen : (intoBytes manifestHead).length = 32 := by decide +kernel
  have hlen' : (intoBytes rotationHead).length = 32 := by decide +kernel
  have hheads : intoBytes manifestHead ≠ intoBytes rotationHead := by decide +kernel
  rw [sample_hashedBytes, Set.injOn_pair, hmanifest, hrotation]
  intro h
  have hfit : fit 32 (intoBytes manifestHead ++ rest) = fit 32 (intoBytes rotationHead ++ rest') :=
    congrArg Subtype.val h
  rw [fit_append hlen, fit_append hlen'] at hfit
  exact absurd hfit hheads

def swappedPaths (x : Crates) (k : DeviceKeypair) : List PathArg :=
  [.directory (genesisDir x k) (.ok []), .directory rotationDir (.ok [])]

/-- The two entries in either order of the paths. -/
theorem tip_determines_history_sample :
    ∃ report report',
      handleVerifyChronicle headCrates (sampleStorage headCrates (sampleKey 1) (sampleKey 2)) mute
        (sampleArgs headCrates (sampleKey 1)) = .ok report ∧
      handleVerifyChronicle headCrates (sampleStorage headCrates (sampleKey 1) (sampleKey 2)) mute
        { sampleArgs headCrates (sampleKey 1) with
          paths := swappedPaths headCrates (sampleKey 1) } = .ok report' ∧
      report.tip = report'.tip ∧
      ∀ (i : Nat) (a b : Entry),
        [genesisEntry headCrates (sampleKey 1),
          rotationEntry headCrates (sampleKey 1) (sampleKey 2)][i]? = some a →
        [genesisEntry headCrates (sampleKey 1),
          rotationEntry headCrates (sampleKey 1) (sampleKey 2)][i]? = some b →
        a.seq.toNat = i ∧ b.seq.toNat = i ∧ SameEntry headCrates.text a b := by
  have haccepts := sample_accepts (sampleKey 1) (sampleKey 2) headCrates_signsLawfully
    headCrates_signsShort mute
  have hswap : (swappedPaths headCrates (sampleKey 1)).Perm
      (sampleArgs headCrates (sampleKey 1)).paths := List.Perm.swap _ _ []
  have hswapped := haccepts.perm hswap
  have hreport := handleVerifyChronicle_eq_ok.mpr ⟨_, _, _, _, haccepts, rfl⟩
  have hreport' := handleVerifyChronicle_eq_ok.mpr ⟨_, _, _, _, hswapped, rfl⟩
  have hinj := headHash_injOn (sampleKey 1) (sampleKey 2)
  rw [← Set.union_self (hashedBytes _ _)] at hinj
  exact ⟨_, _, hreport, hreport', rfl, (tip_determines_history serdeText_lawful hreport hreport'
    haccepts.sorted hswapped.sorted hinj rfl).2⟩

end HeadHash

end Sealedge
