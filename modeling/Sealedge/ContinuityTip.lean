import Sealedge.ReceiptSound

namespace Sealedge

open Fallible

/-- The continuity value over some hashes, from the genesis value on. -/
def chainValue (x : Crates) (hashes : List Digest) : Digest :=
  hashes.foldl (chainNext x) (chainGenesis x)

/-- Segments of a manifest that decode and are chained, and a client list that names each of them
once, in any order. -/
structure HonestSegments (x : Crates) (m : TrstManifest) (client : List SegmentDigest)
    (hashes : List Digest) : Prop where
  decoded : m.segments.map (fun s => decodeB3Hex32 s.blake3Hash) = hashes.map some
  chained : ∀ (i : Nat) segment, m.segments[i]? = some segment →
    decodeB3Hex32 segment.continuityHash = some (chainValue x (hashes.take (i + 1)))
  listed : ∃ named : List SegmentDigest, client.Perm named ∧ named.length = m.segments.length ∧
    ∀ (i : Nat) cs segment, named[i]? = some cs → m.segments[i]? = some segment →
      cs.index.toNat = i ∧ cs.normalized = Texts.asciiLower segment.blake3Hash

section Values

variable {x : Crates}

theorem declaresChain_iff {previous : Digest} {segments : List SegmentInfo}
    {hashes : List Digest} :
    DeclaresChain x previous segments hashes ↔
      segments.map (fun s => decodeB3Hex32 s.blake3Hash) = hashes.map some ∧
      ∀ (i : Nat) segment, segments[i]? = some segment →
        decodeB3Hex32 segment.continuityHash =
          some ((hashes.take (i + 1)).foldl (chainNext x) previous) := by
  induction segments generalizing previous hashes with
  | nil =>
    constructor
    · intro h
      cases h
      exact ⟨rfl, by simp⟩
    · rintro ⟨hmap, -⟩
      rw [List.map_nil, eq_comm, List.map_eq_nil_iff] at hmap
      subst hmap
      exact .nil
  | cons segment rest ih =>
    constructor
    · intro h
      cases h with
      | cons named linked tail =>
        obtain ⟨hmap, hlinks⟩ := ih.mp tail
        refine ⟨by rw [List.map_cons, List.map_cons, named, hmap], ?_⟩
        intro i s hs
        cases i with
        | zero =>
          cases hs
          exact linked
        | succ i => exact hlinks i s hs
    · rintro ⟨hmap, hlinks⟩
      cases hashes with
      | nil => simp at hmap
      | cons hash hashes =>
        obtain ⟨hnamed, hmap⟩ := List.cons.inj hmap
        have hlinked := hlinks 0 segment rfl
        exact .cons hnamed hlinked (ih.mpr ⟨hmap, fun i s hs => hlinks (i + 1) s hs⟩)

theorem chainLinks_getLast (previous : Digest) (hashes : List Digest) :
    (chainLinks x previous hashes).getLast?.getD previous =
      hashes.foldl (chainNext x) previous := by
  induction hashes generalizing previous with
  | nil => rfl
  | cons hash rest ih =>
    rw [List.foldl_cons, ← ih, chainLinks, List.getLast?_cons, Option.getD_some]

end Values

section Sorting

theorem sortedByIndex_pairwise (client : List SegmentDigest) :
    (sortedByIndex client).Pairwise (fun a b => a.index ≤ b.index) := by
  have : Std.Total (fun a b : SegmentDigest => a.index ≤ b.index) :=
    ⟨fun a b => UInt32.le_total a.index b.index⟩
  have : IsTrans SegmentDigest (fun a b => a.index ≤ b.index) :=
    ⟨fun _ _ _ hab hbc => UInt32.le_trans hab hbc⟩
  exact List.pairwise_insertionSort _ client

/-- A list in which every segment stands at the position it is numbered with is what sorting any
of its permutations gives. -/
theorem sortedByIndex_of_numbered {client named : List SegmentDigest} (hperm : client.Perm named)
    (hnumbered : named.map (fun s => s.index.toNat) = List.range named.length) :
    sortedByIndex client = named := by
  have hnodup : (named.map (fun s => s.index.toNat)).Nodup := hnumbered ▸ List.nodup_range
  have hordered : named.Pairwise (fun a b => a.index ≤ b.index) := by
    have hrange : (named.map (fun s => s.index.toNat)).Pairwise (· < ·) :=
      hnumbered ▸ List.pairwise_lt_range
    refine (List.pairwise_map.mp hrange).imp ?_
    intro a b hab
    exact UInt32.le_iff_toNat_le.mpr (Nat.le_of_lt hab)
  refine List.Perm.eq_of_pairwise ?_ (sortedByIndex_pairwise client) hordered
    ((sortedByIndex_perm client).trans hperm)
  intro a b ha hb hab hba
  have hmem : a ∈ named := hperm.mem_iff.mp ((sortedByIndex_perm client).mem_iff.mp ha)
  have hsame : a.index.toNat = b.index.toNat :=
    Nat.le_antisymm (UInt32.le_iff_toNat_le.mp hab) (UInt32.le_iff_toNat_le.mp hba)
  exact List.inj_on_of_nodup_map hnodup hmem hb hsame

/-- Numbered segments with the hashes of the manifest, position by position. -/
theorem positions_iff {named : List SegmentDigest} {segments : List SegmentInfo}
    (hlen : named.length = segments.length) :
    (∀ (i : Nat) cs segment, named[i]? = some cs → segments[i]? = some segment →
        cs.index.toNat = i ∧ cs.normalized = Texts.asciiLower segment.blake3Hash) ↔
      named.map (fun s => s.index.toNat) = List.range named.length ∧
        named.map SegmentDigest.normalized =
          segments.map (fun s => Texts.asciiLower s.blake3Hash) := by
  constructor
  · intro h
    constructor
    · refine List.ext_getElem (by simp) ?_
      intro i hi _
      rw [List.length_map] at hi
      rw [List.getElem_map, List.getElem_range]
      exact (h i _ _ (List.getElem?_eq_getElem hi) (List.getElem?_eq_getElem (hlen ▸ hi))).1
    · refine List.ext_getElem (by simp [hlen]) ?_
      intro i hi _
      rw [List.length_map] at hi
      rw [List.getElem_map, List.getElem_map]
      exact (h i _ _ (List.getElem?_eq_getElem hi) (List.getElem?_eq_getElem (hlen ▸ hi))).2
  · rintro ⟨hnumbered, hnamed⟩ i cs segment hcs hsegment
    have hindex := congrArg (fun l => l[i]?) hnumbered
    have hhash := congrArg (fun l => l[i]?) hnamed
    have hi := (List.getElem?_eq_some_iff.mp hcs).1
    simp only [List.getElem?_map, hcs, hsegment, Option.map_some] at hindex hhash
    rw [List.getElem?_range hi] at hindex
    exact ⟨Option.some.inj hindex, Option.some.inj hhash⟩

end Sorting

section Verdict

variable {x : Crates} {m : TrstManifest} {client : List SegmentDigest} {hashes : List Digest}

/-- The positional check after sorting holds exactly for the honest segment sets. -/
theorem honestSegments_iff :
    HonestSegments x m client hashes ↔ ContinuityHolds x m client hashes := by
  constructor
  · intro h
    obtain ⟨named, hperm, hlen, hpositions⟩ := h.listed
    obtain ⟨hnumbered, hnamed⟩ := (positions_iff hlen).mp hpositions
    have hsorted := sortedByIndex_of_numbered hperm hnumbered
    refine ⟨declaresChain_iff.mpr ⟨h.decoded, h.chained⟩, hperm.length_eq.trans hlen, ?_, ?_⟩
    · rw [hsorted, hnumbered, hperm.length_eq]
    · rw [hsorted, hnamed]
  · intro h
    obtain ⟨hdecoded, hchained⟩ := declaresChain_iff.mp h.declared
    have hperm := sortedByIndex_perm client
    have hlen := hperm.length_eq
    refine ⟨hdecoded, hchained, sortedByIndex client, hperm.symm, hlen.trans h.counted, ?_⟩
    exact (positions_iff (hlen.trans h.counted)).mpr ⟨by rw [h.numbered, hlen], h.named⟩

theorem HonestSegments.perm {client' : List SegmentDigest} (hperm : client.Perm client')
    (h : HonestSegments x m client hashes) : HonestSegments x m client' hashes := by
  obtain ⟨named, hnamed, hrest⟩ := h.listed
  exact ⟨h.decoded, h.chained, named, hperm.symm.trans hnamed, hrest⟩

/-- The numbers of the segments fit 32 bits, so there are not more of them. -/
theorem HonestSegments.count_le (h : HonestSegments x m client hashes) :
    m.segments.length ≤ 2 ^ 32 := by
  obtain ⟨named, -, hlen, hpositions⟩ := h.listed
  by_cases hempty : m.segments.length = 0
  · omega
  · have hi : m.segments.length - 1 < named.length := by omega
    have hlast := (hpositions _ _ _ (List.getElem?_eq_getElem hi)
      (List.getElem?_eq_getElem (hlen ▸ hi))).1
    have hbound := (named[m.segments.length - 1]).index.toNat_lt
    omega

theorem verifyContinuity_of_honest (h : HonestSegments x m client hashes) :
    verifyContinuity x m client =
      ⟨⟨true, none⟩, UInt32.ofNat m.segments.length, formatB3 (chainValue x hashes)⟩ := by
  have hholds := honestSegments_iff.mp h
  obtain ⟨chain, hchain, hlinks⟩ := continuityChain_eq_ok.mpr ⟨hashes, hholds, rfl⟩
  have hcount : chain.length = m.segments.length := by
    have hlen := congrArg List.length hlinks
    rw [List.length_map, chainLinks_length] at hlen
    rw [hlen, hholds.declared.length_eq]
  have htip : (chain.getLast?.map ChainSegment.storedContinuity).getD (chainGenesis x) =
      chainValue x hashes := by
    rw [← List.getLast?_map, hlinks, chainLinks_getLast]
    rfl
  unfold verifyContinuity
  rw [hchain]
  simp only [hcount, htip]

theorem verifyContinuity_of_not_honest (h : ¬ ∃ hashes, HonestSegments x m client hashes) :
    ∃ msg, verifyContinuity x m client = .fail x msg := by
  unfold verifyContinuity
  cases hchain : continuityChain x m client with
  | error msg => exact ⟨msg, rfl⟩
  | ok chain =>
    obtain ⟨hashes, hholds, -⟩ := continuityChain_eq_ok.mp ⟨chain, hchain, rfl⟩
    exact absurd ⟨hashes, honestSegments_iff.mpr hholds⟩ h

end Verdict

/-- Continuity verification accepts exactly the honest segment sets, in whatever order they are
listed, and reports their number and their tip. -/
theorem verifyContinuity_exact (x : Crates) (m : TrstManifest) (client : List SegmentDigest) :
    ((verifyContinuity x m client).result.passed = true ↔
      ∃ hashes, HonestSegments x m client hashes) ∧
    (∀ hashes, HonestSegments x m client hashes →
      (verifyContinuity x m client).verifiedSegments = UInt32.ofNat m.segments.length ∧
      (m.segments.length ≠ 2 ^ 32 →
        (verifyContinuity x m client).verifiedSegments.toNat = m.segments.length) ∧
      (verifyContinuity x m client).chainTip = formatB3 (chainValue x hashes)) ∧
    ((verifyContinuity x m client).result.passed = false →
      (verifyContinuity x m client).verifiedSegments = 0 ∧
      (verifyContinuity x m client).chainTip = formatB3 (chainGenesis x)) ∧
    ∀ client', client.Perm client' →
      (verifyContinuity x m client').result.passed = (verifyContinuity x m client).result.passed ∧
      (verifyContinuity x m client').verifiedSegments =
        (verifyContinuity x m client).verifiedSegments ∧
      (verifyContinuity x m client').chainTip = (verifyContinuity x m client).chainTip := by
  by_cases hhonest : ∃ hashes, HonestSegments x m client hashes
  · obtain ⟨hashes, h⟩ := hhonest
    have hvalue := verifyContinuity_of_honest h
    refine ⟨⟨fun _ => ⟨hashes, h⟩, fun _ => by rw [hvalue]⟩, ?_, ?_, ?_⟩
    · intro hashes' h'
      rw [verifyContinuity_of_honest h']
      refine ⟨rfl, ?_, rfl⟩
      intro hne
      have hle := h'.count_le
      show (UInt32.ofNat m.segments.length).toNat = m.segments.length
      rw [UInt32.toNat_ofNat', Nat.mod_eq_of_lt (by omega)]
    · intro hfailed
      rw [hvalue] at hfailed
      cases hfailed
    · intro client' hperm
      rw [hvalue, verifyContinuity_of_honest (h.perm hperm)]
      exact ⟨rfl, rfl, rfl⟩
  · obtain ⟨msg, hvalue⟩ := verifyContinuity_of_not_honest hhonest
    refine ⟨⟨fun hpassed => ?_, fun h => absurd h hhonest⟩, fun hashes h => absurd ⟨hashes, h⟩ hhonest,
      fun _ => by rw [hvalue]; exact ⟨rfl, rfl⟩, ?_⟩
    · rw [hvalue] at hpassed
      cases hpassed
    · intro client' hperm
      have hother : ¬ ∃ hashes, HonestSegments x m client' hashes :=
        fun ⟨hashes, h⟩ => hhonest ⟨hashes, h.perm hperm.symm⟩
      obtain ⟨msg', hvalue'⟩ := verifyContinuity_of_not_honest hother
      rw [hvalue, hvalue']
      exact ⟨rfl, rfl, rfl⟩

/-- The byte strings hashed along a chain: the seed, and each value with the hash after it. -/
def chainPreimages (x : Crates) (hashes : List Digest) : Set Bytes :=
  { bytes | bytes = intoBytes "sealedge:genesis" ∨
    ∃ before hash, before ++ [hash] <+: hashes ∧
      bytes = (chainValue x before).val ++ hash.val }

section Commitment

variable {x : Crates}

theorem chainValue_snoc (hashes : List Digest) (hash : Digest) :
    chainValue x (hashes ++ [hash]) = x.blake3 ((chainValue x hashes).val ++ hash.val) := by
  rw [chainValue, List.foldl_append]
  rfl

theorem chainPreimages_snoc (hashes : List Digest) (hash : Digest) :
    (chainValue x hashes).val ++ hash.val ∈ chainPreimages x (hashes ++ [hash]) :=
  Or.inr ⟨hashes, hash, List.prefix_rfl, rfl⟩

theorem chainPreimages_mono {hashes : List Digest} (hash : Digest) :
    chainPreimages x hashes ⊆ chainPreimages x (hashes ++ [hash]) := by
  rintro bytes (hseed | ⟨before, h, hbegins, hbytes⟩)
  · exact Or.inl hseed
  · exact Or.inr ⟨before, h, hbegins.trans (List.prefix_append _ _), hbytes⟩

theorem seed_ne_pair (a b : Digest) : a.val ++ b.val ≠ intoBytes "sealedge:genesis" := by
  intro h
  have hlen := congrArg List.length h
  have hseed : (intoBytes "sealedge:genesis").length = 16 := by decide
  rw [List.length_append, a.property, b.property, hseed] at hlen
  omega

theorem chainValue_ne_genesis {hashes : List Digest}
    (hinj : Set.InjOn x.blake3 (chainPreimages x hashes)) (hne : hashes ≠ []) :
    chainValue x hashes ≠ chainGenesis x := by
  obtain ⟨before, hash, rfl⟩ := (List.eq_nil_or_concat' hashes).resolve_left hne
  intro h
  rw [chainValue_snoc] at h
  exact seed_ne_pair _ _ (hinj (chainPreimages_snoc before hash) (Or.inl rfl) h)

/-- The value of a chain determines its hashes: walk back from the tip. -/
theorem chainValue_inj {hashes hashes' : List Digest}
    (hinj : Set.InjOn x.blake3 (chainPreimages x hashes ∪ chainPreimages x hashes'))
    (h : chainValue x hashes = chainValue x hashes') : hashes = hashes' := by
  induction hashes using List.reverseRecOn generalizing hashes' with
  | nil =>
    by_cases hempty : hashes' = []
    · exact hempty.symm
    · exact absurd h.symm (chainValue_ne_genesis (hinj.mono Set.subset_union_right) hempty)
  | append_singleton before hash ih =>
    rcases List.eq_nil_or_concat' hashes' with rfl | ⟨before', hash', rfl⟩
    · exact absurd h (chainValue_ne_genesis (hinj.mono Set.subset_union_left) (by simp))
    · rw [chainValue_snoc, chainValue_snoc] at h
      have hbytes := hinj (Or.inl (chainPreimages_snoc before hash))
        (Or.inr (chainPreimages_snoc before' hash')) h
      obtain ⟨hvalue, hhash⟩ := List.append_inj hbytes (by
        rw [(chainValue x before).property, (chainValue x before').property])
      have hsmaller := hinj.mono
        (Set.union_subset_union (chainPreimages_mono hash) (chainPreimages_mono hash'))
      rw [ih hsmaller (Subtype.ext hvalue), Subtype.ext hhash]

theorem checkContinuity_tip {previous : Digest} {chain : List ChainSegment} {last : ChainSegment}
    (h : checkContinuity x previous chain = .ok ()) (hlast : chain.getLast? = some last) :
    last.storedContinuity =
      (chain.map ChainSegment.storedHash).foldl (chainNext x) previous := by
  induction chain generalizing previous with
  | nil => cases hlast
  | cons segment rest ih =>
    unfold checkContinuity at h
    simp only at h
    split at h
    next => cases h
    next hlinked =>
      have hlinked := not_not.mp hlinked
      cases rest with
      | nil =>
        cases hlast
        exact hlinked.symm
      | cons next tail =>
        rw [List.getLast?_cons_cons] at hlast
        exact ih h hlast

theorem validateChain_tip {chain : List ChainSegment} {last : ChainSegment}
    (h : validateChain x chain = .ok ()) (hlast : chain.getLast? = some last) :
    last.storedContinuity = chainValue x (chain.map ChainSegment.storedHash) := by
  unfold validateChain at h
  split at h
  next hempty =>
    rw [List.isEmpty_iff.mp hempty] at hlast
    cases hlast
  next =>
    obtain ⟨_, -, hcheck⟩ := bind_eq_ok.mp h
    exact checkContinuity_tip hcheck hlast

end Commitment

theorem formatB3_injective : Function.Injective formatB3 := by
  intro a b h
  exact Subtype.ext (Numerals.hexEncode_injective ((String.append_right_inj "b3:").mp h))

theorem Attested.tip_eq {x : Crates} {sv : ManifestSerde} {request : VerifyRequest}
    {claims : ReceiptClaims} {m : TrstManifest} {hashes : List Digest}
    (h : Attested x sv request claims m hashes) :
    claims.chainTip = formatB3 (chainValue x hashes) := by
  obtain ⟨tip, hlast, htip⟩ := h.tip
  have hvalue := chainLinks_getLast (x := x) (chainGenesis x) hashes
  rw [hlast, Option.getD_some] at hvalue
  rw [htip, hvalue]
  rfl

/-- The continuity tip commits to the whole segment list: accepted chains with one tip have the
same hashes, the genesis value is the tip of the empty chain only, and receipts with one tip
attest the same hashes in the same order. -/
theorem tip_commits_to_segments (x : Crates) :
    (∀ (chain chain' : List ChainSegment) (last last' : ChainSegment),
      Set.InjOn x.blake3 (chainPreimages x (chain.map ChainSegment.storedHash) ∪
        chainPreimages x (chain'.map ChainSegment.storedHash)) →
      validateChain x chain = .ok () → validateChain x chain' = .ok () →
      chain.getLast? = some last → chain'.getLast? = some last' →
      last.storedContinuity = last'.storedContinuity →
      chain.length = chain'.length ∧
        ∀ i : Nat, (chain[i]?).map ChainSegment.storedHash =
          (chain'[i]?).map ChainSegment.storedHash) ∧
    (∀ (chain : List ChainSegment) (last : ChainSegment),
      Set.InjOn x.blake3 (chainPreimages x (chain.map ChainSegment.storedHash)) →
      validateChain x chain = .ok () → chain.getLast? = some last →
      last.storedContinuity ≠ chainGenesis x) ∧
    ∀ (sv sv' : ManifestSerde) (env env' : PlatformEnv) (deployment deployment' : Deployment)
      (request request' : VerifyRequest) (response response' : VerifyResponse) (jws jws' : String),
      verifyHandler x sv env deployment request = .ok response → response.receipt = some jws →
      verifyHandler x sv' env' deployment' request' = .ok response' →
      response'.receipt = some jws' →
      ∃ claims claims' m m' hashes hashes', signReceiptJws env claims = .ok jws ∧
        signReceiptJws env' claims' = .ok jws' ∧ Attested x sv request claims m hashes ∧
        Attested x sv' request' claims' m' hashes' ∧
        (Set.InjOn x.blake3 (chainPreimages x hashes ∪ chainPreimages x hashes') →
          claims.chainTip = claims'.chainTip → hashes = hashes') := by
  refine ⟨?_, ?_, ?_⟩
  · intro chain chain' last last' hinj hvalid hvalid' hlast hlast' htip
    rw [validateChain_tip hvalid hlast, validateChain_tip hvalid' hlast'] at htip
    have hhashes := chainValue_inj hinj htip
    refine ⟨by simpa using congrArg List.length hhashes, ?_⟩
    intro i
    rw [← List.getElem?_map, ← List.getElem?_map, hhashes]
  · intro chain last hinj hvalid hlast
    rw [validateChain_tip hvalid hlast]
    refine chainValue_ne_genesis hinj ?_
    intro hnil
    rw [List.map_eq_nil_iff] at hnil
    rw [hnil] at hlast
    cases hlast
  · intro sv sv' env env' deployment deployment' request request' response response' jws jws'
      h hreceipt h' hreceipt'
    obtain ⟨claims, m, hashes, htoken, hattested⟩ := verifyHandler_attests h hreceipt
    obtain ⟨claims', m', hashes', htoken', hattested'⟩ := verifyHandler_attests h' hreceipt'
    refine ⟨claims, claims', m, m', hashes, hashes', htoken, htoken', hattested, hattested', ?_⟩
    intro hinj htip
    rw [hattested.tip_eq, hattested'.tip_eq] at htip
    exact chainValue_inj hinj (formatB3_injective htip)

section Sample

variable {x : Crates}

/-- A chain of one segment. -/
def oneSegment (x : Crates) (hash : Digest) : ChainSegment :=
  ⟨0, hash, chainNext x (chainGenesis x) hash⟩

theorem validateChain_oneSegment (hash : Digest) :
    validateChain x [oneSegment x hash] = .ok () := by
  simp [validateChain, checkIndices, checkContinuity, oneSegment, bind, Except.bind]

/-- Along a chain of one segment only the seed and one pair of digests are hashed. -/
theorem injOn_oneSegment {hash : Digest} (h : chainValue x [hash] ≠ chainGenesis x) :
    Set.InjOn x.blake3 (chainPreimages x [hash]) := by
  have hpair : ∀ bytes ∈ chainPreimages x [hash],
      bytes = intoBytes "sealedge:genesis" ∨ bytes = (chainGenesis x).val ++ hash.val := by
    rintro bytes (hseed | ⟨before, last, hbegins, hbytes⟩)
    · exact Or.inl hseed
    · have hlen := hbegins.length_le
      rw [List.length_append, List.length_singleton, List.length_singleton] at hlen
      have hnil := List.length_eq_zero_iff.mp (by omega : before.length = 0)
      subst hnil
      obtain ⟨rest, hrest⟩ := hbegins
      have hlast : last = hash := (List.cons.inj hrest).1
      exact Or.inr (hlast ▸ hbytes)
  intro a ha b hb hab
  rcases hpair a ha with rfl | rfl
  · rcases hpair b hb with rfl | rfl
    · rfl
    · exact absurd hab.symm h
  · rcases hpair b hb with rfl | rfl
    · exact absurd hab h
    · rfl

/-- The request of a device for its first archive. -/
def genesisRequest (x : Crates) (k : DeviceKeypair) : VerifyRequest where
  devicePub := k.public x
  manifest := (genesisManifest x k).toValue
  segments := [⟨0, formatB3 (x.blake3 sampleChunk)⟩]
  options := ⟨true, none⟩

theorem genesisRequest_honest (k : DeviceKeypair) :
    HonestSegments x (genesisManifest x k) (genesisRequest x k).segments
      [x.blake3 sampleChunk] := by
  have hdecode : ∀ digest : Digest,
      decodeB3Hex32 (Numerals.hexEncode digest.val) = some digest := by
    intro digest
    refine decodeB3Hex32_eq_some.mpr ?_
    rw [stripPrefix_of_lowerHex (by rw [asciiLower_hexEncode]; exact isLowerHex_hexEncode),
      Option.getD_none, Numerals.hexDecode_hexEncode]
  refine ⟨congrArg (fun d => [d]) (hdecode _), ?_, (genesisRequest x k).segments, .refl _, rfl, ?_⟩
  · intro i segment hsegment
    cases i with
    | zero =>
      cases hsegment
      exact hdecode _
    | succ i => cases hsegment
  · intro i cs segment hcs hsegment
    cases i with
    | zero =>
      cases hcs
      cases hsegment
      refine ⟨rfl, ?_⟩
      show Texts.asciiLower ((Texts.stripPrefix "b3:" ("b3:" ++ _)).getD _) = _
      rw [Texts.stripPrefix_append]
      rfl
    | succ i => cases hcs

theorem genesisRequest_receipt (hx : x.SignsLawfully) (k : DeviceKeypair) :
    ∃ response, verifyHandler x (sampleSerde (genesisManifest x k)) samplePlatform .stateless
        (genesisRequest x k) = .ok response ∧
      response.receipt = some "header.payload.signature" := by
  have halgorithm : Texts.startsWith (k.public x) "ed25519:" = true := Texts.startsWith_append _ _
  have hpub : k.public x ≠ "" := by
    intro he
    rw [he] at halgorithm
    exact absurd halgorithm (by decide)
  have hvalid : validateVerifyRequestFull (genesisRequest x k) = .ok () := by
    refine bind_eq_ok.mpr ⟨(), failWhen_eq_ok.mpr rfl, bind_eq_ok.mpr ⟨(), failWhen_eq_ok.mpr ?_,
      bind_eq_ok.mpr ⟨(), failWhen_eq_ok.mpr
        (isEmptyManifest_of_get (genesisManifest x k).get_toValue_device), ?_⟩⟩⟩
    · simpa [genesisRequest] using hpub
    · simp [genesisRequest, validateSegmentHashes, matchesHashRegex_formatB3]
  obtain ⟨report, hreport, hpasses⟩ := verifyToReport_of_reportPasses
    (sampleSerde_toValue (genesisManifest x k))
    ⟨Or.inl halgorithm, rfl, rfl, rfl, verifyManifest_signManifest hx k _,
      honestSegments_iff.mp (genesisRequest_honest k)⟩
  obtain ⟨hsignature, hcontinuity⟩ := Bool.and_eq_true_iff.mp hpasses
  refine ⟨⟨"v_" ++ samplePlatform.requestUuid, report, some "header.payload.signature"⟩, ?_, rfl⟩
  refine bind_eq_ok.mpr ⟨(), mapError_eq_ok.mpr hvalid, bind_eq_ok.mpr
    ⟨report, mapError_eq_ok.mpr hreport, bind_eq_ok.mpr
      ⟨some "header.payload.signature", mapError_eq_ok.mpr ?_, rfl⟩⟩⟩
  unfold buildReceiptIfRequested
  rw [hsignature, hcontinuity]
  rfl

theorem genesisRequest_hashes {k : DeviceKeypair} {claims : ReceiptClaims} {m : TrstManifest}
    {hashes : List Digest}
    (h : Attested x (sampleSerde (genesisManifest x k)) (genesisRequest x k) claims m hashes) :
    hashes = [x.blake3 sampleChunk] := by
  have hparsed : m = genesisManifest x k := by
    have hm := h.parsed
    rw [genesisRequest, sampleSerde_toValue] at hm
    exact (Except.ok.inj hm).symm
  have hnamed := h.named
  rw [hparsed] at hnamed
  have hone : [Numerals.hexEncode (x.blake3 sampleChunk).val] =
      hashes.map (fun h => Numerals.hexEncode h.val) := by
    rw [← hnamed, ← asciiLower_hexEncode (x.blake3 sampleChunk).val]
    rfl
  obtain ⟨hash, rest, rfl, hhash, hrest⟩ := List.map_eq_cons_iff.mp hone.symm
  rw [List.map_eq_nil_iff] at hrest
  rw [hrest, Subtype.ext (Numerals.hexEncode_injective hhash)]

end Sample

theorem verifyContinuity_exact_sample :
    let outcome := verifyContinuity sampleCrates (genesisManifest sampleCrates (sampleKey 1))
      (genesisRequest sampleCrates (sampleKey 1)).segments
    outcome.result.passed = true ∧ outcome.verifiedSegments.toNat = 1 ∧
      outcome.chainTip = formatB3 (chainValue sampleCrates [sampleHash sampleChunk]) := by
  obtain ⟨hverdict, hreported, -, -⟩ := verifyContinuity_exact sampleCrates
    (genesisManifest sampleCrates (sampleKey 1)) (genesisRequest sampleCrates (sampleKey 1)).segments
  have hhonest := genesisRequest_honest (x := sampleCrates) (sampleKey 1)
  obtain ⟨-, hcount, htip⟩ := hreported _ hhonest
  refine ⟨hverdict.mpr ⟨_, hhonest⟩, hcount ?_, htip⟩
  show 1 ≠ 2 ^ 32
  omega

theorem tip_commits_to_segments_sample :
    (validateChain sampleCrates [oneSegment sampleCrates (sampleHash [1, 2, 3])] = .ok () ∧
      (oneSegment sampleCrates (sampleHash [1, 2, 3])).storedContinuity ≠
        chainGenesis sampleCrates ∧
      ∀ i : Nat, ([oneSegment sampleCrates (sampleHash [1, 2, 3])][i]?).map
          ChainSegment.storedHash =
        ([oneSegment sampleCrates (sampleHash sampleChunk)][i]?).map ChainSegment.storedHash) ∧
    ∃ (claims claims' : ReceiptClaims) (m m' : TrstManifest) (hashes hashes' : List Digest),
      claims.signerPub ≠ claims'.signerPub ∧ claims.chainTip = claims'.chainTip ∧
      Attested sampleCrates (sampleSerde (genesisManifest sampleCrates (sampleKey 1)))
        (genesisRequest sampleCrates (sampleKey 1)) claims m hashes ∧
      Attested sampleCrates (sampleSerde (genesisManifest sampleCrates (sampleKey 2)))
        (genesisRequest sampleCrates (sampleKey 2)) claims' m' hashes' ∧ hashes = hashes' := by
  have hx := sampleCrates_signsLawfully
  obtain ⟨hchains, hgenesis, hreceipts⟩ := tip_commits_to_segments sampleCrates
  have htip : chainValue sampleCrates [sampleHash sampleChunk] ≠ chainGenesis sampleCrates := by
    decide +kernel
  have hinj := injOn_oneSegment htip
  have hboth : Set.InjOn sampleCrates.blake3
      (chainPreimages sampleCrates [sampleHash sampleChunk] ∪
        chainPreimages sampleCrates [sampleHash sampleChunk]) := by
    rw [Set.union_self]
    exact hinj
  have hvalid := validateChain_oneSegment (x := sampleCrates) (sampleHash sampleChunk)
  refine ⟨⟨hvalid, ?_, ?_⟩, ?_⟩
  · exact hgenesis [oneSegment sampleCrates (sampleHash sampleChunk)] _ hinj hvalid rfl
  · exact (hchains [oneSegment sampleCrates (sampleHash sampleChunk)]
      [oneSegment sampleCrates (sampleHash sampleChunk)] _ _ hboth hvalid hvalid rfl rfl rfl).2
  · obtain ⟨response, hhandled, hreceipt⟩ := genesisRequest_receipt hx (sampleKey 1)
    obtain ⟨response', hhandled', hreceipt'⟩ := genesisRequest_receipt hx (sampleKey 2)
    obtain ⟨claims, claims', m, m', hashes, hashes', -, -, hattested, hattested', hsame⟩ :=
      hreceipts _ _ _ _ _ _ _ _ _ _ _ _ hhandled hreceipt hhandled' hreceipt'
    have hhashes := genesisRequest_hashes hattested
    have hhashes' := genesisRequest_hashes hattested'
    have htips : claims.chainTip = claims'.chainTip := by
      rw [hattested.tip_eq, hattested'.tip_eq, hhashes, hhashes']
    refine ⟨claims, claims', m, m', hashes, hashes', ?_, htips, hattested, hattested', ?_⟩
    · rw [hattested.signer, hattested'.signer]
      decide +kernel
    · refine hsame ?_ htips
      rw [hhashes, hhashes']
      exact hboth

end Sealedge
