import Sealedge.EmitRequest

namespace Sealedge

open Fallible

/-- What the claims of a receipt stand for. -/
structure Attested (x : Crates) (sv : ManifestSerde) (request : VerifyRequest)
    (claims : ReceiptClaims) (m : TrstManifest) (hashes : List Digest) : Prop where
  parsed : sv.fromValue request.manifest = .ok m
  version : m.trstVersion = "0.2.0"
  key : m.device.publicKey = request.devicePub
  signer : claims.signerPub = request.devicePub
  signed : ∃ signature, m.signature = some signature ∧
    verifyManifest x request.devicePub (m.toCanonicalBytes x.text) signature = .ok true
  nonempty : hashes ≠ []
  submitted : ∃ sorted : List SegmentDigest, sorted.Perm request.segments ∧
    sorted.map (fun s => (s.index.toNat, s.hash)) = hashes.mapIdx (fun i h => (i, formatB3 h))
  named : m.segments.map (fun s => Texts.asciiLower s.blake3Hash) =
    hashes.map (fun h => Numerals.hexEncode h.val)
  linked : m.segments.map (fun s => decodeB3Hex32 s.continuityHash) =
    (chainLinks x (chainGenesis x) hashes).map some
  tip : ∃ tip, (chainLinks x (chainGenesis x) hashes).getLast? = some tip ∧
    claims.chainTip = formatB3 tip

/-- What the registry says about a receipt: the floor of the key is cleared, and a device that is
called registered is so in the caller's organization. -/
def RegistryBacks (deployment : Deployment) (request : VerifyRequest) (claims : ReceiptClaims)
    (m : TrstManifest) : Prop :=
  match deployment with
  | .stateless => claims.deviceRegistered = false
  | .postgres db orgCtx =>
    (∀ row ∈ db.registry.rows, row.devicePub = request.devicePub →
      ∀ floor, row.minEpoch = some floor → floor.toUInt32 ≤ m.device.keyEpoch.getD 0) ∧
    (claims.deviceRegistered = true →
      ∃ row ∈ db.registry.rows, some row.orgId = orgCtx ∧
        some row.deviceId = request.options.deviceId ∧ row.deviceId = claims.deviceId ∧
        row.devicePub = claims.signerPub)

/-- A hash in the required form is its prefix and what it is compared as, which has no letter in
upper case and no other sign. -/
theorem hash_of_matches {s : SegmentDigest} (h : matchesHashRegex s.hash = true) :
    s.hash = "b3:" ++ s.normalized ∧ ∀ c ∈ s.normalized.toList, isLowerHex c = true := by
  unfold matchesHashRegex at h
  cases hstrip : Texts.stripPrefix "b3:" s.hash with
  | none =>
    rw [hstrip] at h
    cases h
  | some rest =>
    rw [hstrip] at h
    obtain ⟨-, hall⟩ := Bool.and_eq_true_iff.mp h
    have hhex := List.all_eq_true.mp hall
    have hnormal : s.normalized = rest := by
      rw [SegmentDigest.normalized, hstrip, Option.getD_some, asciiLower_of_lowerHex hhex]
    rw [hnormal]
    exact ⟨Texts.stripPrefix_eq_some hstrip, hhex⟩

theorem validateSegmentHashes_eq_ok {i : Nat} {segments : List SegmentDigest}
    (h : validateSegmentHashes i segments = .ok ()) :
    ∀ s ∈ segments, matchesHashRegex s.hash = true := by
  induction segments generalizing i with
  | nil => simp
  | cons segment rest ih =>
    unfold validateSegmentHashes at h
    split at h
    next => cases h
    next hmatch =>
      intro s hs
      rcases List.mem_cons.mp hs with rfl | hrest
      · simpa using hmatch
      · exact ih h s hrest

/-- A declared hash that is compared without a prefix is the hexadecimal text of its digest, up to
the case of letters. -/
theorem asciiLower_eq_of_decode {value : String} {digest : Digest}
    (h : decodeB3Hex32 value = some digest)
    (hhex : ∀ c ∈ (Texts.asciiLower value).toList, isLowerHex c = true) :
    Texts.asciiLower value = Numerals.hexEncode digest.val := by
  have hdecode := decodeB3Hex32_eq_some.mp h
  rw [stripPrefix_of_lowerHex hhex, Option.getD_none] at hdecode
  exact Numerals.hexDecode_eq_some.mp hdecode

section Attesting

variable {x : Crates}

theorem DeclaresChain.named {previous : Digest} {segments : List SegmentInfo}
    {hashes : List Digest} (h : DeclaresChain x previous segments hashes)
    (hhex : ∀ s ∈ segments, ∀ c ∈ (Texts.asciiLower s.blake3Hash).toList, isLowerHex c = true) :
    segments.map (fun s => Texts.asciiLower s.blake3Hash) =
      hashes.map (fun h => Numerals.hexEncode h.val) := by
  induction h with
  | nil => rfl
  | cons named _ _ ih =>
    rw [List.map_cons, List.map_cons, ih (fun s hs => hhex s (List.mem_cons_of_mem _ hs)),
      asciiLower_eq_of_decode named (hhex _ (List.mem_cons_self ..))]

theorem DeclaresChain.linked {previous : Digest} {segments : List SegmentInfo}
    {hashes : List Digest} (h : DeclaresChain x previous segments hashes) :
    segments.map (fun s => decodeB3Hex32 s.continuityHash) =
      (chainLinks x previous hashes).map some := by
  induction h with
  | nil => rfl
  | cons _ linked _ ih => rw [List.map_cons, chainLinks, List.map_cons, ih, linked]

theorem chainLinks_length (previous : Digest) (hashes : List Digest) :
    (chainLinks x previous hashes).length = hashes.length := by
  induction hashes generalizing previous with
  | nil => rfl
  | cons hash rest ih => rw [chainLinks, List.length_cons, List.length_cons, ih]

theorem numbered_hashes {sorted : List SegmentDigest} {hashes : List Digest} {n : Nat}
    (hindices : sorted.map (fun s => s.index.toNat) = List.range n)
    (htexts : sorted.map SegmentDigest.normalized = hashes.map (fun h => Numerals.hexEncode h.val))
    (hhash : ∀ s ∈ sorted, s.hash = "b3:" ++ s.normalized) :
    sorted.map (fun s => (s.index.toNat, s.hash)) = hashes.mapIdx (fun i h => (i, formatB3 h)) := by
  apply List.ext_getElem?
  intro i
  have hindex := congrArg (fun l => l[i]?) hindices
  have htext := congrArg (fun l => l[i]?) htexts
  simp only [List.getElem?_map] at hindex htext
  rw [List.getElem?_map, List.getElem?_mapIdx]
  cases hs : sorted[i]? with
  | none =>
    rw [hs, Option.map_none, eq_comm, Option.map_eq_none_iff] at htext
    rw [htext]
    rfl
  | some s =>
    rw [hs, Option.map_some, eq_comm, Option.map_eq_some_iff] at htext
    obtain ⟨h, hh, htext⟩ := htext
    rw [hs, Option.map_some, eq_comm, List.getElem?_eq_some_iff] at hindex
    obtain ⟨hi, hindex⟩ := hindex
    rw [List.getElem_range] at hindex
    rw [hh, Option.map_some, Option.map_some, ← hindex, hhash s (List.mem_of_getElem? hs), ← htext]
    rfl

/-- Claims made from a report that passes, for a request in the required form. -/
theorem attested_of_report {sv : ManifestSerde} (env : PlatformEnv) {request : VerifyRequest}
    {report : VerifyReport} (registered : Bool)
    (hvalid : validateVerifyRequestFull request = .ok ())
    (h : verifyToReport x sv request.manifest request.segments request.devicePub = .ok report)
    (hpasses : report.passes = true) :
    ∃ m hashes, Attested x sv request (receiptClaims x sv env request report registered) m hashes := by
  obtain ⟨m, signature, hashes, hparsed, hpass, htip⟩ := reportPasses_of_verifyToReport h hpasses
  obtain ⟨_, hsegments, hvalid⟩ := bind_eq_ok.mp hvalid
  obtain ⟨_, -, hvalid⟩ := bind_eq_ok.mp hvalid
  obtain ⟨_, -, hvalid⟩ := bind_eq_ok.mp hvalid
  have hmatches := validateSegmentHashes_eq_ok hvalid
  have hperm := sortedByIndex_perm request.segments
  have hcontinuity := hpass.continuity
  have hcount : hashes.length = request.segments.length := by
    rw [← hcontinuity.declared.length_eq, hcontinuity.counted]
  have hnonempty : hashes ≠ [] := by
    have hne : request.segments ≠ [] := by simpa using failWhen_eq_ok.mp hsegments
    intro he
    rw [he] at hcount
    exact hne (List.length_eq_zero_iff.mp hcount.symm)
  have hsorted : ∀ s ∈ sortedByIndex request.segments, matchesHashRegex s.hash = true :=
    fun s hs => hmatches s (hperm.mem_iff.mp hs)
  have hhex : ∀ s ∈ m.segments, ∀ c ∈ (Texts.asciiLower s.blake3Hash).toList,
      isLowerHex c = true := by
    intro s hs
    have hmem : Texts.asciiLower s.blake3Hash ∈
        (sortedByIndex request.segments).map SegmentDigest.normalized := by
      rw [hcontinuity.named]
      exact List.mem_map.mpr ⟨s, hs, rfl⟩
    obtain ⟨cs, hcs, hnormal⟩ := List.mem_map.mp hmem
    rw [← hnormal]
    exact (hash_of_matches (hsorted cs hcs)).2
  have hnamed := hcontinuity.declared.named hhex
  refine ⟨m, hashes, hparsed, hpass.version, hpass.key, rfl, ⟨signature, hpass.signed, hpass.verified⟩,
    hnonempty, ⟨sortedByIndex request.segments, hperm, ?_⟩, hnamed, hcontinuity.declared.linked, ?_⟩
  · have hindices := hcontinuity.numbered
    have htexts : (sortedByIndex request.segments).map SegmentDigest.normalized =
        hashes.map (fun h => Numerals.hexEncode h.val) := hcontinuity.named.trans hnamed
    exact numbered_hashes hindices htexts (fun s hs => (hash_of_matches (hsorted s hs)).1)
  · obtain ⟨tip, hlast⟩ : ∃ tip, (chainLinks x (chainGenesis x) hashes).getLast? = some tip := by
      have hne : chainLinks x (chainGenesis x) hashes ≠ [] := by
        intro he
        have hlen := chainLinks_length (x := x) (chainGenesis x) hashes
        rw [he] at hlen
        exact hnonempty (List.length_eq_zero_iff.mp hlen.symm)
      exact ⟨_, List.getLast?_eq_some_getLast hne⟩
    rw [hlast, Option.getD_some] at htip
    exact ⟨tip, hlast, htip⟩

theorem archiveEpoch_le {sv : ManifestSerde} (hsv : sv.Lawful) {manifest : JsonValue}
    {m : TrstManifest} (h : sv.fromValue manifest = .ok m) :
    archiveEpoch manifest ≤ m.device.keyEpoch.getD 0 := by
  unfold archiveEpoch
  cases hraw : manifest.keyEpoch with
  | none => exact UInt32.zero_le
  | some n =>
    obtain ⟨e, hepoch, hsame⟩ := hsv.keyEpoch manifest m n h hraw
    rw [hepoch, Option.getD_some, Option.getD_some, UInt32.le_iff_toNat_le, UInt64.toNat_toUInt32,
      ← hsame]
    exact Nat.mod_le _ _

theorem find?_of_nodup {α β : Type} [BEq β] [LawfulBEq β] {rows : List α} {key : α → β} {row : α}
    (hn : (rows.map key).Nodup) (h : row ∈ rows) :
    rows.find? (fun r => key r == key row) = some row := by
  induction rows with
  | nil => cases h
  | cons first rest ih =>
    rw [List.map_cons, List.nodup_cons] at hn
    rcases List.mem_cons.mp h with rfl | hrest
    · simp
    · have hne : key first ≠ key row := fun he => hn.1 (he ▸ List.mem_map_of_mem hrest)
      rw [List.find?_cons_of_neg (by simpa using hne)]
      exact ih hn.2 hrest

theorem checkEpoch_eq_ok {db : PlatformDb} {request : VerifyRequest}
    (h : checkEpoch db request = .ok ()) {row : DeviceRecord} (hrow : row ∈ db.registry.rows)
    (hpub : row.devicePub = request.devicePub) {floor : Int32} (hfloor : row.minEpoch = some floor) :
    floor.toUInt32 ≤ archiveEpoch request.manifest := by
  obtain ⟨found, hfound, h⟩ := bind_eq_ok.mp h
  have hrev : found = some ⟨row.revokedAt, some floor.toUInt32⟩ := by
    have hfound := mapError_eq_ok.mp hfound
    unfold answer at hfound
    split at hfound
    next => cases hfound
    next =>
      have hfind := find?_of_nodup db.registry.uniquePub hrow
      rw [hpub] at hfind
      rw [← Except.ok.inj hfound, DeviceRegistry.getDeviceRevocationByPub, hfind, Option.map_some,
        hfloor, Option.map_some]
  rw [hrev] at h
  have hallowed := failWhen_eq_ok.mp h
  simpa [epochAllowed] using hallowed

theorem bindDevice_eq_ok {db : PlatformDb} {orgCtx : Option String} {request : VerifyRequest}
    (h : bindDevice db orgCtx request = .ok true) :
    ∃ row ∈ db.registry.rows, some row.orgId = orgCtx ∧
      some row.deviceId = request.options.deviceId ∧ row.devicePub = request.devicePub := by
  unfold bindDevice at h
  split at h
  next deviceId orgId hdevice =>
    obtain ⟨record, hrecord, h⟩ := bind_eq_ok.mp h
    split at h
    next => cases h
    next id storedPub =>
      split at h
      next => cases h
      next hsame =>
        have hrecord := mapError_eq_ok.mp hrecord
        unfold answer at hrecord
        split at hrecord
        next => cases hrecord
        next =>
          have hfind := Except.ok.inj hrecord
          obtain ⟨row, hrow, hcols⟩ := Option.map_eq_some_iff.mp hfind
          have hkeys := List.find?_some hrow
          rw [Bool.and_eq_true, beq_iff_eq, beq_iff_eq] at hkeys
          refine ⟨row, List.mem_of_find?_eq_some hrow, by rw [hkeys.1], by rw [hkeys.2, hdevice], ?_⟩
          exact (Prod.mk.inj hcols).2.trans (not_not.mp hsame)
  next => cases h

end Attesting

section Receipts

variable {x : Crates} {sv : ManifestSerde} {env : PlatformEnv} {request : VerifyRequest}
  {report : VerifyReport} {jws : String}

theorem buildReceiptIfRequested_some
    (h : buildReceiptIfRequested x sv env request report = .ok (some jws)) :
    report.passes = true ∧
      signReceiptJws env (receiptClaims x sv env request report false) = .ok jws := by
  unfold buildReceiptIfRequested at h
  split at h
  next => cases h
  next hwanted =>
    simp only [Bool.or_eq_true, Bool.not_eq_true', not_or, Bool.not_eq_false] at hwanted
    split at h
    next token htoken =>
      cases h
      exact ⟨Bool.and_eq_true_iff.mpr ⟨hwanted.1.2, hwanted.2⟩, htoken⟩
    next => cases h

theorem storeReceipt_some {db : PlatformDb} {registered : Bool} {receiptId : Option String}
    (h : storeReceipt x sv env db request report registered = .ok (some jws, receiptId)) :
    report.passes = true ∧
      signReceiptJws env (receiptClaims x sv env request report registered) = .ok jws := by
  unfold storeReceipt at h
  split at h
  next hwanted =>
    simp only [Bool.and_eq_true] at hwanted
    split at h
    next token htoken =>
      have hjws : token = jws := by
        split at h
        next => cases h; rfl
        next => cases h; rfl
      subst hjws
      exact ⟨Bool.and_eq_true_iff.mpr ⟨hwanted.1.2, hwanted.2⟩, htoken⟩
    next => cases h
  next => cases h

end Receipts

/-- The claims of a receipt come from a request in the required form and a report that passes,
and the registry has answered for the device first. -/
structure ReceiptFrom (x : Crates) (sv : ManifestSerde) (env : PlatformEnv)
    (deployment : Deployment) (request : VerifyRequest) (report : VerifyReport) (jws : String)
    (registered : Bool) : Prop where
  valid : validateVerifyRequestFull request = .ok ()
  reported : verifyToReport x sv request.manifest request.segments request.devicePub = .ok report
  passes : report.passes = true
  token : signReceiptJws env (receiptClaims x sv env request report registered) = .ok jws
  registry : match deployment with
    | .stateless => registered = false
    | .postgres db orgCtx =>
      bindDevice db orgCtx request = .ok registered ∧ checkEpoch db request = .ok ()

theorem verifyHandler_receipt {x : Crates} {sv : ManifestSerde} {env : PlatformEnv}
    {deployment : Deployment} {request : VerifyRequest} {response : VerifyResponse} {jws : String}
    (h : verifyHandler x sv env deployment request = .ok response)
    (hreceipt : response.receipt = some jws) :
    ∃ registered, ReceiptFrom x sv env deployment request response.result jws registered := by
  cases deployment with
  | stateless =>
    obtain ⟨_, hvalid, h⟩ := bind_eq_ok.mp h
    obtain ⟨report, hreport, h⟩ := bind_eq_ok.mp h
    obtain ⟨receipt, hbuilt, h⟩ := bind_eq_ok.mp h
    cases h
    cases hreceipt
    obtain ⟨hpasses, htoken⟩ := buildReceiptIfRequested_some (mapError_eq_ok.mp hbuilt)
    exact ⟨false, mapError_eq_ok.mp hvalid, mapError_eq_ok.mp hreport, hpasses, htoken, rfl⟩
  | postgres db orgCtx =>
    obtain ⟨_, hvalid, h⟩ := bind_eq_ok.mp h
    obtain ⟨registered, hbound, h⟩ := bind_eq_ok.mp h
    obtain ⟨_, hepoch, h⟩ := bind_eq_ok.mp h
    obtain ⟨report, hreport, h⟩ := bind_eq_ok.mp h
    obtain ⟨verificationId, -, h⟩ := bind_eq_ok.mp h
    obtain ⟨⟨receipt, receiptId⟩, hbuilt, h⟩ := bind_eq_ok.mp h
    cases h
    cases hreceipt
    obtain ⟨hpasses, htoken⟩ := storeReceipt_some hbuilt
    exact ⟨registered, mapError_eq_ok.mp hvalid, mapError_eq_ok.mp hreport, hpasses, htoken,
      hbound, hepoch⟩

theorem verifyHandler_attests {x : Crates} {sv : ManifestSerde} {env : PlatformEnv}
    {deployment : Deployment} {request : VerifyRequest} {response : VerifyResponse} {jws : String}
    (h : verifyHandler x sv env deployment request = .ok response)
    (hreceipt : response.receipt = some jws) :
    ∃ claims m hashes, signReceiptJws env claims = .ok jws ∧
      Attested x sv request claims m hashes := by
  obtain ⟨registered, hfrom⟩ := verifyHandler_receipt h hreceipt
  obtain ⟨m, hashes, hattested⟩ :=
    attested_of_report env registered hfrom.valid hfrom.reported hfrom.passes
  exact ⟨_, m, hashes, hfrom.token, hattested⟩

/-- A receipt of the platform attests what the parsed manifest and the registry bear out. -/
theorem verifyHandler_receipt_sound {x : Crates} {sv : ManifestSerde} (hsv : sv.Lawful)
    {env : PlatformEnv} {deployment : Deployment} {request : VerifyRequest}
    {response : VerifyResponse} {jws : String}
    (h : verifyHandler x sv env deployment request = .ok response)
    (hreceipt : response.receipt = some jws) :
    ∃ claims m hashes, signReceiptJws env claims = .ok jws ∧
      Attested x sv request claims m hashes ∧ RegistryBacks deployment request claims m := by
  obtain ⟨registered, hfrom⟩ := verifyHandler_receipt h hreceipt
  obtain ⟨m, hashes, hattested⟩ :=
    attested_of_report env registered hfrom.valid hfrom.reported hfrom.passes
  refine ⟨_, m, hashes, hfrom.token, hattested, ?_⟩
  cases deployment with
  | stateless => exact hfrom.registry
  | postgres db orgCtx =>
    obtain ⟨hbound, hepoch⟩ := hfrom.registry
    constructor
    · intro row hrow hpub floor hfloor
      exact UInt32.le_trans (checkEpoch_eq_ok hepoch hrow hpub hfloor)
        (archiveEpoch_le hsv hattested.parsed)
    · intro hregistered
      have hregistered : registered = true := hregistered
      subst hregistered
      obtain ⟨row, hrow, horg, hid, hpub⟩ := bindDevice_eq_ok hbound
      refine ⟨row, hrow, horg, hid, ?_, hpub⟩
      show row.deviceId = request.options.deviceId.getD "unknown_device"
      rw [← hid, Option.getD_some]

/-- A reader that knows one manifest by its version and its epoch. -/
def sampleSerde (m : TrstManifest) : ManifestSerde where
  fromValue v :=
    if v.keyEpoch = m.device.keyEpoch.map UInt32.toUInt64 ∧
        (v.get "trst_version").bind JsonValue.asStr = some m.trstVersion then .ok m
    else .error "missing field"
  toText _ := "manifest"

theorem sampleSerde_toValue (m : TrstManifest) : (sampleSerde m).fromValue m.toValue = .ok m := by
  unfold sampleSerde
  simp only
  rw [if_pos ⟨m.keyEpoch_toValue, by rw [m.get_toValue_version]; rfl⟩]

theorem sampleSerde_lawful (m : TrstManifest) : (sampleSerde m).Lawful where
  keyEpoch v m' n h hraw := by
    unfold sampleSerde at h
    simp only at h
    split at h
    next hsame =>
      cases h
      rw [hsame.1, Option.map_eq_some_iff] at hraw
      obtain ⟨e, hepoch, rfl⟩ := hraw
      exact ⟨e, hepoch, rfl⟩
    next => cases h

theorem isEmptyManifest_of_get {v w : JsonValue} {key : String} (h : v.get key = some w) :
    v.isEmptyManifest = false := by
  cases v with
  | object fields =>
    cases fields with
    | nil => cases h
    | cons f rest => rfl
  | _ => cases h

theorem matchesHashRegex_formatB3 (digest : Digest) : matchesHashRegex (formatB3 digest) = true := by
  unfold matchesHashRegex formatB3
  rw [Texts.stripPrefix_append]
  simp only [Bool.and_eq_true, beq_iff_eq, List.all_eq_true]
  exact ⟨by rw [Numerals.hexEncode_length, digest.property], isLowerHex_hexEncode⟩

theorem validateSegmentHashes_digestsFrom {x : Crates} (i index : Nat) (files : List Bytes) :
    validateSegmentHashes i (digestsFrom x index files) = .ok () := by
  induction files generalizing i index with
  | nil => rfl
  | cons bytes rest ih =>
    rw [digestsFrom]
    unfold validateSegmentHashes
    rw [matchesHashRegex_formatB3]
    exact ih (i + 1) (index + 1)

theorem validateVerifyRequestFull_emitted {x : Crates} {m : TrstManifest} {files : List Bytes}
    {devicePub : String} {options : VerifyOptions} (hfiles : files ≠ []) (hpub : devicePub ≠ "") :
    validateVerifyRequestFull ⟨devicePub, m.toValue, digestsFrom x 0 files, options⟩ = .ok () := by
  have hsegments : (digestsFrom x 0 files).isEmpty = false := by
    obtain ⟨bytes, rest, rfl⟩ := List.exists_cons_of_ne_nil hfiles
    rfl
  have hempty := isEmptyManifest_of_get m.get_toValue_device
  refine bind_eq_ok.mpr ⟨(), failWhen_eq_ok.mpr hsegments, bind_eq_ok.mpr ⟨(), failWhen_eq_ok.mpr ?_,
    bind_eq_ok.mpr ⟨(), failWhen_eq_ok.mpr hempty, validateSegmentHashes_digestsFrom 0 0 files⟩⟩⟩
  simpa using hpub

def samplePlatform : PlatformEnv where
  keys := ⟨"platform-1", fun _ => .ok "header.payload.signature"⟩
  receiptTtlSecs := 3600
  nowRfc3339 := "2026-01-01T00:01:00Z"
  nowUnix := 1767225660
  requestUuid := "00000000000000000000000000000001"
  receiptUuid := "00000000000000000000000000000002"

/-- A registry with one device, whose floor is the first epoch. -/
def sampleRegistry (orgId deviceId devicePub : String) : DeviceRegistry where
  rows := [⟨"device-1", orgId, deviceId, devicePub, none, some 0⟩]
  uniqueId := by simp
  uniquePub := by simp

def sampleDb (orgId deviceId devicePub : String) : PlatformDb where
  registry := sampleRegistry orgId deviceId devicePub
  deviceFault := none
  revocationFault := none
  createVerification := .ok "verification-1"
  createReceipt := .ok "receipt-1"

theorem sampleDb_binds {request : VerifyRequest} {orgId deviceId : String}
    (hid : request.options.deviceId = some deviceId) :
    bindDevice (sampleDb orgId deviceId request.devicePub) (some orgId) request = .ok true := by
  have hfound : (sampleRegistry orgId deviceId request.devicePub).getDeviceWithPub orgId deviceId =
      some ("device-1", request.devicePub) := by
    simp [DeviceRegistry.getDeviceWithPub, sampleRegistry]
  unfold bindDevice
  simp only [hid]
  refine bind_eq_ok.mpr ⟨some ("device-1", request.devicePub), ?_, if_neg (by simp)⟩
  exact mapError_eq_ok.mpr (congrArg Except.ok hfound)

theorem sampleDb_allows (orgId deviceId : String) (request : VerifyRequest) :
    checkEpoch (sampleDb orgId deviceId request.devicePub) request = .ok () := by
  have hfound : (sampleRegistry orgId deviceId request.devicePub).getDeviceRevocationByPub
      request.devicePub = some ⟨none, some (Int32.toUInt32 0)⟩ := by
    simp [DeviceRegistry.getDeviceRevocationByPub, sampleRegistry]
  have hfloor : Int32.toUInt32 0 ≤ archiveEpoch request.manifest := UInt32.zero_le
  have hallowed : epochAllowed (some (Int32.toUInt32 0)) (archiveEpoch request.manifest) = true :=
    decide_eq_true hfloor
  refine bind_eq_ok.mpr ⟨_, mapError_eq_ok.mpr (congrArg Except.ok hfound), failWhen_eq_ok.mpr ?_⟩
  rw [hallowed]
  rfl

/-- The request that a device emits for its own archive, which the verifier passes. -/
theorem sample_emitted :
    ∃ (a : SignedArchive) (request : VerifyRequest) (report : VerifyReport),
      request.options = ⟨true, some a.manifest.device.id⟩ ∧
      validateVerifyRequestFull request = .ok () ∧
      verifyToReport sampleCrates (sampleSerde a.manifest) request.manifest request.segments
        request.devicePub = .ok report ∧
      report.passes = true := by
  have hx := sampleCrates_signsLawfully
  have hp : Plain "generic" := by unfold Plain; decide
  obtain ⟨a, result, ha, -, hfinal, -⟩ := sample_wrap hx.base64 hx.publicLength sampleFigures
    (sampleKey 1) sampleCrates_signsShort
  obtain ⟨hstored, hcount, -, -, -⟩ := sample_made sampleFigures _ (sampleKey 1)
    sampleContent_wellFormed hp ha
  obtain ⟨-, hfiles, hkey, hchain⟩ := sample_signedChain hx sampleCrates_signsShort hp ha hfinal
  have halgorithm : Texts.startsWith ((sampleKey 1).public sampleCrates) "ed25519:" = true :=
    Texts.startsWith_append _ _
  obtain ⟨report, hreport, hpasses⟩ := (emitted_passes_iff (sampleSerde_toValue a.manifest)
    (Or.inl halgorithm) hfiles.length_eq (by omega)).mpr ⟨hkey, hchain⟩
  have hpub : (sampleKey 1).public sampleCrates ≠ "" := by
    intro he
    rw [he] at halgorithm
    exact absurd halgorithm (by decide)
  exact ⟨a, ⟨(sampleKey 1).public sampleCrates, a.manifest.toValue,
    digestsFrom sampleCrates 0 a.stored, ⟨true, some a.manifest.device.id⟩⟩, report, rfl,
    validateVerifyRequestFull_emitted hstored hpub, hreport, hpasses⟩

theorem verifyHandler_receipt_sample :
    ∃ (a : SignedArchive) (request : VerifyRequest) (response : VerifyResponse),
      request.options.deviceId = some a.manifest.device.id ∧
      verifyHandler sampleCrates (sampleSerde a.manifest) samplePlatform
        (.postgres (sampleDb "org-1" a.manifest.device.id request.devicePub) (some "org-1")) request =
        .ok response ∧
      response.receipt = some "header.payload.signature" ∧
      ∃ claims m hashes,
        signReceiptJws samplePlatform claims = .ok "header.payload.signature" ∧
        Attested sampleCrates (sampleSerde a.manifest) request claims m hashes ∧
        RegistryBacks (.postgres (sampleDb "org-1" a.manifest.device.id request.devicePub)
          (some "org-1")) request claims m := by
  obtain ⟨a, request, report, hoptions, hvalid, hreport, hpasses⟩ := sample_emitted
  obtain ⟨hsignature, hcontinuity⟩ := Bool.and_eq_true_iff.mp hpasses
  have hhandled : verifyHandler sampleCrates (sampleSerde a.manifest) samplePlatform
      (.postgres (sampleDb "org-1" a.manifest.device.id request.devicePub) (some "org-1")) request =
      .ok ⟨"verification-1/receipt-1", report, some "header.payload.signature"⟩ := by
    refine bind_eq_ok.mpr ⟨(), mapError_eq_ok.mpr hvalid,
      bind_eq_ok.mpr ⟨true, ?_, bind_eq_ok.mpr ⟨(), ?_, bind_eq_ok.mpr
        ⟨report, mapError_eq_ok.mpr hreport, bind_eq_ok.mpr ⟨"verification-1", rfl, bind_eq_ok.mpr
          ⟨(some "header.payload.signature", some "receipt-1"), ?_, rfl⟩⟩⟩⟩⟩⟩
    · exact sampleDb_binds (by rw [hoptions])
    · exact sampleDb_allows _ _ request
    · unfold storeReceipt
      rw [hoptions, hsignature, hcontinuity]
      rfl
  refine ⟨a, request, _, by rw [hoptions], hhandled, rfl, ?_⟩
  exact verifyHandler_receipt_sound (sampleSerde_lawful a.manifest) hhandled rfl

end Sealedge
