import Sealedge.Archive
import Sealedge.ManifestValue
import Mathlib.Data.List.Sort

namespace Sealedge

open Fallible

/-- The derived reader of the manifest on JSON values, and the text of a value. -/
structure ManifestSerde where
  fromValue : JsonValue → Except String TrstManifest
  toText : JsonValue → String

/-- Documented behaviour of a derived reader: an integer under the name of a field is what the
field holds, and one that does not fit is refused. -/
structure ManifestSerde.Lawful (sv : ManifestSerde) : Prop where
  keyEpoch : ∀ v m n, sv.fromValue v = .ok m → v.keyEpoch = some n →
    ∃ e, m.device.keyEpoch = some e ∧ e.toNat = n.toNat

/-- A segment as a client submits it. -/
structure SegmentDigest where
  index : UInt32
  hash : String
  deriving DecidableEq

structure VerificationResult where
  passed : Bool
  error : Option String
  deriving DecidableEq

structure VerificationMetadata where
  totalSegments : UInt32
  verifiedSegments : UInt32
  chainTip : String
  genesisHash : String
  deriving DecidableEq

structure VerifyReport where
  signatureVerification : VerificationResult
  continuityVerification : VerificationResult
  metadata : VerificationMetadata
  deriving DecidableEq

def formatB3 (digest : Digest) : String := "b3:" ++ Numerals.hexEncode digest.val

/-- 32 bytes in hexadecimal, with or without the prefix. -/
def decodeB3Hex32 (value : String) : Option Digest :=
  match Numerals.hexDecode ((Texts.stripPrefix "b3:" value).getD value) with
  | none => none
  | some bytes => if h : bytes.length = 32 then some ⟨bytes, h⟩ else none

structure ContinuityOutcome where
  result : VerificationResult
  verifiedSegments : UInt32
  chainTip : String

section Engine

variable (x : Crates) (sv : ManifestSerde)

def ContinuityOutcome.fail (msg : String) : ContinuityOutcome where
  result := ⟨false, some msg⟩
  verifiedSegments := 0
  chainTip := formatB3 (chainGenesis x)

/-- `verify_signature` of the platform. -/
def verifySignature (m : TrstManifest) (devicePub : String) : Except String VerificationResult :=
  if !Texts.startsWith devicePub "ed25519:" && !Texts.startsWith devicePub "ecdsa-p256:" then
    .error "Device public key must have an algorithm prefix (ed25519: or ecdsa-p256:)"
  else if m.device.publicKey ≠ devicePub then
    .ok ⟨false, some "verification key does not match the manifest's device.public_key"⟩
  else
    match m.signature with
    | none => .error "Missing signature in manifest"
    | some signature =>
      match verifyManifest x devicePub (m.toCanonicalBytes x.text) signature with
      | .ok true => .ok ⟨true, none⟩
      | .ok false => .ok ⟨false, some "Signature verification failed"⟩
      | .error e => .ok ⟨false, some ("Signature verification failed: " ++ e.display)⟩

/-- The chain that the manifest declares. -/
def readChain : Nat → List SegmentInfo → Except String (List ChainSegment)
  | _, [] => .ok []
  | i, segment :: rest =>
    match decodeB3Hex32 segment.blake3Hash with
    | none => .error ("segment[" ++ i.repr ++ "] blake3_hash is not 32-byte hex")
    | some storedHash =>
      match decodeB3Hex32 segment.continuityHash with
      | none => .error ("segment[" ++ i.repr ++ "] continuity_hash is not 32-byte hex")
      | some storedContinuity => do
        let tail ← readChain (i + 1) rest
        pure (⟨i, storedHash, storedContinuity⟩ :: tail)

/-- The hash of a submitted segment as it is compared. -/
def SegmentDigest.normalized (s : SegmentDigest) : String :=
  Texts.asciiLower ((Texts.stripPrefix "b3:" s.hash).getD s.hash)

/-- Submitted segments against those of the manifest, position by position. Only the submitted
hash loses its prefix. -/
def bindSegments : Nat → List (SegmentDigest × SegmentInfo) → Except String Unit
  | _, [] => .ok ()
  | i, (cs, segment) :: rest =>
    if cs.index.toNat ≠ i then .error ("missing segment at index " ++ i.repr)
    else if cs.normalized ≠ Texts.asciiLower segment.blake3Hash then
      .error ("segment[" ++ i.repr ++ "] hash does not match the signed manifest")
    else bindSegments (i + 1) rest

def sortedByIndex (segments : List SegmentDigest) : List SegmentDigest :=
  segments.insertionSort (fun a b => a.index ≤ b.index)

def continuityChain (m : TrstManifest) (clientSegments : List SegmentDigest) :
    Except String (List ChainSegment) := do
  let chainSegments ← readChain 0 m.segments
  failWhen (clientSegments.length != m.segments.length)
    ("submitted " ++ clientSegments.length.repr ++ " segments but signed manifest declares " ++
      m.segments.length.repr)
  bindSegments 0 ((sortedByIndex clientSegments).zip m.segments)
  (validateChain x chainSegments).mapError (fun e => "continuity chain invalid: " ++ e.display)
  pure chainSegments

def verifyContinuity (m : TrstManifest) (clientSegments : List SegmentDigest) : ContinuityOutcome :=
  match continuityChain x m clientSegments with
  | .error msg => .fail x msg
  | .ok chainSegments =>
    { result := ⟨true, none⟩
      verifiedSegments := UInt32.ofNat chainSegments.length
      chainTip := formatB3 ((chainSegments.getLast?.map ChainSegment.storedContinuity).getD
        (chainGenesis x)) }

def verifyToReport (manifest : JsonValue) (segments : List SegmentDigest) (devicePub : String) :
    Except String VerifyReport := do
  let parsed ← (sv.fromValue manifest).mapError
    (fun e => "Manifest does not match the canonical .trst schema: " ++ e)
  failWhen (parsed.trstVersion != "0.2.0")
    ("unsupported archive version " ++ parsed.trstVersion ++ " (expected 0.2.0)")
  let signatureResult ← verifySignature x parsed devicePub
  let continuity := verifyContinuity x parsed segments
  pure
    { signatureVerification := signatureResult
      continuityVerification := continuity.result
      metadata :=
        { totalSegments := UInt32.ofNat parsed.segments.length
          verifiedSegments := continuity.verifiedSegments
          chainTip := continuity.chainTip
          genesisHash := formatB3 (chainGenesis x) } }

/-- The continuity values over some hashes, from a first one on. -/
def chainLinks : Digest → List Digest → List Digest
  | _, [] => []
  | previous, hash :: rest =>
    chainNext x previous hash :: chainLinks (chainNext x previous hash) rest

end Engine

theorem decodeB3Hex32_eq_some {value : String} {digest : Digest} :
    decodeB3Hex32 value = some digest ↔
      Numerals.hexDecode ((Texts.stripPrefix "b3:" value).getD value) = some digest.val := by
  unfold decodeB3Hex32
  cases Numerals.hexDecode ((Texts.stripPrefix "b3:" value).getD value) with
  | none => simp
  | some bytes =>
    by_cases h : bytes.length = 32
    · simp [h, Subtype.ext_iff]
    · have hne : bytes ≠ digest.val := fun he => h (he ▸ digest.property)
      simp [h, hne]

theorem verifySignature_passed {x : Crates} {m : TrstManifest} {devicePub : String}
    {r : VerificationResult} :
    verifySignature x m devicePub = .ok r ∧ r.passed = true ↔
      (Texts.startsWith devicePub "ed25519:" = true ∨ Texts.startsWith devicePub "ecdsa-p256:" = true) ∧
        m.device.publicKey = devicePub ∧ r = ⟨true, none⟩ ∧ ∃ signature,
          m.signature = some signature ∧
          verifyManifest x devicePub (m.toCanonicalBytes x.text) signature = .ok true := by
  unfold verifySignature
  by_cases hkey : !Texts.startsWith devicePub "ed25519:" && !Texts.startsWith devicePub "ecdsa-p256:"
  · rw [if_pos hkey]
    simp only [Bool.and_eq_true, Bool.not_eq_true'] at hkey
    simp [hkey.1, hkey.2]
  · rw [if_neg hkey]
    have hprefixed : Texts.startsWith devicePub "ed25519:" = true ∨
        Texts.startsWith devicePub "ecdsa-p256:" = true := by
      simp only [Bool.and_eq_true, Bool.not_eq_true', not_and, Bool.not_eq_false] at hkey
      by_cases h : Texts.startsWith devicePub "ed25519:" = true
      · exact Or.inl h
      · exact Or.inr (hkey (by simpa using h))
    by_cases hsame : m.device.publicKey = devicePub
    · rw [if_neg (by simp [hsame])]
      cases hsig : m.signature with
      | none => simp
      | some signature =>
        cases hverify : verifyManifest x devicePub (m.toCanonicalBytes x.text) signature with
        | error e =>
          simp [hprefixed, hsame, hverify]
          rintro rfl
          simp
        | ok valid =>
          cases valid with
          | false =>
            simp [hprefixed, hsame, hverify]
            rintro rfl
            simp
          | true =>
            simp only [hprefixed, hsame, true_and, Option.some.injEq, exists_eq_left', hverify,
              and_true]
            constructor
            · rintro ⟨h, -⟩
              exact (Except.ok.inj h).symm
            · rintro rfl
              exact ⟨rfl, rfl⟩
    · rw [if_pos hsame]
      simp only [hsame, false_and, and_false, iff_false, not_and]
      intro h
      rw [← Except.ok.inj h]
      simp

/-- Segments that declare the hashes of a chain and its continuity values. -/
inductive DeclaresChain (x : Crates) : Digest → List SegmentInfo → List Digest → Prop
  | nil {previous : Digest} : DeclaresChain x previous [] []
  | cons {previous hash : Digest} {segment : SegmentInfo} {rest : List SegmentInfo}
      {hashes : List Digest} (named : decodeB3Hex32 segment.blake3Hash = some hash)
      (linked : decodeB3Hex32 segment.continuityHash = some (chainNext x previous hash))
      (tail : DeclaresChain x (chainNext x previous hash) rest hashes) :
      DeclaresChain x previous (segment :: rest) (hash :: hashes)

section Continuity

variable {x : Crates}

theorem DeclaresChain.length_eq {previous : Digest} {segments : List SegmentInfo}
    {hashes : List Digest} (h : DeclaresChain x previous segments hashes) :
    segments.length = hashes.length := by
  induction h with
  | nil => rfl
  | cons _ _ _ ih => simp [ih]

theorem readChain_cons_eq_ok {i : Nat} {segment : SegmentInfo} {rest : List SegmentInfo}
    {chain : List ChainSegment} :
    readChain i (segment :: rest) = .ok chain ↔
      ∃ hash link tail, decodeB3Hex32 segment.blake3Hash = some hash ∧
        decodeB3Hex32 segment.continuityHash = some link ∧ readChain (i + 1) rest = .ok tail ∧
        chain = ⟨i, hash, link⟩ :: tail := by
  generalize hnext : readChain (i + 1) rest = next
  unfold readChain
  rw [hnext]
  cases hhash : decodeB3Hex32 segment.blake3Hash with
  | none => simp
  | some hash =>
    cases hlink : decodeB3Hex32 segment.continuityHash with
    | none => simp
    | some link =>
      simp only [bind_eq_ok, Option.some.injEq, exists_and_left, exists_eq_left']
      constructor
      · rintro ⟨tail, htail, h⟩
        exact ⟨tail, htail, (Except.ok.inj h).symm⟩
      · rintro ⟨tail, htail, rfl⟩
        exact ⟨tail, htail, rfl⟩

theorem checkIndices_readChain {i : Nat} {segments : List SegmentInfo} {chain : List ChainSegment}
    (h : readChain i segments = .ok chain) : checkIndices i chain = .ok () := by
  induction segments generalizing i chain with
  | nil =>
    cases h
    rfl
  | cons segment rest ih =>
    obtain ⟨hash, link, tail, -, -, htail, rfl⟩ := readChain_cons_eq_ok.mp h
    simp [checkIndices, ih htail]

/-- The declared chain is read and follows from a first value exactly when the segments declare
it, and the values it ends with are the continuity values of its hashes. -/
theorem chain_checked_iff {i : Nat} {previous : Digest} {segments : List SegmentInfo}
    {links : List Digest} :
    (∃ chain, readChain i segments = .ok chain ∧ checkContinuity x previous chain = .ok () ∧
        chain.map ChainSegment.storedContinuity = links) ↔
      ∃ hashes, DeclaresChain x previous segments hashes ∧ chainLinks x previous hashes = links := by
  induction segments generalizing i previous links with
  | nil =>
    constructor
    · rintro ⟨chain, hread, -, rfl⟩
      cases hread
      exact ⟨[], .nil, rfl⟩
    · rintro ⟨hashes, hdeclares, rfl⟩
      cases hdeclares
      exact ⟨[], rfl, rfl, rfl⟩
  | cons segment rest ih =>
    constructor
    · rintro ⟨chain, hread, hcheck, rfl⟩
      obtain ⟨hash, link, tail, hnamed, hlinked, htail, rfl⟩ := readChain_cons_eq_ok.mp hread
      simp only [checkContinuity] at hcheck
      split at hcheck
      next => cases hcheck
      next hlink =>
        have hlink := not_not.mp hlink
        subst hlink
        obtain ⟨hashes, hdeclares, hlinks⟩ := ih.mp ⟨tail, htail, hcheck, rfl⟩
        refine ⟨hash :: hashes, .cons hnamed hlinked hdeclares, ?_⟩
        rw [chainLinks, hlinks]
        rfl
    · rintro ⟨hashes, hdeclares, rfl⟩
      cases hdeclares with
      | @cons _ hash _ _ hashes named linked htail =>
        obtain ⟨tail, hread, hcheck, hlinks⟩ := ih.mpr ⟨_, htail, rfl⟩
        refine ⟨_, readChain_cons_eq_ok.mpr ⟨_, _, _, named, linked, hread, rfl⟩, ?_, ?_⟩
        · unfold checkContinuity
          rw [if_neg (by simp)]
          exact hcheck
        · rw [chainLinks, ← hlinks]
          rfl

/-- Submitted segments pass exactly when they are numbered from the first position on and carry
the hashes of the manifest up to the case of letters. -/
theorem bindSegments_eq_ok {i : Nat} {submitted : List SegmentDigest} {segments : List SegmentInfo}
    (hlen : submitted.length = segments.length) :
    bindSegments i (submitted.zip segments) = .ok () ↔
      submitted.map (fun s => s.index.toNat) = List.range' i submitted.length ∧
        submitted.map SegmentDigest.normalized =
          segments.map (fun s => Texts.asciiLower s.blake3Hash) := by
  induction submitted generalizing i segments with
  | nil =>
    cases segments with
    | nil => simp [bindSegments]
    | cons segment rest => simp at hlen
  | cons cs rest ih =>
    cases segments with
    | nil => simp at hlen
    | cons segment segments =>
      have htail := ih (i := i + 1) (Nat.succ.inj hlen)
      rw [List.zip_cons_cons]
      unfold bindSegments
      by_cases hindex : cs.index.toNat = i
      · by_cases hhash : cs.normalized = Texts.asciiLower segment.blake3Hash
        · rw [if_neg (by simp [hindex]), if_neg (by simp [hhash]), htail]
          simp [List.range'_succ, hindex, hhash]
        · rw [if_neg (by simp [hindex]), if_pos hhash]
          simp [hhash]
      · rw [if_pos hindex]
        simp [List.range'_succ, hindex]

/-- What a passed continuity check has established. -/
structure ContinuityHolds (x : Crates) (m : TrstManifest) (client : List SegmentDigest)
    (hashes : List Digest) : Prop where
  declared : DeclaresChain x (chainGenesis x) m.segments hashes
  counted : client.length = m.segments.length
  numbered : (sortedByIndex client).map (fun s => s.index.toNat) = List.range client.length
  named : (sortedByIndex client).map SegmentDigest.normalized =
    m.segments.map (fun s => Texts.asciiLower s.blake3Hash)

theorem sortedByIndex_perm (segments : List SegmentDigest) :
    (sortedByIndex segments).Perm segments :=
  List.perm_insertionSort _ segments

theorem continuityChain_eq_ok {m : TrstManifest} {client : List SegmentDigest}
    {links : List Digest} :
    (∃ chain, continuityChain x m client = .ok chain ∧
        chain.map ChainSegment.storedContinuity = links) ↔
      ∃ hashes, ContinuityHolds x m client hashes ∧
        chainLinks x (chainGenesis x) hashes = links := by
  have hlen := (sortedByIndex_perm client).length_eq
  constructor
  · rintro ⟨chain, h, hlinks⟩
    obtain ⟨chain', hread, h⟩ := bind_eq_ok.mp h
    obtain ⟨_, hcount, h⟩ := bind_eq_ok.mp h
    obtain ⟨_, hbind, h⟩ := bind_eq_ok.mp h
    obtain ⟨_, hvalid, h⟩ := bind_eq_ok.mp h
    cases h
    have hcount : client.length = m.segments.length := by simpa using failWhen_eq_ok.mp hcount
    obtain ⟨hnumbered, hnamed⟩ := (bindSegments_eq_ok (hlen.trans hcount)).mp hbind
    have hvalid := mapError_eq_ok.mp hvalid
    have hcheck : checkContinuity x (chainGenesis x) chain = .ok () := by
      unfold validateChain at hvalid
      split at hvalid
      next hempty =>
        cases List.isEmpty_iff.mp hempty
        rfl
      next => exact (bind_eq_ok.mp hvalid).choose_spec.2
    obtain ⟨hashes, hdeclares, hvalues⟩ := chain_checked_iff.mp ⟨chain, hread, hcheck, hlinks⟩
    rw [hlen, ← List.range_eq_range'] at hnumbered
    exact ⟨hashes, ⟨hdeclares, hcount, hnumbered, hnamed⟩, hvalues⟩
  · rintro ⟨hashes, h, hlinks⟩
    obtain ⟨chain, hread, hcheck, hvalues⟩ := chain_checked_iff.mpr ⟨hashes, h.declared, hlinks⟩
    have hnumbered := h.numbered
    rw [List.range_eq_range', ← hlen] at hnumbered
    refine ⟨chain, bind_eq_ok.mpr ⟨chain, hread, bind_eq_ok.mpr ⟨(), failWhen_eq_ok.mpr ?_,
      bind_eq_ok.mpr ⟨(), (bindSegments_eq_ok (hlen.trans h.counted)).mpr ⟨hnumbered, h.named⟩,
        bind_eq_ok.mpr ⟨(), mapError_eq_ok.mpr ?_, rfl⟩⟩⟩⟩, hvalues⟩
    · simp [h.counted]
    · unfold validateChain
      split
      next => rfl
      next => exact bind_eq_ok.mpr ⟨(), checkIndices_readChain hread, hcheck⟩

theorem verifyContinuity_passed {m : TrstManifest} {client : List SegmentDigest} :
    (verifyContinuity x m client).result.passed = true ↔
      ∃ hashes, ContinuityHolds x m client hashes ∧ (verifyContinuity x m client).chainTip =
        formatB3 ((chainLinks x (chainGenesis x) hashes).getLast?.getD (chainGenesis x)) := by
  unfold verifyContinuity
  constructor
  · intro h
    cases hchain : continuityChain x m client with
    | error msg =>
      rw [hchain] at h
      cases h
    | ok chain =>
      obtain ⟨hashes, hholds, hlinks⟩ := continuityChain_eq_ok.mp ⟨chain, hchain, rfl⟩
      refine ⟨hashes, hholds, ?_⟩
      rw [hlinks, List.getLast?_map]
  · rintro ⟨hashes, hholds, -⟩
    obtain ⟨chain, hchain, -⟩ := continuityChain_eq_ok.mpr ⟨hashes, hholds, rfl⟩
    rw [hchain]

end Continuity

/-- What a report that passes both checks has established. -/
structure ReportPasses (x : Crates) (m : TrstManifest) (client : List SegmentDigest)
    (devicePub signature : String) (hashes : List Digest) : Prop where
  algorithm : Texts.startsWith devicePub "ed25519:" = true ∨
    Texts.startsWith devicePub "ecdsa-p256:" = true
  version : m.trstVersion = "0.2.0"
  key : m.device.publicKey = devicePub
  signed : m.signature = some signature
  verified : verifyManifest x devicePub (m.toCanonicalBytes x.text) signature = .ok true
  continuity : ContinuityHolds x m client hashes

def VerifyReport.passes (report : VerifyReport) : Bool :=
  report.signatureVerification.passed && report.continuityVerification.passed

section Report

variable {x : Crates} {sv : ManifestSerde} {manifest : JsonValue} {client : List SegmentDigest}
  {devicePub : String}

theorem reportPasses_of_verifyToReport {report : VerifyReport}
    (h : verifyToReport x sv manifest client devicePub = .ok report)
    (hpasses : report.passes = true) :
    ∃ m signature hashes, sv.fromValue manifest = .ok m ∧
      ReportPasses x m client devicePub signature hashes ∧ report.metadata.chainTip =
        formatB3 ((chainLinks x (chainGenesis x) hashes).getLast?.getD (chainGenesis x)) := by
  obtain ⟨m, hparsed, h⟩ := bind_eq_ok.mp h
  obtain ⟨_, hversion, h⟩ := bind_eq_ok.mp h
  obtain ⟨r, hsignature, h⟩ := bind_eq_ok.mp h
  cases h
  obtain ⟨hr, hcontinuity⟩ := Bool.and_eq_true_iff.mp hpasses
  have hversion := failWhen_eq_ok.mp hversion
  obtain ⟨halgorithm, hkey, -, signature, hsigned, hverified⟩ :=
    verifySignature_passed.mp ⟨hsignature, hr⟩
  obtain ⟨hashes, hholds, htip⟩ := verifyContinuity_passed.mp hcontinuity
  exact ⟨m, signature, hashes, mapError_eq_ok.mp hparsed, ⟨halgorithm, by simpa using hversion,
    hkey, hsigned, hverified, hholds⟩, htip⟩

theorem verifyToReport_of_reportPasses {m : TrstManifest} {signature : String}
    {hashes : List Digest} (hparsed : sv.fromValue manifest = .ok m)
    (h : ReportPasses x m client devicePub signature hashes) :
    ∃ report, verifyToReport x sv manifest client devicePub = .ok report ∧ report.passes = true := by
  have hsignature := verifySignature_passed.mpr
    ⟨h.algorithm, h.key, rfl, signature, h.signed, h.verified⟩
  have hpassed : (verifyContinuity x m client).result.passed = true := by
    obtain ⟨chain, hchain, -⟩ := continuityChain_eq_ok.mpr ⟨hashes, h.continuity, rfl⟩
    unfold verifyContinuity
    rw [hchain]
  refine ⟨_, bind_eq_ok.mpr ⟨m, mapError_eq_ok.mpr hparsed, bind_eq_ok.mpr ⟨(), failWhen_eq_ok.mpr ?_,
    bind_eq_ok.mpr ⟨_, hsignature.1, rfl⟩⟩⟩, ?_⟩
  · simp [h.version]
  · exact Bool.and_eq_true_iff.mpr ⟨rfl, hpassed⟩

end Report

end Sealedge
