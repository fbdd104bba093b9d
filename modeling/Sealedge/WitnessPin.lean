import Sealedge.ChronicleTip

namespace Sealedge

open Fallible HashChain

theorem crossCheck_eq_ok {entries : List Entry} {last : Entry} {w : Walk} {r : WitnessedTip}
    {witnessed : UInt64 × String} :
    crossCheck entries last w r = .ok witnessed ↔
      r.sequence ≤ last.seq ∧ w.signerAtSeq[r.sequence.toNat]? = some r.devicePub ∧
      (∃ e, entries[r.sequence.toNat]? = some e ∧ r.tip = formatArchiveId e.digest) ∧
      witnessed = (r.sequence, r.tip) := by
  unfold crossCheck
  constructor
  · intro h
    obtain ⟨_, hbehind, h⟩ := bind_eq_ok.mp h
    have hbehind := failWhen_eq_ok.mp hbehind
    have hle : r.sequence ≤ last.seq := by simpa using hbehind
    cases hsigner : w.signerAtSeq[r.sequence.toNat]? with
    | none =>
      simp only [hsigner] at h
      cases h
    | some signer =>
      simp only [hsigner] at h
      obtain ⟨_, hsame, h⟩ := bind_eq_ok.mp h
      have hsame : r.devicePub = signer := by simpa using failWhen_eq_ok.mp hsame
      cases hentry : entries[r.sequence.toNat]? with
      | none =>
        simp only [hentry] at h
        cases h
      | some e =>
        simp only [hentry] at h
        obtain ⟨_, htip, h⟩ := bind_eq_ok.mp h
        have htip : r.tip = formatArchiveId e.digest := by simpa using failWhen_eq_ok.mp htip
        exact ⟨hle, by rw [hsame], ⟨e, rfl, htip⟩, (Except.ok.inj h).symm⟩
  · rintro ⟨hle, hsigner, ⟨e, hentry, htip⟩, rfl⟩
    refine bind_eq_ok.mpr ⟨(), failWhen_eq_ok.mpr (by simpa using hle), ?_⟩
    simp only [hsigner]
    refine bind_eq_ok.mpr ⟨(), failWhen_eq_ok.mpr (by simp), ?_⟩
    simp only [hentry]
    exact bind_eq_ok.mpr ⟨(), failWhen_eq_ok.mpr (by simp [htip]), rfl⟩

section Agreement

variable {x : TextCodec} (hx : x.Lawful)

include hx

theorem SameEntry.installs_eq {a b : Entry} (h : SameEntry x a b) (signer : String) :
    (match a.kind with
      | .archive _ => signer
      | .rotation r => r.new.publicKey) =
    match b.kind with
      | .archive _ => signer
      | .rotation r => r.new.publicKey := by
  rcases h.contents hx with ⟨m, m', ha, hb, -⟩ | ⟨r, r', ha, hb, hsame⟩
  · rw [ha, hb]
  · rw [ha, hb]
    exact congrArg (fun rec => rec.new.publicKey) hsame

/-- Chronicles that agree in their first entries have one key in force after them. -/
theorem activeKey_eq_of_agree {genesis : String} {entries entries' : List Entry} {n : Nat}
    (hlen : n ≤ entries.length) (hlen' : n ≤ entries'.length)
    (hagree : ∀ (i : Nat) (a b : Entry), i < n → entries[i]? = some a → entries'[i]? = some b →
      SameEntry x a b) : activeKey genesis entries n = activeKey genesis entries' n := by
  induction n with
  | zero => rfl
  | succ n ih =>
    have ha : entries[n]? = some entries[n] := List.getElem?_eq_getElem hlen
    have hb : entries'[n]? = some entries'[n] := List.getElem?_eq_getElem hlen'
    have hsame := hagree n _ _ (by omega) ha hb
    have hbefore := ih (by omega) (by omega)
      (fun i a b hi => hagree i a b (by omega))
    rw [activeKey_succ genesis ha, activeKey_succ genesis hb, hbefore]
    exact hsame.installs_eq hx _

end Agreement

section Pins

variable {x : Crates} {st st' : Storage} {genesis : String} {entries entries' : List Entry}
  {active active' : Nat → String}

theorem Walk.signerAtSeq_getElem? (genesis : String) (entries : List Entry) {i : Nat}
    (hi : i < entries.length) :
    ((Walk.start genesis).past entries).signerAtSeq[i]? =
      some (activeKey genesis entries (i + 1)) := by
  rw [Walk.past_signerAtSeq]
  simp [Walk.start, hi, activeKey]

/-- Entries at one position with one identifier have the same history behind them. -/
theorem agree_of_ident_eq (hx : x.text.Lawful)
    (h : ChronicleHolds x st genesis entries active)
    (h' : ChronicleHolds x st' genesis entries' active')
    (hinj : Set.InjOn x.blake3 (hashedBytes x.text entries ∪ hashedBytes x.text entries'))
    {n : Nat} {e e' : Entry} (he : entries[n]? = some e) (he' : entries'[n]? = some e')
    (hident : e.ident x = e'.ident x) :
    ∀ (i : Nat) (a b : Entry), i ≤ n → entries[i]? = some a → entries'[i]? = some b →
      SameEntry x.text a b := by
  have htake : entries.take (n + 1) = entries.take n ++ [e] := by
    rw [List.take_add_one, he]
    rfl
  have htake' : entries'.take (n + 1) = entries'.take n ++ [e'] := by
    rw [List.take_add_one, he']
    rfl
  have hlinked : Linked (Entry.ident x) (fun e => e.kind.prevArchiveHash)
      (entries.take n ++ [e]) := by
    have hwhole := h.linked
    rw [← List.take_append_drop (n + 1) entries, htake] at hwhole
    exact hwhole.prefix (by simp)
  have hlinked' : Linked (Entry.ident x) (fun e => e.kind.prevArchiveHash)
      (entries'.take n ++ [e']) := by
    have hwhole := h'.linked
    rw [← List.take_append_drop (n + 1) entries', htake'] at hwhole
    exact hwhole.prefix (by simp)
  have hsubset : ∀ {l l' : List Entry}, l <+: l' → hashedBytes x.text l ⊆ hashedBytes x.text l' := by
    rintro l l' hbegins bytes ⟨u, hu, hbytes⟩
    exact ⟨u, hbegins.subset hu, hbytes⟩
  have hsmaller : Set.InjOn x.blake3
      (hashedBytes x.text (entries.take n ++ [e]) ∪ hashedBytes x.text (entries'.take n ++ [e'])) := by
    refine hinj.mono (Set.union_subset_union (hsubset ?_) (hsubset ?_))
    · rw [← htake]
      exact List.take_prefix _ _
    · rw [← htake']
      exact List.take_prefix _ _
  have hsame := sameEntries_of_ident_eq hx hlinked hlinked' hsmaller hident
  rw [← htake, ← htake'] at hsame
  intro i a b hi ha hb
  have ha' : (entries.take (n + 1))[i]? = some a := by
    rw [List.getElem?_take_of_lt (by omega)]
    exact ha
  have hb' : (entries'.take (n + 1))[i]? = some b := by
    rw [List.getElem?_take_of_lt (by omega)]
    exact hb
  exact forall₂_getElem? hsame ha' hb'

/-- An entry of an accepted chronicle stands at the position of its sequence. -/
theorem ChronicleHolds.getElem?_of_mem (h : ChronicleHolds x st genesis entries active) {e : Entry}
    (he : e ∈ entries) : entries[e.seq.toNat]? = some e := by
  obtain ⟨i, hi⟩ := List.mem_iff_getElem?.mp he
  rw [h.sequences i e hi]
  exact hi

theorem ChronicleHolds.last_seq (h : ChronicleHolds x st genesis entries active) {last : Entry}
    (hlast : entries.getLast? = some last) : last.seq.toNat + 1 = entries.length := by
  rw [List.getLast?_eq_getElem?] at hlast
  have hseq := h.sequences _ _ hlast
  obtain ⟨hlt, -⟩ := List.getElem?_eq_some_iff.mp hlast
  omega

/-- With a receipt that loads, an accepted chronicle is accepted when the cross-check passes. -/
theorem Accepts.with_receipt {web : WebCodec} {args : VerifyChronicleCmd} {last : Entry} {w : Walk}
    {witnessed : Option (UInt64 × String)} (h : Accepts x st web args entries last w witnessed)
    {receipt : ReceiptFile} {jwks : Option JwksSource} {r : WitnessedTip}
    (hr : loadReceipt x web receipt jwks = .ok r) :
    (∃ report, handleVerifyChronicle x st web
        { args with witness := some receipt, witnessJwks := jwks } = .ok report) ↔
      ∃ tip, crossCheck entries last w r = .ok tip := by
  constructor
  · rintro ⟨report, hreport⟩
    obtain ⟨entries₁, last₁, w₁, witnessed₁, h₁, -⟩ := handleVerifyChronicle_eq_ok.mp hreport
    cases h.sorted.symm.trans h₁.sorted
    cases h.checked.symm.trans h₁.checked
    cases h.ends.symm.trans h₁.ends
    obtain ⟨r₁, hr₁, hcross⟩ := bind_eq_ok.mp h₁.witness
    cases hr.symm.trans hr₁
    obtain ⟨tip, htip, -⟩ := bind_eq_ok.mp hcross
    exact ⟨tip, htip⟩
  · rintro ⟨tip, htip⟩
    refine ⟨_, handleVerifyChronicle_eq_ok.mpr ⟨entries, last, w, some tip, ?_, rfl⟩⟩
    exact ⟨h.sorted, h.checked, h.ends, bind_eq_ok.mpr ⟨r, hr, bind_eq_ok.mpr ⟨tip, htip, rfl⟩⟩⟩

/-- A receipt for the entry of one chronicle passes with another chronicle of the same genesis key
exactly when that one reaches the witnessed sequence and agrees with the first up to it. -/
theorem receipt_pins_history (hx : x.text.Lawful) {web : WebCodec}
    {args args' : VerifyChronicleCmd} {report report' : ChronicleReport}
    (h : handleVerifyChronicle x st web args = .ok report)
    (h' : handleVerifyChronicle x st' web args' = .ok report')
    (hgenesis : args'.genesisKey = args.genesisKey)
    (hentries : sortedEntries x st args.paths = .ok entries)
    (hentries' : sortedEntries x st' args'.paths = .ok entries')
    (hinj : Set.InjOn x.blake3 (hashedBytes x.text entries ∪ hashedBytes x.text entries'))
    {e : Entry} (he : e ∈ entries) {receipt : ReceiptFile} {jwks : Option JwksSource}
    (hreceipt : loadReceipt x web receipt jwks =
      .ok ⟨activeKey args.genesisKey entries (e.seq.toNat + 1), e.seq, formatArchiveId e.digest⟩) :
    (∃ witnessed, handleVerifyChronicle x st' web
        { args' with witness := some receipt, witnessJwks := jwks } = .ok witnessed) ↔
      (∃ e' ∈ entries', e'.seq = e.seq) ∧
      ∀ a ∈ entries, ∀ b ∈ entries', a.seq = b.seq → a.seq ≤ e.seq → SameEntry x.text a b := by
  obtain ⟨found, last, w, witnessed, haccepts, rfl⟩ := handleVerifyChronicle_eq_ok.mp h
  obtain ⟨found', last', w', witnessed', haccepts', rfl⟩ := handleVerifyChronicle_eq_ok.mp h'
  cases hentries.symm.trans haccepts.sorted
  cases hentries'.symm.trans haccepts'.sorted
  obtain ⟨dirs, hsorted⟩ := sortedEntries_sortedFrom hentries
  obtain ⟨dirs', hsorted'⟩ := sortedEntries_sortedFrom hentries'
  have hholds := (checkEntries_holds hsorted haccepts.checked).1
  obtain ⟨hholds', hwalk', -⟩ := checkEntries_holds hsorted' haccepts'.checked
  rw [hgenesis] at hholds' hwalk'
  have hn := hholds.getElem?_of_mem he
  have hlast := hholds'.last_seq haccepts'.ends
  rw [haccepts'.with_receipt hreceipt]
  constructor
  · rintro ⟨tip, hcross⟩
    obtain ⟨-, -, ⟨e', he', htip⟩, -⟩ := crossCheck_eq_ok.mp hcross
    have hmem := List.mem_of_getElem? he'
    have hident : e.ident x = e'.ident x := by
      rw [Entry.ident, Entry.ident, ← (hsorted.readFrom e he).digest,
        ← (hsorted'.readFrom e' hmem).digest]
      exact htip
    have hagree := agree_of_ident_eq hx hholds hholds' hinj hn he' hident
    refine ⟨⟨e', hmem, UInt64.toNat_inj.mp (hholds'.sequences _ _ he')⟩, ?_⟩
    intro a ha b hb hab hle
    refine hagree a.seq.toNat a b hle (hholds.getElem?_of_mem ha) ?_
    rw [hab]
    exact hholds'.getElem?_of_mem hb
  · rintro ⟨⟨e', hmem, hseq⟩, hagree⟩
    have he' : entries'[e.seq.toNat]? = some e' := by
      rw [← hseq]
      exact hholds'.getElem?_of_mem hmem
    obtain ⟨hlt, -⟩ := List.getElem?_eq_some_iff.mp hn
    obtain ⟨hlt', -⟩ := List.getElem?_eq_some_iff.mp he'
    have hkeys : activeKey args.genesisKey entries (e.seq.toNat + 1) =
        activeKey args.genesisKey entries' (e.seq.toNat + 1) := by
      refine activeKey_eq_of_agree hx hlt hlt' ?_
      intro i a b hi ha hb
      have hai := hholds.sequences i a ha
      have hbi := hholds'.sequences i b hb
      refine hagree a (List.mem_of_getElem? ha) b (List.mem_of_getElem? hb) ?_ ?_
      · exact UInt64.toNat_inj.mp (hai.trans hbi.symm)
      · rw [UInt64.le_iff_toNat_le]
        omega
    have hsame := hagree e he e' hmem hseq.symm (UInt64.le_refl _)
    refine ⟨_, crossCheck_eq_ok.mpr ⟨?_, ?_, ⟨e', he', ?_⟩, rfl⟩⟩
    · rw [UInt64.le_iff_toNat_le]
      show e.seq.toNat ≤ last'.seq.toNat
      omega
    · rw [hwalk', Walk.signerAtSeq_getElem? _ _ hlt', ← hkeys]
    · show formatArchiveId e.digest = formatArchiveId e'.digest
      rw [(hsorted.readFrom e he).digest, (hsorted'.readFrom e' hmem).digest, hsame.2]

end Pins

def headerText : String := "\x7b\"typ\":\"JWT\",\"alg\":\"EdDSA\",\"kid\":\"key_1\"\x7d"

def headerValue : JsonValue :=
  .object [("typ", .string "JWT"), ("alg", .string "EdDSA"), ("kid", .string "key_1")]

section Receipt

variable (x : Crates) (p : DeviceKeypair) (t : WitnessedTip)

/-- The key set of a platform with one key. -/
def jwksText : String :=
  "\x7b\"keys\":[\x7b\"kty\":\"OKP\",\"crv\":\"Ed25519\",\"kid\":\"key_1\",\"x\":\"" ++
    Base64.urlEncode (x.ed25519Public p.secret) ++ "\"\x7d]\x7d"

def jwksValue : JsonValue :=
  .object [("keys", .array [.object [("kty", .string "OKP"), ("crv", .string "Ed25519"),
    ("kid", .string "key_1"),
    ("x", .string (Base64.urlEncode (x.ed25519Public p.secret)))]])]

def payloadText : String :=
  "\x7b\"sub\":" ++ x.text.jsonStr t.devicePub ++
  ",\"typ\":\"witness\",\"witness\":\x7b\"device_pub\":" ++ x.text.jsonStr t.devicePub ++
  ",\"sequence\":" ++ t.sequence.toNat.repr ++
  ",\"tip\":" ++ x.text.jsonStr t.tip ++ "\x7d\x7d"

def payloadValue : JsonValue :=
  .object [("sub", .string t.devicePub), ("typ", .string "witness"),
    ("witness", .object [("device_pub", .string t.devicePub),
      ("sequence", .number (.posInt t.sequence)), ("tip", .string t.tip)])]

/-- Base64url as it is, and a parser for the three documents of the sample. -/
def sampleWeb : WebCodec where
  parseValue bytes :=
    if bytes = intoBytes headerText then .ok headerValue
    else if bytes = intoBytes (jwksText x p) then .ok (jwksValue x p)
    else if bytes = intoBytes (payloadText x t) then .ok (payloadValue t)
    else .error "expected value at line 1 column 1"
  base64UrlDecode s :=
    match Base64.urlDecode s with
    | some bytes => .ok bytes
    | none => .error "Invalid symbol"

/-- The part of a token that its signature covers. -/
def signingInput : String :=
  Base64.urlEncode (intoBytes headerText) ++ "." ++ Base64.urlEncode (intoBytes (payloadText x t))

def signedToken : String :=
  signingInput x t ++ "." ++
    Base64.urlEncode (x.ed25519Sign p.secret (intoBytes (signingInput x t)))

def sampleReceipt : ReceiptFile :=
  ⟨"receipt.jws", .file (intoBytes (signedToken x p t))⟩

def sampleJwks : JwksSource :=
  ⟨"jwks.json", .error "relative URL without a base", .file (intoBytes (jwksText x p))⟩

end Receipt

section ReadReceipt

variable {x : Crates} (p : DeviceKeypair) (t : WitnessedTip)

theorem sampleWeb_header :
    (sampleWeb x p t).parseValue (intoBytes headerText) = .ok headerValue := by
  simp only [sampleWeb, if_true]

theorem sampleWeb_jwks :
    (sampleWeb x p t).parseValue (intoBytes (jwksText x p)) = .ok (jwksValue x p) := by
  have hne : intoBytes (jwksText x p) ≠ intoBytes headerText := by
    intro h
    have h := intoBytes_injective h
    unfold jwksText at h
    rw [String.append_assoc, ← String.append_empty (s := headerText)] at h
    exact Delimited.diverge_ne (by decide +kernel) h
  simp only [sampleWeb, if_neg hne, if_true]

theorem sampleWeb_payload :
    (sampleWeb x p t).parseValue (intoBytes (payloadText x t)) = .ok (payloadValue t) := by
  have hheader : intoBytes (payloadText x t) ≠ intoBytes headerText := by
    intro h
    have h := intoBytes_injective h
    unfold payloadText at h
    rw [← String.append_empty (s := headerText)] at h
    simp only [String.append_assoc] at h
    exact Delimited.diverge_ne (by decide +kernel) h
  have hjwks : intoBytes (payloadText x t) ≠ intoBytes (jwksText x p) := by
    intro h
    have h := intoBytes_injective h
    unfold payloadText jwksText at h
    simp only [String.append_assoc] at h
    exact Delimited.diverge_ne (by decide +kernel) h
  simp only [sampleWeb, if_neg hheader, if_neg hjwks, if_true]

theorem sampleWeb_decode (bytes : Bytes) :
    (sampleWeb x p t).base64UrlDecode (Base64.urlEncode bytes) = .ok bytes := by
  simp [sampleWeb, Base64.urlDecode_urlEncode]

theorem loadReceipt_sample (hx : x.SignsLawfully) :
    loadReceipt x (sampleWeb x p t) (sampleReceipt x p t) (some (sampleJwks x p)) = .ok t := by
  have htoken : readToString (sampleReceipt x p t).node = .ok (signedToken x p t) := by
    simp [readToString, sampleReceipt, Node.read, utf8Decode_intoBytes, bind, Except.bind]
  have hjwks : loadJwks (some (sampleJwks x p)) = .ok (jwksText x p) := by
    have hfile : readToString (sampleJwks x p).file = .ok (jwksText x p) := by
      simp [readToString, sampleJwks, Node.read, utf8Decode_intoBytes, bind, Except.bind]
    have hurl : (Texts.startsWith (sampleJwks x p).source "http://" ||
        Texts.startsWith (sampleJwks x p).source "https://") = false := by
      show (Texts.startsWith "jwks.json" "http://" || Texts.startsWith "jwks.json" "https://") = false
      decide
    simp only [loadJwks, hurl, hfile]
    rfl
  have hparts : verifyReceiptParts x (sampleWeb x p t) (Base64.urlEncode (intoBytes headerText))
      (Base64.urlEncode (intoBytes (payloadText x t)))
      (Base64.urlEncode (x.ed25519Sign p.secret (intoBytes (signingInput x t))))
      (jwksText x p) = .ok t := by
    unfold verifyReceiptParts
    rw [sampleWeb_decode]
    refine bind_eq_ok.mpr ⟨_, rfl, ?_⟩
    rw [sampleWeb_header]
    refine bind_eq_ok.mpr ⟨_, rfl, ?_⟩
    rw [sampleWeb_jwks]
    refine bind_eq_ok.mpr ⟨_, rfl, bind_eq_ok.mpr ⟨_, rfl, bind_eq_ok.mpr ⟨_, rfl,
      bind_eq_ok.mpr ⟨_, rfl, ?_⟩⟩⟩⟩
    rw [sampleWeb_decode]
    refine bind_eq_ok.mpr ⟨_, rfl, ?_⟩
    rw [sampleWeb_decode]
    refine bind_eq_ok.mpr ⟨_, rfl, bind_eq_ok.mpr
      ⟨true, mapError_eq_ok.mpr (verifyManifest_signManifest hx p _), bind_eq_ok.mpr ⟨(), rfl, ?_⟩⟩⟩
    rw [sampleWeb_decode]
    refine bind_eq_ok.mpr ⟨_, rfl, ?_⟩
    rw [sampleWeb_payload]
    exact bind_eq_ok.mpr ⟨_, rfl, rfl⟩
  have hverified : verifyWitnessReceiptJws x (sampleWeb x p t) (signedToken x p t) (jwksText x p) =
      .ok t := by
    unfold verifyWitnessReceiptJws signedToken signingInput
    rw [token_parts (urlEncode_tokenText _) (urlEncode_tokenText _) (urlEncode_tokenText _)]
    exact hparts
  refine bind_eq_ok.mpr ⟨_, mapError_eq_ok.mpr htoken, bind_eq_ok.mpr ⟨_, hjwks, hverified⟩⟩

end ReadReceipt

/-- What the platform attests for the rotation entry: the new key, which is in force after it. -/
def rotationTip (x : Crates) (k k' : DeviceKeypair) : WitnessedTip :=
  ⟨activeKey (sampleArgs x k).genesisKey [genesisEntry x k, rotationEntry x k k']
      ((rotationEntry x k k').seq.toNat + 1),
    (rotationEntry x k k').seq, formatArchiveId (rotationEntry x k k').digest⟩

theorem sample_agrees (x : Crates) (k k' : DeviceKeypair) :
    ∀ a ∈ [genesisEntry x k, rotationEntry x k k'], ∀ b ∈ [genesisEntry x k, rotationEntry x k k'],
      a.seq = b.seq → SameEntry x.text a b := by
  have hne : (genesisEntry x k).seq ≠ (rotationEntry x k k').seq := by
    show (0 : UInt64) ≠ 1
    decide
  intro a ha b hb hab
  rcases List.mem_pair.mp ha with rfl | rfl
  · rcases List.mem_pair.mp hb with rfl | rfl
    · exact ⟨rfl, rfl⟩
    · exact absurd hab hne
  · rcases List.mem_pair.mp hb with rfl | rfl
    · exact absurd hab.symm hne
    · exact ⟨rfl, rfl⟩

/-- The platform key of the receipt is the key of byte 9. -/
theorem receipt_pins_history_sample :
    ∃ witnessed,
      handleVerifyChronicle headCrates (sampleStorage headCrates (sampleKey 1) (sampleKey 2))
        (sampleWeb headCrates (sampleKey 9) (rotationTip headCrates (sampleKey 1) (sampleKey 2)))
        { sampleArgs headCrates (sampleKey 1) with
          witness := some (sampleReceipt headCrates (sampleKey 9)
            (rotationTip headCrates (sampleKey 1) (sampleKey 2)))
          witnessJwks := some (sampleJwks headCrates (sampleKey 9)) } = .ok witnessed := by
  have haccepts := sample_accepts (sampleKey 1) (sampleKey 2) headCrates_signsLawfully
    headCrates_signsShort
    (sampleWeb headCrates (sampleKey 9) (rotationTip headCrates (sampleKey 1) (sampleKey 2)))
  have hreport := handleVerifyChronicle_eq_ok.mpr ⟨_, _, _, _, haccepts, rfl⟩
  have hinj := headHash_injOn (sampleKey 1) (sampleKey 2)
  rw [← Set.union_self (hashedBytes _ _)] at hinj
  have hmem : rotationEntry headCrates (sampleKey 1) (sampleKey 2) ∈
      [genesisEntry headCrates (sampleKey 1), rotationEntry headCrates (sampleKey 1) (sampleKey 2)] :=
    List.mem_cons_of_mem _ (List.mem_singleton_self _)
  have hreceipt := loadReceipt_sample (sampleKey 9)
    (rotationTip headCrates (sampleKey 1) (sampleKey 2)) headCrates_signsLawfully
  exact (receipt_pins_history serdeText_lawful hreport hreport rfl haccepts.sorted haccepts.sorted
    hinj hmem hreceipt).mpr ⟨⟨_, hmem, rfl⟩,
      fun a ha b hb hab _ => sample_agrees headCrates (sampleKey 1) (sampleKey 2) a ha b hb hab⟩

end Sealedge
