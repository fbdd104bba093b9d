import Sealedge.ChronicleTip
import Sealedge.ManifestInjective
import Sealedge.WrapReadable

namespace Sealedge

open Fallible PieceReader

/-- An ideal HPKE: what was sealed opens for the recipient only, under the info and the associated
data of its sealing. -/
structure ContentCrates.SealsIdeally (c : ContentCrates) : Prop where
  opens : ∀ {random pk info plaintext aad enc ciphertext secret info' aad' opened},
    c.hpkeSeal random pk info plaintext aad = .ok (enc, ciphertext) →
      c.hpkeOpen secret enc info' ciphertext aad' = .ok opened →
        pk = c.x25519Public secret ∧ info' = info ∧ aad' = aad

/-- No finite float is shown as an infinite one or as NaN is. -/
def TextCodec.ShowsFinite (x : TextCodec) : Prop :=
  ∀ f g, f.isFinite = true → x.f64Display f = x.f64Display g → g.isFinite = true

/-- Two manifests that are equal in every field but the encryption block and the signature. -/
def EqualButEncryption (a b : TrstManifest) : Prop :=
  EqualButSignature { a with encryption := none } { b with encryption := none }

section Opening

variable {x : Crates} {c : ContentCrates}

variable (x c) in
/-- The entry that the content-key step opens: the first one for the recipient's key. -/
def openedEntry (bundle : DeviceBundle) (m : TrstManifest) : Option RecipientEntry :=
  m.encryption.bind fun enc =>
    enc.recipients.find? fun r => r.recipientPub == bundle.keyAgreement.publicString x c

variable (x) in
/-- What the digest in the associated data is made of. -/
def sealedBytes (m : TrstManifest) : Bytes :=
  { m with encryption := none }.toCanonicalBytes x.text

theorem openContentKey_ok_iff {bundle : DeviceBundle} {m : TrstManifest} {entry : RecipientEntry}
    (hentry : openedEntry x c bundle m = some entry) :
    (∃ ctx, openContentKey x c bundle m = .ok ctx) ↔
      ∃ cek, hpkeOpenCek x c bundle.keyAgreement entry.enc
        (cekWrapInfo m.device.publicKey m.trstVersion) (x.blake3 (sealedBytes x m)).val
        entry.wrappedCek = .ok cek := by
  obtain ⟨enc, henc, hfind⟩ := Option.bind_eq_some_iff.mp hentry
  unfold openContentKey
  rw [henc]
  constructor
  · rintro ⟨ctx, h⟩
    obtain ⟨first, hfirst, h⟩ := bind_eq_ok.mp h
    obtain ⟨cek, hopen, -⟩ := bind_eq_ok.mp h
    have hsame : first = entry :=
      Option.some.inj ((orFail_eq_ok.mp hfirst).symm.trans hfind)
    rw [hsame] at hopen
    exact ⟨cek, mapError_eq_ok.mp hopen⟩
  · rintro ⟨cek, hopen⟩
    exact ⟨_, bind_eq_ok.mpr ⟨entry, orFail_eq_ok.mpr hfind, bind_eq_ok.mpr ⟨cek,
      mapError_eq_ok.mpr hopen, rfl⟩⟩⟩

theorem hpkeOpenCek_binds (hbase : ∀ bytes, x.base64Decode (x.base64Encode bytes) = .ok bytes)
    (hc : c.SealsIdeally) {random info aad info' aad' : Bytes} {pub enc wrapped : String}
    {cek opened : ContentKey} {k : KeyAgreementKeypair}
    (hseal : hpkeSealCek x c random pub info aad cek = .ok (enc, wrapped))
    (hopen : hpkeOpenCek x c k enc info' aad' wrapped = .ok opened) :
    info' = info ∧ aad' = aad := by
  obtain ⟨pk, encBytes, ciphertext, -, hsealed, rfl, rfl⟩ := hpkeSealCek_eq_ok hseal
  exact (hc.opens hsealed (hpkeOpen_of_hpkeOpenCek hbase hopen)).2

/-- What every entry that a wrap made is sealed under: the digest of its manifest. -/
theorem SignedArchive.Made.entry_sealed {fig : Figures} {st : Storage} {env : WrapEnv}
    {args : WrapCmd} {a : SignedArchive} {reader : Reader UInt8} {w : ArchiveWriter}
    {chunks : List Bytes} {out : ChunksOut} {deviceId : String} {data : ProfileMetadata}
    (h : a.Made x c fig st env args reader w chunks out deviceId data) {block : EncryptionBlock}
    (hblock : a.manifest.encryption = some block) {entry : RecipientEntry}
    (hentry : entry ∈ block.recipients) : ∃ random cek,
      hpkeSealCek x c random entry.recipientPub
        (cekWrapInfo a.manifest.device.publicKey a.manifest.trstVersion)
        (x.blake3 (sealedBytes x a.manifest)).val cek = .ok (entry.enc, entry.wrappedCek) := by
  have hfinished := h.finished
  cases hcek : (chunkJob x env args (a.bundle.signing.public x)).cek with
  | none =>
    rw [h.encryption_none hcek] at hblock
    contradiction
  | some cek =>
    rw [hcek] at hfinished
    obtain ⟨recipients, hrecipients, hmade⟩ := sealManifest_some_eq_ok hfinished
    have hsame := hblock.symm.trans hmade
    rw [Option.some.inj hsame] at hentry
    obtain ⟨random, hseal⟩ := sealRecipients_sealed hrecipients entry hentry
    have hpre : sealedBytes x a.manifest = _ := toCanonicalBytes_inj.mpr h.without_encryption
    rw [stamp_trstVersion] at hseal
    rw [hpre, h.kept.publicKey, h.kept.version]
    exact ⟨random, cek, hseal⟩

end Opening

/-- An entry that a wrap made for its manifest opens under no other manifest: the one under which
the content-key step opens it is the same but for the encryption block and the signature. -/
theorem opened_entry_pins_manifest {x : Crates} {c : ContentCrates} {fig : Figures} {st : Storage}
    (hx : x.text.Lawful) (hfinite : x.text.ShowsFinite)
    (hbase : ∀ bytes, x.base64Decode (x.base64Encode bytes) = .ok bytes) (hc : c.SealsIdeally)
    {env : WrapEnv} {args : WrapCmd} {a : SignedArchive}
    (hwrap : signArchive x c fig st env args = .ok a) {block : EncryptionBlock}
    (hblock : a.manifest.encryption = some block) {entry : RecipientEntry}
    (hentry : entry ∈ block.recipients) {m : TrstManifest} (hvalid : m.validate = .ok ())
    (hfloats : ∀ f ∈ m.floats, f.isFinite = true) {bundle : DeviceBundle} {opened : RecipientEntry}
    (hopened : openedEntry x c bundle m = some opened) (henc : opened.enc = entry.enc)
    (hwrapped : opened.wrappedCek = entry.wrappedCek)
    (hinj : Set.InjOn x.blake3 {sealedBytes x m, sealedBytes x a.manifest}) {ctx : DecryptContext}
    (hopen : openContentKey x c bundle m = .ok ctx) : EqualButEncryption m a.manifest := by
  obtain ⟨reader, w, chunks, out, deviceId, data, hmade⟩ := signArchive_eq_ok hwrap
  obtain ⟨random, cek, hseal⟩ := hmade.entry_sealed hblock hentry
  obtain ⟨cek', hcek⟩ := (openContentKey_ok_iff hopened).mp ⟨ctx, hopen⟩
  rw [henc, hwrapped] at hcek
  obtain ⟨-, hdigest⟩ := hpkeOpenCek_binds hbase hc hseal hcek
  have hbytes : sealedBytes x m = sealedBytes x a.manifest :=
    hinj (by simp) (by simp) (Subtype.ext hdigest)
  have hsame := sameText_of_serializeCanonical_eq hx (toCanonicalBytes_inj.mp hbytes)
  refine equalButSignature_of_sameText hsame (TrstManifest.validate_eq_ok.mp hvalid).epoch
    hmade.kept.epoch ?_
  intro f hf g _ htext
  have hf : f.isFinite = true := hfloats f hf
  exact hx.displayInj f g hf (hfinite f g hf htext) htext

section Sample

/-- Bytes with an end of their own. -/
def marked : Bytes → Bytes
  | [] => [0]
  | b :: rest => 1 :: b :: marked rest

theorem marked_append_inj {a b s t : Bytes} (h : marked a ++ s = marked b ++ t) :
    a = b ∧ s = t := by
  induction a generalizing b with
  | nil =>
    cases b with
    | nil => exact ⟨rfl, (List.cons.inj h).2⟩
    | cons b bs => exact absurd (List.cons.inj h).1 (by decide)
  | cons a as ih =>
    cases b with
    | nil => exact absurd (List.cons.inj h).1 (by decide)
    | cons b bs =>
      obtain ⟨hab, hrest⟩ := List.cons.inj (List.cons.inj h).2
      obtain ⟨has, hst⟩ := ih hrest
      exact ⟨by rw [hab, has], hst⟩

/-- What a box is sealed for and under, in front of what it holds. -/
def boxLid (publicKey info aad : Bytes) : Bytes :=
  marked publicKey ++ (marked info ++ marked aad)

/-- A sealing that shows what it binds. -/
def boxContent : ContentCrates :=
  { sampleContent with
    hpkeSeal := fun random publicKey info plaintext aad =>
      .ok (fit 32 random, boxLid publicKey info aad ++ plaintext)
    hpkeOpen := fun secret _ info ciphertext aad =>
      let lid := boxLid (fit 32 secret) info aad
      if ciphertext.take lid.length = lid then .ok (ciphertext.drop lid.length)
      else .error "OpenError" }

theorem boxLid_inj {pk info aad pk' info' aad' s t : Bytes}
    (h : boxLid pk info aad ++ s = boxLid pk' info' aad' ++ t) :
    pk = pk' ∧ info = info' ∧ aad = aad' := by
  simp only [boxLid, List.append_assoc] at h
  obtain ⟨hpk, h⟩ := marked_append_inj h
  obtain ⟨hinfo, h⟩ := marked_append_inj h
  exact ⟨hpk, hinfo, (marked_append_inj h).1⟩

theorem boxContent_sealsIdeally : boxContent.SealsIdeally where
  opens {random pk info plaintext aad enc ciphertext secret info' aad' opened} hseal hopen := by
    obtain ⟨-, hciphertext⟩ := Prod.mk.inj (Except.ok.inj hseal)
    simp only [boxContent] at hopen
    split at hopen
    next htake =>
      have hwhole := List.take_append_drop (boxLid (fit 32 secret) info' aad').length ciphertext
      rw [htake, ← hciphertext] at hwhole
      obtain ⟨hpk, hinfo, haad⟩ := boxLid_inj hwhole.symm
      exact ⟨hpk, hinfo.symm, haad.symm⟩
    next => contradiction

theorem boxContent_correct : boxContent.Correct where
  hpke {random secret info plaintext aad enc ciphertext} h := by
    obtain ⟨-, hciphertext⟩ := Prod.mk.inj (Except.ok.inj h)
    rw [← hciphertext]
    simp [boxContent, sampleContent]
  xchacha h := sampleContent_correct.xchacha h

theorem boxContent_wellFormed : boxContent.WellFormed where
  privateKey _ _ := rfl
  encapped _ := rfl
  tagged h := sampleContent_wellFormed.tagged h

theorem boxContent_takesAll : boxContent.TakesAll where
  publicLength secret := fit_length 32 secret
  publicKey _ := rfl
  seals _ _ _ _ _ := ⟨_, _, rfl⟩
  encrypts _ _ _ _ := ⟨_, rfl⟩

/-- A hash that keeps the part of a canonical text where the profile stands. -/
def profileHash (bytes : Bytes) : Digest := ⟨fit 32 (bytes.drop 32), fit_length 32 _⟩

def profileCrates : Crates := { sampleCrates with blake3 := profileHash }

theorem profileCrates_signsLawfully : profileCrates.SignsLawfully :=
  ⟨sampleCrates_signsLawfully.base64, sampleCrates_signsLawfully.publicLength,
    sampleCrates_signsLawfully.publicKey, sampleCrates_signsLawfully.signatureLength,
    sampleCrates_signsLawfully.verifies⟩

theorem serdeText_showsFinite : serdeText.ShowsFinite := by
  intro f g hf htext
  have hbits : f.bits = g.bits := shortDisplay_injective htext
  have hsame : f = g := by
    cases f
    cases g
    exact congrArg F64.mk hbits
  rwa [← hsame]

theorem profileHash_append {front rest : Bytes} {b₀ b₁ b₂ b : UInt8} (hfront : front.length = 32) :
    (profileHash (front ++ (b₀ :: b₁ :: b₂ :: b :: rest))).val[3]? = some b := by
  change (fit 32 ((front ++ (b₀ :: b₁ :: b₂ :: b :: rest)).drop 32))[3]? = some b
  rw [List.drop_left' hfront]
  rfl

theorem profileHash_sealedBytes {m : TrstManifest} (hversion : m.trstVersion = "0.2.0")
    {b : UInt8} {rest : Bytes}
    (hprofile : intoBytes (serdeText.jsonStr m.profile) = 34 :: b :: rest) :
    (profileHash (sealedBytes profileCrates m)).val[3]? = some b := by
  have hversion' : ({ m with encryption := none } : TrstManifest).trstVersion = "0.2.0" := hversion
  obtain ⟨text, htext⟩ := canonical_head hversion'
  have hbytes : sealedBytes profileCrates m = intoBytes manifestHead ++
      (intoBytes "\":" ++ (intoBytes (serdeText.jsonStr m.profile) ++ intoBytes text)) := by
    rw [← intoBytes_append, ← intoBytes_append, ← intoBytes_append, ← htext]
    rfl
  have hhead : (intoBytes manifestHead).length = 32 := by decide
  have hcolon : intoBytes "\":" = [34, 58] := by decide
  rw [hbytes, hcolon, hprofile]
  exact profileHash_append hhead

theorem sample_block {x : Crates} {c : ContentCrates} {fig : Figures} {st : Storage}
    {k : DeviceKeypair} {a : SignedArchive}
    (ha : signArchive x c fig st (sampleWrapEnv k) sampleWrapCmd = .ok a) :
    a.bundle = sampleBundle k ∧ ∃ block entry, a.manifest.encryption = some block ∧
      block.recipients = [entry] ∧
      entry.recipientPub = (sampleBundle k).keyAgreement.publicString x c := by
  obtain ⟨reader, w, chunks, out, deviceId, data, hmade⟩ := signArchive_eq_ok ha
  have hbundle : a.bundle = sampleBundle k := (Except.ok.inj hmade.bundle).symm
  obtain ⟨recipients, hrecipients, hblock⟩ := sealManifest_some_eq_ok hmade.finished
  have hpubs := sealRecipients_pubs hrecipients
  rw [hbundle] at hpubs
  have hpubs' : recipients.map RecipientEntry.recipientPub =
      [(sampleBundle k).keyAgreement.publicString x c] := hpubs
  obtain ⟨entry, hentry, hpub⟩ := List.map_eq_singleton_iff.mp hpubs'
  exact ⟨hbundle, _, entry, hblock, hentry, hpub⟩

/-- A manifest of another device for the same recipient, under its own seal. -/
def foreignManifest : TrstManifest :=
  { sampleManifest with
    device := { sampleManifest.device with
      publicKey := DeviceKeypair.public profileCrates (sampleKey 2) } }

/-- It lists what is given, and is signed by the other device. -/
def foreignWith (recipients : List RecipientEntry) : TrstManifest :=
  let m := { foreignManifest with
    encryption := some ⟨contentAeadId, ⟨hpkeKemId, hpkeKdfId, hpkeAeadId⟩, recipients⟩ }
  { m with
    signature := some (signManifest profileCrates (sampleKey 2) (m.toCanonicalBytes serdeText)) }

theorem foreignWith_valid {recipients : List RecipientEntry} (h : recipients ≠ []) :
    (foreignWith recipients).validate = .ok () := by
  have hpub : DeviceKeypair.public profileCrates (sampleKey 2) ≠ "" :=
    DeviceKeypair.public_ne_empty _ _
  have hsample : sampleManifest.Valid := TrstManifest.validate_eq_ok.mp (by decide)
  refine TrstManifest.validate_eq_ok.mpr ⟨hsample.version, hsample.profile, hsample.id, hpub,
    hsample.metadata, hsample.segments, hsample.described, ?_, hsample.chronicle, hsample.epoch⟩
  simp [foreignWith, validateEncryption, invalidWhen, failWhen, h]

theorem foreignWith_signed (recipients : List RecipientEntry) :
    checkOwnSignature profileCrates (foreignWith recipients) = .ok () :=
  checkOwnSignature_eq_ok.mpr ⟨_, rfl,
    verifyManifest_signManifest profileCrates_signsLawfully (sampleKey 2) _⟩

/-- The hash tells the manifest of the other device from every one that the sample wrap signs. -/
theorem foreign_digests_apart {st : Storage} {k : DeviceKeypair} {a : SignedArchive}
    (ha : signArchive profileCrates boxContent sampleFigures st (sampleWrapEnv k) sampleWrapCmd =
      .ok a) (recipients : List RecipientEntry) :
    Set.InjOn profileCrates.blake3 {sealedBytes profileCrates (foreignWith recipients),
      sealedBytes profileCrates a.manifest} := by
  obtain ⟨reader, w, chunks, out, deviceId, data, hmade⟩ := signArchive_eq_ok ha
  have hcamera : intoBytes (serdeText.jsonStr "cam.video") =
      34 :: 99 :: [97, 109, 46, 118, 105, 100, 101, 111, 34] := by decide +kernel
  have hgeneric : intoBytes (serdeText.jsonStr a.manifest.profile) =
      34 :: 103 :: [101, 110, 101, 114, 105, 99, 34] := by
    rw [hmade.kept.profile]
    decide +kernel
  have hforeign : (profileHash (sealedBytes profileCrates (foreignWith recipients))).val[3]? =
      some 99 := profileHash_sealedBytes rfl hcamera
  have hwrapped := profileHash_sealedBytes hmade.kept.version hgeneric
  have hne : profileCrates.blake3 (sealedBytes profileCrates (foreignWith recipients)) ≠
      profileCrates.blake3 (sealedBytes profileCrates a.manifest) := by
    intro heq
    have hbyte : (profileHash (sealedBytes profileCrates (foreignWith recipients))).val[3]? =
        some 103 := (congrArg (fun d : Digest => d.val[3]?) heq).trans hwrapped
    rw [hforeign] at hbyte
    exact absurd (Option.some.inj hbyte) (by decide)
  exact Set.injOn_pair.mpr fun heq => absurd heq hne

/-- An entry of one manifest is listed by another behind an entry of its own for the same
recipient, and the content-key step succeeds with the latter. -/
theorem transplanted_entry_passed_over : ∃ a block entry m ctx,
    signArchive profileCrates boxContent sampleFigures (runStorage sampleManifest)
      (sampleWrapEnv (sampleKey 1)) sampleWrapCmd = .ok a ∧
    a.manifest.encryption = some block ∧ entry ∈ block.recipients ∧
    entry.recipientPub =
      (sampleBundle (sampleKey 1)).keyAgreement.publicString profileCrates boxContent ∧
    m.validate = .ok () ∧ (∀ f ∈ m.floats, f.isFinite = true) ∧
    checkOwnSignature profileCrates m = .ok () ∧
    (∃ listing, m.encryption = some listing ∧ entry ∈ listing.recipients) ∧
    profileCrates.text.Lawful ∧ profileCrates.text.ShowsFinite ∧ boxContent.SealsIdeally ∧
    Set.InjOn profileCrates.blake3
      {sealedBytes profileCrates m, sealedBytes profileCrates a.manifest} ∧
    openContentKey profileCrates boxContent (sampleBundle (sampleKey 1)) m = .ok ctx ∧
    ¬ EqualButEncryption m a.manifest := by
  have hbase := profileCrates_signsLawfully.base64
  obtain ⟨a, ha⟩ := sample_signArchive hbase profileCrates_signsLawfully.publicLength sampleFigures
    (runStorage sampleManifest) (sampleKey 1) boxContent_takesAll
    (show Plain "generic" by unfold Plain; decide)
  obtain ⟨hbundle, block, entry, hblock, hrecipients, hpub⟩ := sample_block ha
  obtain ⟨reader, w, chunks, out, deviceId, data, hmade⟩ := signArchive_eq_ok ha
  have hentry : entry ∈ block.recipients := by
    rw [hrecipients]
    exact List.mem_singleton_self entry
  -- The other device seals a key of its own to the recipient.
  obtain ⟨enc, wrapped, hseal⟩ := hpkeSealCek_ok hbase boxContent_takesAll
    (sampleBundle (sampleKey 1)).keyAgreement [9]
    (cekWrapInfo foreignManifest.device.publicKey foreignManifest.trstVersion)
    (profileCrates.blake3 (sealedBytes profileCrates foreignManifest)).val sampleDraws.cek
  have hopen := hpkeOpenCek_ok_of_hpkeSealCek hbase boxContent_correct boxContent_wellFormed hseal
  obtain ⟨own, hownPub, hownEnc, hownWrapped⟩ : ∃ own : RecipientEntry,
      own.recipientPub =
        (sampleBundle (sampleKey 1)).keyAgreement.publicString profileCrates boxContent ∧
      own.enc = enc ∧ own.wrappedCek = wrapped :=
    ⟨⟨"b3:0000000000000000", _, enc, wrapped⟩, rfl, rfl, rfl⟩
  have hopened : openedEntry profileCrates boxContent (sampleBundle (sampleKey 1))
      (foreignWith [own, entry]) = some own := by
    refine Option.bind_eq_some_iff.mpr ⟨_, rfl, List.find?_cons_of_pos ?_⟩
    rw [hownPub]
    exact beq_self_eq_true _
  obtain ⟨ctx, hctx⟩ := (openContentKey_ok_iff hopened).mpr ⟨_, by
    rw [hownEnc, hownWrapped]
    exact hopen⟩
  refine ⟨a, block, entry, foreignWith [own, entry], ctx, ha, hblock, hentry, hpub,
    foreignWith_valid (by simp), ?_, foreignWith_signed _, ⟨_, rfl, by simp⟩, serdeText_lawful,
    serdeText_showsFinite, boxContent_sealsIdeally, foreign_digests_apart ha _, hctx, ?_⟩
  · exact List.all_eq_true.mp (show (sampleManifest.floats).all F64.isFinite = true by decide)
  · intro hequal
    have hprofile : "cam.video" = a.manifest.profile := hequal.profile
    rw [hmade.kept.profile] at hprofile
    exact absurd hprofile (by decide)

/-- The sample's own entry, listed twice by a manifest that is not signed. -/
theorem relisted_entry_pins_sample : ∃ a block entry ctx,
    signArchive profileCrates boxContent sampleFigures (runStorage sampleManifest)
      (sampleWrapEnv (sampleKey 1)) sampleWrapCmd = .ok a ∧
    a.manifest.encryption = some block ∧ entry ∈ block.recipients ∧
    openContentKey profileCrates boxContent (sampleBundle (sampleKey 1)) { a.manifest with
      encryption := some { block with recipients := [entry, entry] }, signature := none } =
        .ok ctx ∧
    EqualButEncryption { a.manifest with
      encryption := some { block with recipients := [entry, entry] }, signature := none }
      a.manifest := by
  have hbase := profileCrates_signsLawfully.base64
  obtain ⟨a, ha⟩ := sample_signArchive hbase profileCrates_signsLawfully.publicLength sampleFigures
    (runStorage sampleManifest) (sampleKey 1) boxContent_takesAll
    (show Plain "generic" by unfold Plain; decide)
  obtain ⟨-, block, entry, hblock, hrecipients, hpub⟩ := sample_block ha
  obtain ⟨reader, w, chunks, out, deviceId, data, hmade⟩ := signArchive_eq_ok ha
  have hentry : entry ∈ block.recipients := by
    rw [hrecipients]
    exact List.mem_singleton_self entry
  obtain ⟨random, cek, hseal⟩ := hmade.entry_sealed hblock hentry
  rw [hpub] at hseal
  have hopen := hpkeOpenCek_ok_of_hpkeSealCek hbase boxContent_correct boxContent_wellFormed hseal
  have hopened : openedEntry profileCrates boxContent (sampleBundle (sampleKey 1)) { a.manifest with
      encryption := some { block with recipients := [entry, entry] }, signature := none } =
        some entry := by
    refine Option.bind_eq_some_iff.mpr ⟨_, rfl, List.find?_cons_of_pos ?_⟩
    rw [hpub]
    exact beq_self_eq_true _
  obtain ⟨ctx, hctx⟩ := (openContentKey_ok_iff hopened).mpr ⟨cek, hopen⟩
  have hvalid := TrstManifest.validate_eq_ok.mp
    (sample_valid _ _ _ boxContent_wellFormed ha)
  refine ⟨a, block, entry, ctx, ha, hblock, hentry, hctx, ?_⟩
  refine opened_entry_pins_manifest serdeText_lawful serdeText_showsFinite hbase
    boxContent_sealsIdeally ha hblock hentry ?_ (sample_floats ha) hopened rfl rfl
    (Set.injOn_pair.mpr fun _ => rfl) hctx
  exact TrstManifest.validate_eq_ok.mpr ⟨hvalid.version, hvalid.profile, hvalid.id,
    hvalid.publicKey, hvalid.metadata, hvalid.segments, hvalid.described, rfl, hvalid.chronicle,
    hvalid.epoch⟩

end Sample

end Sealedge
