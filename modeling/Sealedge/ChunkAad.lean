import Mathlib.Data.Set.Function
import Sealedge.ContentCrypto
import Sealedge.ManifestInjective
import Sealedge.SampleCrates

namespace Sealedge

open Fallible

/-- Documented behaviour of the decoders behind an accepted key: base64 accepts only what it
writes, and a P-256 key is a point in SEC1 form, whose length its leading tag fixes. -/
structure Crates.KeyForms (x : Crates) : Prop where
  canonical : ∀ s bytes, x.base64Decode s = .ok bytes → s = Base64.encode bytes
  sec1 : ∀ bytes, x.p256Key bytes = .ok () → ∃ tag coordinates, bytes = tag :: coordinates ∧
    ((tag = 2 ∨ tag = 3 ∨ tag = 5) ∧ coordinates.length = 32 ∨
      tag = 4 ∧ coordinates.length = 64)

/-- The public keys under which a signature can verify. -/
inductive KeyText : String → Prop
  | ed25519 {bytes : Bytes} (width : bytes.length = 32) :
      KeyText ("ed25519:" ++ Base64.encode bytes)
  | p256 {tag : UInt8} {coordinates : Bytes}
      (form : (tag = 2 ∨ tag = 3 ∨ tag = 5) ∧ coordinates.length = 32 ∨
        tag = 4 ∧ coordinates.length = 64) :
      KeyText ("ecdsa-p256:" ++ Base64.encode (tag :: coordinates))

theorem keyText_of_verifyManifest {x : Crates} (hx : x.KeyForms) {devicePublic signature : String}
    {bytes : Bytes} (h : verifyManifest x devicePublic bytes signature = .ok true) :
    KeyText devicePublic := by
  unfold verifyManifest at h
  split at h
  next =>
    obtain ⟨key, hkey, -⟩ := bind_eq_ok.mp h
    unfold fromPublic at hkey
    split at hkey
    next => cases hkey
    next b64 hstrip =>
      obtain ⟨decoded, hdecode, hkey⟩ := bind_eq_ok.mp hkey
      obtain ⟨_, hlength, -⟩ := bind_eq_ok.mp hkey
      have hwidth : decoded.length = 32 := by simpa using failWhen_eq_ok.mp hlength
      rw [Texts.stripPrefix_eq_some hstrip, hx.canonical _ _ (mapError_eq_ok.mp hdecode)]
      exact .ed25519 hwidth
  next =>
    split at h
    next =>
      unfold verifyManifestEcdsaP256 at h
      split at h
      next => cases h
      next pubB64 hstrip =>
        obtain ⟨decoded, hdecode, h⟩ := bind_eq_ok.mp h
        obtain ⟨_, hkey, -⟩ := bind_eq_ok.mp h
        obtain ⟨tag, coordinates, rfl, hform⟩ := hx.sec1 _ (mapError_eq_ok.mp hkey)
        rw [Texts.stripPrefix_eq_some hstrip, hx.canonical _ _ (mapError_eq_ok.mp hdecode)]
        exact .p256 hform
    next => cases h

theorem encode_append_inj {a b : Bytes} {s t : String} (hlength : a.length = b.length)
    (h : Base64.encode a ++ s = Base64.encode b ++ t) :
    Base64.encode a = Base64.encode b ∧ s = t := by
  have hchars := congrArg String.toList h
  simp only [String.toList_append, Base64.encode, String.toList_ofList] at hchars
  obtain ⟨hcode, hrest⟩ := List.append_inj hchars (by
    rw [Base64.encodeChars_length, Base64.encodeChars_length, hlength])
  exact ⟨by rw [Base64.encode, Base64.encode, hcode], String.toList_inj.mp hrest⟩

theorem KeyText.append_inj {k l s t : String} (hk : KeyText k) (hl : KeyText l)
    (h : k ++ s = l ++ t) : k = l ∧ s = t := by
  cases hk with
  | @ed25519 a ha =>
    cases hl with
    | @ed25519 b hb =>
      rw [String.append_assoc, String.append_assoc] at h
      have h := (String.append_right_inj _).mp h
      obtain ⟨hcode, hrest⟩ := encode_append_inj (ha.trans hb.symm) h
      exact ⟨by rw [hcode], hrest⟩
    | p256 _ =>
      rw [String.append_assoc, String.append_assoc] at h
      exact absurd h (Delimited.diverge_ne (by decide))
  | @p256 tag coordinates hform =>
    cases hl with
    | ed25519 _ =>
      rw [String.append_assoc, String.append_assoc] at h
      exact absurd h (Delimited.diverge_ne (by decide))
    | @p256 tag' coordinates' hform' =>
      rw [String.append_assoc, String.append_assoc] at h
      have hcodes := String.append_right_inj _ |>.mp h
      -- the tag stands in the first two digits, and it fixes the length of the rest
      have htag : tag = tag' := by
        have hchars := congrArg String.toList hcodes
        simp only [String.toList_append, Base64.encode, String.toList_ofList] at hchars
        exact Base64.head_eq_of_encodeChars_append (by omega) (by omega) hchars
      have hlength : coordinates.length = coordinates'.length := by
        subst htag
        rcases hform with ⟨htag, hlen⟩ | ⟨htag, hlen⟩ <;>
          rcases hform' with ⟨htag', hlen'⟩ | ⟨htag', hlen'⟩
        · omega
        · subst htag'
          simp at htag
        · subst htag
          simp at htag'
        · omega
      obtain ⟨hcode, hrest⟩ := encode_append_inj (by simp [hlength]) hcodes
      exact ⟨by rw [hcode], hrest⟩

theorem profile_append_inj {p q s t : String} (hp : p ∈ knownProfiles) (hq : q ∈ knownProfiles)
    (h : p ++ s = q ++ t) : p = q ∧ s = t := by
  have hpq : p = q := by
    by_contra hne
    have hdiverge : ∀ p ∈ knownProfiles, ∀ q ∈ knownProfiles, p ≠ q → Delimited.Diverge p q := by
      decide
    exact Delimited.diverge_ne (hdiverge p hp q hq hne) h
  subst hpq
  exact ⟨rfl, String.append_right_inj _ |>.mp h⟩

/-- What `chunk_aad_v2` hashes for a manifest. -/
def chunkAadInput (m : TrstManifest) : Bytes :=
  intoBytes "sealedge/aad/v1" ++ intoBytes m.device.publicKey ++ intoBytes m.profile ++
    intoBytes (manifestStartedAt m)

/-- The chunk AAD of two signed and valid manifests is the same only for the same device key,
profile and start. -/
theorem chunkAadV2_separates {x : Crates} (hx : x.KeyForms) {a b : TrstManifest}
    {sigA sigB : String} (va : a.validate = .ok ()) (vb : b.validate = .ok ())
    (ha : verifyManifest x a.device.publicKey (a.toCanonicalBytes x.text) sigA = .ok true)
    (hb : verifyManifest x b.device.publicKey (b.toCanonicalBytes x.text) sigB = .ok true)
    (hinj : Set.InjOn x.blake3 {chunkAadInput a, chunkAadInput b})
    (h : chunkAadV2 x a.device.publicKey a.profile (manifestStartedAt a) =
      chunkAadV2 x b.device.publicKey b.profile (manifestStartedAt b)) :
    a.device.publicKey = b.device.publicKey ∧ a.profile = b.profile ∧
      manifestStartedAt a = manifestStartedAt b := by
  have hinput : chunkAadInput a = chunkAadInput b := hinj (by simp) (by simp) h
  have htexts : a.device.publicKey ++ (a.profile ++ manifestStartedAt a) =
      b.device.publicKey ++ (b.profile ++ manifestStartedAt b) := by
    apply intoBytes_injective
    simp only [intoBytes_append]
    simpa [chunkAadInput] using hinput
  obtain ⟨hkey, hrest⟩ := (keyText_of_verifyManifest hx ha).append_inj
    (keyText_of_verifyManifest hx hb) htexts
  obtain ⟨hprofile, hstart⟩ := profile_append_inj (TrstManifest.validate_eq_ok.mp va).profile
    (TrstManifest.validate_eq_ok.mp vb).profile hrest
  exact ⟨hkey, hprofile, hstart⟩

theorem sampleCrates_keyForms : sampleCrates.KeyForms where
  canonical s bytes h := by
    simp only [sampleCrates] at h
    split at h
    next decoded hdecode =>
      cases Except.ok.inj h
      exact (Base64.encode_decode hdecode).symm
    next => cases h
  sec1 bytes h := by cases h

/-- A manifest of one device with some claims, not signed yet. -/
def unsignedCamera (claims : List String) : TrstManifest :=
  { sampleManifest with
    device := { sampleManifest.device with
      publicKey := DeviceKeypair.public sampleCrates (sampleKey 1) }
    claims := claims }

def cameraSignature (claims : List String) : String :=
  signManifest sampleCrates (sampleKey 1) ((unsignedCamera claims).toCanonicalBytes serdeText)

def signedCamera (claims : List String) : TrstManifest :=
  { unsignedCamera claims with signature := some (cameraSignature claims) }

theorem signedCamera_valid (claims : List String) : (signedCamera claims).validate = .ok () := by
  have hpub : DeviceKeypair.public sampleCrates (sampleKey 1) ≠ "" :=
    DeviceKeypair.public_ne_empty _ _
  have hsample : sampleManifest.Valid := TrstManifest.validate_eq_ok.mp (by decide)
  exact TrstManifest.validate_eq_ok.mpr ⟨hsample.version, hsample.profile, hsample.id, hpub,
    hsample.metadata, hsample.segments, hsample.described, hsample.encryption, hsample.chronicle,
    hsample.epoch⟩

theorem signedCamera_verified (claims : List String) :
    verifyManifest sampleCrates (signedCamera claims).device.publicKey
      ((signedCamera claims).toCanonicalBytes sampleCrates.text) (cameraSignature claims) =
        .ok true :=
  verifyManifest_signManifest sampleCrates_signsLawfully (sampleKey 1) _

/-- Two manifests of one recording that differ in their claims. -/
theorem chunkAadV2_separates_sample :
    chunkAadV2 sampleCrates (signedCamera []).device.publicKey (signedCamera []).profile
        (manifestStartedAt (signedCamera [])) =
      chunkAadV2 sampleCrates (signedCamera ["indoor"]).device.publicKey
        (signedCamera ["indoor"]).profile (manifestStartedAt (signedCamera ["indoor"])) ∧
    (signedCamera []).device.publicKey = (signedCamera ["indoor"]).device.publicKey ∧
      (signedCamera []).profile = (signedCamera ["indoor"]).profile ∧
      manifestStartedAt (signedCamera []) = manifestStartedAt (signedCamera ["indoor"]) := by
  have hinj : Set.InjOn sampleCrates.blake3
      {chunkAadInput (signedCamera []), chunkAadInput (signedCamera ["indoor"])} := by
    have hsame : chunkAadInput (signedCamera ["indoor"]) = chunkAadInput (signedCamera []) := rfl
    rw [hsame, Set.pair_eq_singleton]
    exact Set.injOn_singleton _ _
  exact ⟨rfl, chunkAadV2_separates sampleCrates_keyForms (signedCamera_valid [])
    (signedCamera_valid ["indoor"]) (signedCamera_verified []) (signedCamera_verified ["indoor"])
    hinj rfl⟩

end Sealedge
