import Sealedge.KeyCustody

namespace Sealedge

open Fallible UnixPath

section Loading

variable {x : Crates} {c : ContentCrates} {sc : SecretCrates} {js : JsonCrate} {disk : Disk}
  {path : String} {bytes : Bytes}

theorem readKeyFile_eq_ok :
    readKeyFile disk path = .ok bytes ↔ disk (Path.ofText path).components = .file bytes :=
  mapError_eq_ok.trans Node.read_eq_ok

theorem renderFields_ends (js : JsonCrate) (level : Option Nat)
    (fields : List (String × JsonValue)) :
    ∃ front, renderFields js level fields = front ++ ['\x7d'] := by
  induction fields with
  | nil => exact ⟨newline level, rfl⟩
  | cons f rest ih =>
    obtain ⟨front, hfront⟩ := ih
    rw [renderFields, hfront]
    exact ⟨_, by rw [← List.append_assoc, ← List.cons_append]⟩

theorem toPlaintext_braces (x : Crates) (js : JsonCrate) (b : DeviceBundle) :
    ∃ inner, (b.toPlaintext x js).toList = '\x7b' :: (inner ++ ['\x7d']) := by
  obtain ⟨front, hfront⟩ := renderFields_ends js none
    [("ed25519_secret", .string (b.secrets x).ed25519Secret),
      ("x25519_secret", .string (b.secrets x).x25519Secret)]
  rw [DeviceBundle.toPlaintext, String.toList_ofList, BundleSecrets.toDocument, render, hfront]
  exact ⟨_, by rw [← List.append_assoc]⟩

theorem trimChars_toPlaintext (b : DeviceBundle) :
    trimChars (b.toPlaintext x js ++ "\n").toList = (b.toPlaintext x js).toList := by
  obtain ⟨inner, hinner⟩ := toPlaintext_braces x js b
  have hopen : isWhitespace '\x7b' = false := by decide
  have hclose : isWhitespace '\x7d' = false := by decide
  have hnewline : isWhitespace '\n' = true := by decide
  rw [String.toList_append, hinner]
  simp [trimChars, hopen, hclose, hnewline]

theorem intoBytes_plaintext (x : Crates) (js : JsonCrate) (b : DeviceBundle) :
    ∃ rest, intoBytes (b.toPlaintext x js ++ "\n") = 123 :: rest := by
  obtain ⟨inner, hinner⟩ := toPlaintext_braces x js b
  rw [intoBytes_eq_flatMap, String.toList_append, hinner]
  exact ⟨_, rfl⟩

theorem plaintext_not_encrypted {header : String} {tail : Bytes}
    (hheader : intoBytes header = 83 :: tail) (b : DeviceBundle) :
    ¬ intoBytes header <+: intoBytes (b.toPlaintext x js ++ "\n") := by
  obtain ⟨rest, hrest⟩ := intoBytes_plaintext x js b
  rw [hheader, hrest, List.cons_prefix_cons]
  exact fun h => absurd h.1 (by decide)

theorem plaintext_not_bundleV2 (x : Crates) (js : JsonCrate) (b : DeviceBundle) :
    ¬ intoBytes "SEALEDGE-KEY-V2\n" <+: intoBytes (b.toPlaintext x js ++ "\n") :=
  plaintext_not_encrypted (by rw [intoBytes_eq_flatMap]; rfl) b

theorem plaintext_not_keyV1 (x : Crates) (js : JsonCrate) (b : DeviceBundle) :
    isEncryptedKeyFile (intoBytes (b.toPlaintext x js ++ "\n")) = false :=
  decide_eq_false (plaintext_not_encrypted (by rw [intoBytes_eq_flatMap]; rfl) b)

theorem fromPlaintext_trimmed (hx : x.SignsLawfully) (hjs : js.Lossless) (b : DeviceBundle) :
    DeviceBundle.fromPlaintext x js
      (String.ofList (trimChars (b.toPlaintext x js ++ "\n").toList)) = .ok b := by
  rw [trimChars_toPlaintext, String.ofList_toList, DeviceBundle.fromPlaintext_toPlaintext hx hjs]

theorem decryptBundle_eq_ok {unencrypted : Bool} {typed : Option String} {b : DeviceBundle} :
    decryptBundle x sc js bytes unencrypted typed = .ok b ↔
      unencrypted = false ∧ ∃ passphrase, typed = some passphrase ∧
        DeviceBundle.importEncrypted x sc js bytes passphrase = .ok b := by
  unfold decryptBundle
  constructor
  · intro h
    obtain ⟨_, hflag, h⟩ := bind_eq_ok.mp h
    obtain ⟨passphrase, htyped, h⟩ := bind_eq_ok.mp h
    exact ⟨failWhen_eq_ok.mp hflag, passphrase, orFail_eq_ok.mp htyped, mapError_eq_ok.mp h⟩
  · rintro ⟨hflag, passphrase, htyped, h⟩
    exact bind_eq_ok.mpr ⟨(), failWhen_eq_ok.mpr hflag,
      bind_eq_ok.mpr ⟨passphrase, orFail_eq_ok.mpr htyped, mapError_eq_ok.mpr h⟩⟩

theorem plaintextBundle_eq_some {b : DeviceBundle} :
    plaintextBundle x js bytes = some b ↔ ∃ text, utf8Decode bytes = some text ∧
      DeviceBundle.fromPlaintext x js (String.ofList (trimChars text.toList)) = .ok b := by
  unfold plaintextBundle
  simp only [Option.bind_eq_bind, Option.bind_eq_some_iff, toOption_eq_some]

/-- The files that hold a whole bundle. -/
inductive BundleFile (x : Crates) (sc : SecretCrates) (js : JsonCrate) (bytes : Bytes) :
    Bool → Option String → DeviceBundle → Prop
  | encrypted {passphrase : String} {b : DeviceBundle}
      (header : intoBytes "SEALEDGE-KEY-V2\n" <+: bytes)
      (opens : DeviceBundle.importEncrypted x sc js bytes passphrase = .ok b) :
      BundleFile x sc js bytes false (some passphrase) b
  | plaintext {typed : Option String} {text : String} {b : DeviceBundle}
      (header : ¬ intoBytes "SEALEDGE-KEY-V2\n" <+: bytes) (decodes : utf8Decode bytes = some text)
      (reads : DeviceBundle.fromPlaintext x js (String.ofList (trimChars text.toList)) = .ok b) :
      BundleFile x sc js bytes true typed b

/-- The key files from before the bundles. -/
inductive LegacyFile (x : Crates) (sc : SecretCrates) (js : JsonCrate) (bytes : Bytes) :
    Bool → Option String → DeviceKeypair → Prop
  | encrypted {passphrase : String} {k : DeviceKeypair}
      (header : isEncryptedKeyFile bytes = true)
      (opens : DeviceKeypair.importSecretEncrypted x sc js bytes passphrase = .ok k) :
      LegacyFile x sc js bytes false (some passphrase) k
  | plaintext {typed : Option String} {text : String} {k : DeviceKeypair} {e : CryptoError}
      (header : ¬ intoBytes "SEALEDGE-KEY-V2\n" <+: bytes) (decodes : utf8Decode bytes = some text)
      (bare : DeviceBundle.fromPlaintext x js (String.ofList (trimChars text.toList)) = .error e)
      (reads : DeviceKeypair.importSecret x (String.ofList (trimChars text.toList)) = .ok k) :
      LegacyFile x sc js bytes true typed k

theorem bundleFromBytes_eq_ok {unencrypted : Bool} {typed : Option String} {b : DeviceBundle} :
    bundleFromBytes x sc js bytes unencrypted typed = .ok b ↔
      BundleFile x sc js bytes unencrypted typed b := by
  unfold bundleFromBytes
  split
  next hheader =>
    rw [decryptBundle_eq_ok]
    constructor
    · rintro ⟨rfl, passphrase, rfl, hopens⟩
      exact .encrypted hheader hopens
    · intro h
      cases h with
      | encrypted _ hopens => exact ⟨rfl, _, rfl, hopens⟩
      | plaintext hother => exact absurd hheader hother
  next hheader =>
    cases unencrypted with
    | false =>
      constructor
      · intro h
        simp only [Bool.false_eq_true, if_false] at h
        cases h
      · intro h
        cases h with
        | encrypted hother => exact absurd hother hheader
    | true =>
      simp only [if_true]
      cases hplain : plaintextBundle x js bytes with
      | some found =>
        constructor
        · intro h
          cases Except.ok.inj h
          obtain ⟨text, htext, hreads⟩ := plaintextBundle_eq_some.mp hplain
          exact .plaintext hheader htext hreads
        · intro h
          cases h with
          | plaintext _ htext hreads =>
            have hsame := plaintextBundle_eq_some.mpr ⟨_, htext, hreads⟩
            rw [hplain] at hsame
            rw [Option.some.inj hsame]
      | none =>
        constructor
        · intro h
          cases h
        · intro h
          cases h with
          | plaintext _ htext hreads =>
            have hsame := plaintextBundle_eq_some.mpr ⟨_, htext, hreads⟩
            rw [hplain] at hsame
            cases hsame

theorem not_keyV1_of_bundleV2 (h : intoBytes "SEALEDGE-KEY-V2\n" <+: bytes) :
    isEncryptedKeyFile bytes = false := by
  refine decide_eq_false fun hold => ?_
  have hsame := List.prefix_of_prefix_length_le h hold (by decide)
  exact absurd (hsame.eq_of_length (by decide)) (by decide)

theorem signingFromBytes_eq_ok {unencrypted : Bool} {typed : Option String} {k : DeviceKeypair} :
    signingFromBytes x sc js bytes unencrypted typed = .ok k ↔
      (∃ b, BundleFile x sc js bytes unencrypted typed b ∧ b.signing = k) ∨
        LegacyFile x sc js bytes unencrypted typed k := by
  unfold signingFromBytes
  split
  next hheader =>
    constructor
    · intro h
      obtain ⟨b, hb, rfl⟩ := map_eq_ok.mp h
      obtain ⟨rfl, passphrase, rfl, hopens⟩ := decryptBundle_eq_ok.mp hb
      exact .inl ⟨b, .encrypted hheader hopens, rfl⟩
    · rintro (⟨b, hb, rfl⟩ | hold)
      · cases hb with
        | encrypted _ hopens =>
          exact map_eq_ok.mpr ⟨b, decryptBundle_eq_ok.mpr ⟨rfl, _, rfl, hopens⟩, rfl⟩
        | plaintext hother => exact absurd hheader hother
      · cases hold with
        | encrypted hother =>
          rw [not_keyV1_of_bundleV2 hheader] at hother
          cases hother
        | plaintext hother => exact absurd hheader hother
  next hheader =>
    cases unencrypted with
    | true =>
      simp only [if_true]
      constructor
      · intro h
        obtain ⟨text, htext, h⟩ := bind_eq_ok.mp h
        have htext := orFail_eq_ok.mp htext
        split at h
        next b hreads =>
          cases Except.ok.inj h
          exact .inl ⟨b, .plaintext hheader htext hreads, rfl⟩
        next e hbare =>
          exact .inr (.plaintext hheader htext hbare (mapError_eq_ok.mp h))
      · rintro (⟨b, hb, rfl⟩ | hold)
        · cases hb with
          | plaintext _ htext hreads =>
            refine bind_eq_ok.mpr ⟨_, orFail_eq_ok.mpr htext, ?_⟩
            simp only [hreads]
        · cases hold with
          | plaintext _ htext hbare hreads =>
            refine bind_eq_ok.mpr ⟨_, orFail_eq_ok.mpr htext, ?_⟩
            simp only [hbare]
            exact mapError_eq_ok.mpr hreads
    | false =>
      simp only [Bool.false_eq_true, if_false]
      split
      next hold =>
        constructor
        · intro h
          obtain ⟨passphrase, htyped, h⟩ := bind_eq_ok.mp h
          cases orFail_eq_ok.mp htyped
          exact .inr (.encrypted hold (mapError_eq_ok.mp h))
        · rintro (⟨b, hb, -⟩ | hlegacy)
          · cases hb with
            | encrypted hother => exact absurd hother hheader
          · cases hlegacy with
            | encrypted _ hopens =>
              exact bind_eq_ok.mpr ⟨_, rfl, mapError_eq_ok.mpr hopens⟩
      next hnone =>
        constructor
        · intro h
          cases h
        · rintro (⟨b, hb, -⟩ | hlegacy)
          · cases hb with
            | encrypted hother => exact absurd hother hheader
          · cases hlegacy with
            | encrypted hold => exact absurd hold hnone

theorem LegacyFile.not_bundleFile {unencrypted : Bool} {typed other : Option String}
    {k : DeviceKeypair} {b : DeviceBundle} (h : LegacyFile x sc js bytes unencrypted typed k) :
    ¬ BundleFile x sc js bytes unencrypted other b := by
  intro hb
  cases h with
  | encrypted hold =>
    cases hb with
    | encrypted hheader =>
      rw [not_keyV1_of_bundleV2 hheader] at hold
      cases hold
  | plaintext _ htext hbare =>
    cases hb with
    | plaintext _ htext' hreads =>
      cases Option.some.inj (htext.symm.trans htext')
      rw [hbare] at hreads
      cases hreads

theorem loadBundle_eq_ok {unencrypted : Bool} {typed : Option String} {b : DeviceBundle} :
    loadBundle x sc js path unencrypted typed disk = .ok b ↔
      ∃ bytes, disk (Path.ofText path).components = .file bytes ∧
        BundleFile x sc js bytes unencrypted typed b := by
  unfold loadBundle
  simp only [bind_eq_ok, readKeyFile_eq_ok, bundleFromBytes_eq_ok]

theorem loadSigningKeypair_eq_ok {unencrypted : Bool} {typed : Option String}
    {k : DeviceKeypair} :
    loadSigningKeypair x sc js path unencrypted typed disk = .ok k ↔
      ∃ bytes, disk (Path.ofText path).components = .file bytes ∧
        ((∃ b, BundleFile x sc js bytes unencrypted typed b ∧ b.signing = k) ∨
          LegacyFile x sc js bytes unencrypted typed k) := by
  unfold loadSigningKeypair
  simp only [bind_eq_ok, readKeyFile_eq_ok, signingFromBytes_eq_ok]

theorem unseal_of_signing {typed : Option String} {k : DeviceKeypair}
    (h : (∃ b, BundleFile x sc js bytes false typed b ∧ b.signing = k) ∨
      LegacyFile x sc js bytes false typed k) :
    ∃ passphrase l plaintext p, typed = some passphrase ∧ (l = keyLayoutV1 ∨ l = keyLayoutV2) ∧
      l.Opened x sc js bytes passphrase plaintext p := by
  rcases h with ⟨b, hb, -⟩ | hlegacy
  · cases hb with
    | encrypted _ hopens =>
      obtain ⟨plaintext, hunseal, -⟩ := bind_eq_ok.mp hopens
      obtain ⟨p, hp⟩ := (KeyLayout.unseal_eq_ok (by decide)).mp hunseal
      exact ⟨_, keyLayoutV2, plaintext, p, rfl, .inr rfl, hp⟩
  · cases hlegacy with
    | encrypted _ hopens =>
      obtain ⟨plaintext, hunseal, -⟩ := bind_eq_ok.mp hopens
      obtain ⟨p, hp⟩ := (KeyLayout.unseal_eq_ok (by decide)).mp hunseal
      exact ⟨_, keyLayoutV1, plaintext, p, rfl, .inl rfl, hp⟩

end Loading

/-- The two loaders agree on every file, flag and passphrase: a bundle that one accepts gives the
other its signing key, and what only the second accepts is a key from before the bundles. What
either opens with a passphrase is sealed with an iteration count within the bounds. -/
theorem loaders_agree (x : Crates) (sc : SecretCrates) (js : JsonCrate) (path : String)
    (unencrypted : Bool) (typed : Option String) (disk : Disk) :
    (∀ b, loadBundle x sc js path unencrypted typed disk = .ok b →
      loadSigningKeypair x sc js path unencrypted typed disk = .ok b.signing) ∧
    (∀ k, loadSigningKeypair x sc js path unencrypted typed disk = .ok k →
      (∃ b, loadBundle x sc js path unencrypted typed disk = .ok b ∧ b.signing = k) ∨
      (∀ other b, loadBundle x sc js path unencrypted other disk ≠ .ok b) ∧
        ∃ bytes, disk (Path.ofText path).components = .file bytes ∧
          LegacyFile x sc js bytes unencrypted typed k) ∧
    (∀ k, unencrypted = false →
      loadSigningKeypair x sc js path unencrypted typed disk = .ok k →
      ∃ bytes passphrase l plaintext p, disk (Path.ofText path).components = .file bytes ∧
        typed = some passphrase ∧ (l = keyLayoutV1 ∨ l = keyLayoutV2) ∧
        l.Opened x sc js bytes passphrase plaintext p) := by
  refine ⟨?_, ?_, ?_⟩
  · intro b hload
    obtain ⟨bytes, hfile, hb⟩ := loadBundle_eq_ok.mp hload
    exact loadSigningKeypair_eq_ok.mpr ⟨bytes, hfile, .inl ⟨b, hb, rfl⟩⟩
  · intro k hload
    obtain ⟨bytes, hfile, ⟨b, hb, hk⟩ | hlegacy⟩ := loadSigningKeypair_eq_ok.mp hload
    · exact .inl ⟨b, loadBundle_eq_ok.mpr ⟨bytes, hfile, hb⟩, hk⟩
    · refine .inr ⟨fun other b hother => ?_, bytes, hfile, hlegacy⟩
      obtain ⟨bytes', hfile', hb⟩ := loadBundle_eq_ok.mp hother
      cases Node.file.inj (hfile.symm.trans hfile')
      exact hlegacy.not_bundleFile hb
  · rintro k rfl hload
    obtain ⟨bytes, hfile, h⟩ := loadSigningKeypair_eq_ok.mp hload
    obtain ⟨passphrase, l, plaintext, p, htyped, hl, hp⟩ := unseal_of_signing h
    exact ⟨bytes, passphrase, l, plaintext, p, hfile, htyped, hl, hp⟩

end Sealedge
