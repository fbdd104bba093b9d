import Sealedge.Attestations

namespace Sealedge

open Fallible UnixPath

section Soundness

variable {x : Crates} {c : ContentCrates} {fig : Figures} {st : Storage}

theorem SigningEvent.Signs.attestation_of_canonicalBytes (hx : x.text.Escapes) {k : DeviceKeypair}
    {e : SigningEvent} {a : PointAttestation}
    (h : e.Signs x c fig st k (a.canonicalBytes x.text)) :
    ∃ subject evidence nonceBytes timestamp made,
      e = .attestation subject evidence k nonceBytes timestamp ∧
      PointAttestation.create x st subject evidence k nonceBytes timestamp = .ok made ∧
      a.SameSigned made := by
  obtain ⟨s, hs⟩ := PointAttestation.canonicalBytes_head x.text a
  cases e with
  | wrap env args =>
    obtain ⟨archive, -, -, hbytes⟩ := h
    obtain ⟨t, ht⟩ := toCanonicalBytes_head x.text archive.manifest
    exact absurd (hs.symm.trans (hbytes.trans ht)) (intoBytes_ne_of_diverge (by decide))
  | rotation =>
    obtain ⟨t, ht⟩ := RotationRecord.signingBytes_head x.text
      (RotationRecord.createSigned x _ _ _ _ _ _ _)
    exact absurd (hs.symm.trans (h.2.trans ht)) (intoBytes_ne_of_diverge (by decide))
  | witness =>
    obtain ⟨t, ht⟩ := WitnessRequest.signingBytes_head x.text
      (WitnessRequest.createSigned x _ _ _ _)
    exact absurd (hs.symm.trans (h.2.trans ht)) (intoBytes_ne_of_diverge (by decide))
  | attestation subject evidence keypair nonceBytes timestamp =>
    obtain ⟨rfl, made, hmade, hbytes⟩ := h
    exact ⟨subject, evidence, nonceBytes, timestamp, made, rfl, hmade,
      PointAttestation.sameSigned_of_canonicalBytes_eq hx hbytes⟩

theorem PointAttestation.SameSigned.artifacts {a b : PointAttestation} (h : a.SameSigned b) :
    a.subject = b.subject ∧ a.evidence = b.evidence := by
  unfold SameSigned at h
  cases b
  cases h
  exact ⟨rfl, rfl⟩

/-- A document whose signature is no forgery was made by a call if it verifies. -/
theorem PointAttestation.made_of_verifySignature (hx : x.text.Escapes) {k : DeviceKeypair}
    {history : Set SigningEvent} {a : PointAttestation}
    (hunforgeable : ∀ signature ∈ a.signature,
      Unforgeable x c fig st k history (a.canonicalBytes x.text) signature)
    (h : a.verifySignature x (k.public x) = .ok true) :
    ∃ subject evidence nonceBytes timestamp made,
      .attestation subject evidence k nonceBytes timestamp ∈ history ∧
      PointAttestation.create x st subject evidence k nonceBytes timestamp = .ok made ∧
      a.SameSigned made := by
  unfold PointAttestation.verifySignature at h
  split at h
  next => cases h
  next signature hsignature =>
    obtain ⟨e, he, hsigns⟩ := hunforgeable signature hsignature (mapError_eq_ok.mp h)
    obtain ⟨subject, evidence, nonceBytes, timestamp, made, rfl, hmade, hsame⟩ :=
      hsigns.attestation_of_canonicalBytes hx
    exact ⟨subject, evidence, nonceBytes, timestamp, made, he, hmade, hsame⟩

/-- The contents that are hashed: those on a disk, and those of the artifacts of a history. -/
def attestedContents (disk : Disk) (history : Set SigningEvent) : Set Bytes :=
  { bytes | (∃ path, disk.at path = .file bytes) ∨
    ∃ subject evidence k nonceBytes timestamp,
      .attestation subject evidence k nonceBytes timestamp ∈ history ∧
        (subject.file = .file bytes ∨ evidence.file = .file bytes) }

theorem file_eq_of_hashFile {contents : Set Bytes} (hinj : Set.InjOn x.blake3 contents)
    {node other : Node} {hash : String} (hnode : hashFile x node = .ok hash)
    (hother : hashFile x other = .ok hash) (hin : ∀ bytes, node = .file bytes → bytes ∈ contents)
    (hin' : ∀ bytes, other = .file bytes → bytes ∈ contents) : node = other := by
  obtain ⟨bytes, rfl, hbytes⟩ := hashFile_eq_ok.mp hnode
  obtain ⟨bytes', rfl, hbytes'⟩ := hashFile_eq_ok.mp hother
  have hdigest : x.blake3 bytes = x.blake3 bytes' := Subtype.ext
    (Numerals.hexEncode_injective ((String.append_right_inj "b3:").mp (hbytes.symm.trans hbytes')))
  rw [hinj (hin bytes rfl) (hin' bytes' rfl) hdigest]

end Soundness

/-- An accepted attestation was made: if its signature is no forgery under the key, a document that
is accepted with both files was made by a call for exactly these files, and a document that names
the key and that the platform calls verified was made by a call, too. -/
theorem accepted_attestation_was_made {x : Crates} {c : ContentCrates} {fig : Figures}
    {st : Storage} {js : JsonCrate} (hx : x.text.Escapes) {k : DeviceKeypair}
    {history : Set SigningEvent} {text : String} {a : PointAttestation}
    (ha : PointAttestation.fromJson js text = some a)
    (hunforgeable : ∀ signature ∈ a.signature,
      Unforgeable x c fig st k history (a.canonicalBytes x.text) signature) :
    (∀ disk attestation pub binary sbom, Set.InjOn x.blake3 (attestedContents disk history) →
      resolveAttestationKey pub disk = .ok (k.public x) →
      readToString (disk.at attestation) = .ok text →
      handleVerifyAttestation x js ⟨attestation, pub, some binary, some sbom⟩ disk = .ok () →
      ∃ subject evidence nonceBytes timestamp made,
        .attestation subject evidence k nonceBytes timestamp ∈ history ∧
        PointAttestation.create x st subject evidence k nonceBytes timestamp = .ok made ∧
        a.SameSigned made ∧ disk.at binary = subject.file ∧ disk.at sbom = evidence.file) ∧
    ∀ env r, verifyAttestationHandler x js env text = .ok r → r.status = "verified" →
      a.publicKey = k.public x →
      ∃ subject evidence nonceBytes timestamp made,
        .attestation subject evidence k nonceBytes timestamp ∈ history ∧
        PointAttestation.create x st subject evidence k nonceBytes timestamp = .ok made ∧
        a.SameSigned made := by
  refine ⟨fun disk attestation pub binary sbom hinj hpub hread haccepts => ?_,
    fun env r hanswer hstatus hkey => ?_⟩
  · obtain ⟨json, a', key, hread', ha', hkey, hvalid, hhashes⟩ :=
      handleVerifyAttestation_eq_ok.mp haccepts
    cases Except.ok.inj (hkey.symm.trans hpub)
    cases Except.ok.inj (hread'.symm.trans hread)
    cases Option.some.inj (ha.symm.trans ha')
    obtain ⟨subject, evidence, nonceBytes, timestamp, made, hevent, hmade, hsame⟩ :=
      PointAttestation.made_of_verifySignature hx hunforgeable hvalid
    have hof := PointAttestation.create_eq_ok hmade
    obtain ⟨hsubject, hevidence⟩ := hsame.artifacts
    obtain ⟨hbinary, hsbom⟩ := PointAttestation.verifyFileHashes_eq_ok.mp hhashes
    refine ⟨subject, evidence, nonceBytes, timestamp, made, hevent, hmade, hsame, ?_, ?_⟩
    · exact file_eq_of_hashFile hinj (hbinary _ rfl) (hsubject ▸ hof.subject)
        (fun bytes hbytes => .inl ⟨binary, hbytes⟩) fun bytes hbytes =>
          .inr ⟨subject, evidence, k, nonceBytes, timestamp, hevent, .inl hbytes⟩
    · exact file_eq_of_hashFile hinj (hsbom _ rfl) (hevidence ▸ hof.evidence)
        (fun bytes hbytes => .inl ⟨sbom, hbytes⟩) fun bytes hbytes =>
          .inr ⟨subject, evidence, k, nonceBytes, timestamp, hevent, .inr hbytes⟩
  · obtain ⟨a', jws, ha', -, hvalid, -, -⟩ :=
      verifyAttestationHandler_verified.mp ⟨hanswer, hstatus⟩
    cases Option.some.inj (ha.symm.trans ha')
    rw [hkey] at hvalid
    exact PointAttestation.made_of_verifySignature hx hunforgeable hvalid

section Sample

/-- The call that attests the release. -/
def releaseEvent : SigningEvent :=
  .attestation (artifactAt releaseDisk "app" "binary") (artifactAt releaseDisk "sbom.json" "sbom")
    (sampleKey 1) [] "2026-01-01T00:00:00.000Z"

theorem intoBytes_toJson (js : JsonCrate) (a : PointAttestation) :
    ∃ rest, intoBytes (a.toJson js) = 123 :: rest := by
  unfold PointAttestation.toJson PointAttestation.toDocument
  rw [intoBytes_eq_flatMap, String.toList_ofList, render]
  exact ⟨_, rfl⟩

/-- The release with a document beside it. -/
def documentedRelease (document : Bytes) : Disk :=
  Function.update releaseDisk (Path.ofText "release.json").components (.file document)

theorem documentedRelease_contents {document bytes : Bytes} {path : String}
    (h : (documentedRelease document).at path = .file bytes) :
    bytes = document ∨ bytes = [1, 2, 3] ∨ bytes = intoBytes "[]" := by
  unfold Disk.at documentedRelease at h
  by_cases hpath : (Path.ofText path).components = (Path.ofText "release.json").components
  · rw [hpath, Function.update_self] at h
    exact .inl (Node.file.inj h).symm
  · rw [Function.update_of_ne hpath, releaseDisk] at h
    split at h
    next => exact .inr (.inl (Node.file.inj h).symm)
    next =>
      split at h
      next => exact .inr (.inr (Node.file.inj h).symm)
      next => cases h

theorem documentedRelease_files (document : Bytes) :
    (documentedRelease document).at "release.json" = .file document ∧
      (documentedRelease document).at "app" = releaseDisk.at "app" ∧
      (documentedRelease document).at "sbom.json" = releaseDisk.at "sbom.json" := by
  unfold Disk.at documentedRelease
  exact ⟨Function.update_self _ _ _, Function.update_of_ne (by decide +kernel) _ _,
    Function.update_of_ne (by decide +kernel) _ _⟩

theorem documentedRelease_injOn {document rest : Bytes} (hdocument : document = 123 :: rest) :
    Set.InjOn headHash (attestedContents (documentedRelease document) {releaseEvent}) := by
  have hsbom : intoBytes "[]" = 91 :: [93] := by decide +kernel
  have hcontents : ∀ bytes ∈ attestedContents (documentedRelease document) {releaseEvent},
      bytes = 123 :: rest ∨ bytes = 1 :: [2, 3] ∨ bytes = 91 :: [93] := by
    rintro bytes (⟨path, hpath⟩ | ⟨subject, evidence, k, nonceBytes, timestamp, hevent, hfile⟩)
    · rw [← hdocument, ← hsbom]
      exact documentedRelease_contents hpath
    · cases hevent
      have happ : releaseDisk.at "app" = .file [1, 2, 3] := by decide +kernel
      have hbill : releaseDisk.at "sbom.json" = .file [91, 93] := by decide +kernel
      rcases hfile with hfile | hfile
      · exact .inr (.inl (Node.file.inj (hfile.symm.trans happ)))
      · exact .inr (.inr (Node.file.inj (hfile.symm.trans hbill)))
  intro a ha b hb hsame
  rcases hcontents a ha with rfl | rfl | rfl <;> rcases hcontents b hb with rfl | rfl | rfl <;>
    first
    | rfl
    | exact absurd (headHash_head hsame) (by decide)

/-- The release is accepted with its document, and goes back to the call. -/
theorem accepted_attestation_sample : ∃ document : Bytes,
    handleVerifyAttestation headCrates sampleJson ⟨"release.json",
      (sampleKey 1).public headCrates, some "app", some "sbom.json"⟩
      (documentedRelease document) = .ok () ∧
    ∃ subject evidence nonceBytes timestamp,
      .attestation subject evidence (sampleKey 1) nonceBytes timestamp ∈
        ({releaseEvent} : Set SigningEvent) ∧
      (documentedRelease document).at "app" = subject.file ∧
      (documentedRelease document).at "sbom.json" = evidence.file := by
  obtain ⟨made, hmade⟩ : ∃ made, PointAttestation.create headCrates sampleFiles
      (artifactAt releaseDisk "app" "binary") (artifactAt releaseDisk "sbom.json" "sbom")
      (sampleKey 1) [] "2026-01-01T00:00:00.000Z" = .ok made :=
    ⟨_, bind_eq_ok.mpr ⟨_, hashFile_eq_ok.mpr ⟨[1, 2, 3], by decide +kernel, rfl⟩,
      bind_eq_ok.mpr ⟨_, hashFile_eq_ok.mpr ⟨[91, 93], by decide +kernel, rfl⟩, rfl⟩⟩⟩
  obtain ⟨document, hdocument⟩ : ∃ document, document = intoBytes (made.toJson sampleJson) :=
    ⟨_, rfl⟩
  have hmadeOf := PointAttestation.create_eq_ok hmade
  have hvalid := PointAttestation.verifySignature_create headCrates_signsLawfully hmade
  obtain ⟨hfile, happ, hbill⟩ := documentedRelease_files document
  have hkey : resolveAttestationKey ((sampleKey 1).public headCrates)
      (documentedRelease document) = .ok ((sampleKey 1).public headCrates) :=
    if_pos (Texts.startsWith_append _ _)
  have haccepts : handleVerifyAttestation headCrates sampleJson
      ⟨"release.json", (sampleKey 1).public headCrates, some "app",
        some "sbom.json"⟩ (documentedRelease document) = .ok () := by
    refine handleVerifyAttestation_eq_ok.mpr ⟨made.toJson sampleJson, made, _, ?_,
      made.fromJson_toJson sampleJson_lossless, hkey, hvalid,
      PointAttestation.verifyFileHashes_eq_ok.mpr ⟨?_, ?_⟩⟩
    · rw [hfile, hdocument, readToString_file]
    · rintro node ⟨⟩
      rw [happ]
      exact hmadeOf.subject
    · rintro node ⟨⟩
      rw [hbill]
      exact hmadeOf.evidence
  have hunforgeable : ∀ signature ∈ made.signature, Unforgeable headCrates sampleContent
      sampleFigures sampleFiles (sampleKey 1) {releaseEvent} (made.canonicalBytes headCrates.text)
      signature :=
    fun _ _ _ => ⟨releaseEvent, rfl, rfl, made, hmade, rfl⟩
  obtain ⟨rest, hrest⟩ := intoBytes_toJson sampleJson made
  obtain ⟨subject, evidence, nonceBytes, timestamp, _, hevent, -, -, hbinary, hsbom⟩ :=
    (accepted_attestation_was_made serdeText_lawful.escapes
      (made.fromJson_toJson sampleJson_lossless) hunforgeable).1 _ _ _ _ _
      (documentedRelease_injOn (hdocument.trans hrest)) hkey
      (by rw [hfile, hdocument, readToString_file]) haccepts
  exact ⟨document, haccepts, subject, evidence, nonceBytes, timestamp, hevent, hbinary, hsbom⟩

end Sample

end Sealedge
