import Sealedge.EmitRequest
import Sealedge.JsonReader
import Sealedge.ManifestFiles

namespace Sealedge

theorem finalize_of_fits {st : Storage} {w : ArchiveWriter} {m : TrstManifest}
    (detachedSig : Bytes) (hcount : m.segments.length = w.nextIndex.toNat)
    (hcap : (intoBytes (st.printManifest m)).length ≤ manifestMaxBytes) :
    w.finalize st (fun _ => none) m detachedSig =
      .ok { w.dir with
        manifestJson := w.dir.manifestJson.write (intoBytes (st.printManifest m))
        manifestSig := w.dir.manifestSig.write detachedSig } := by
  have hcount' : (m.segments.length != w.nextIndex.toNat) = false := by simp [hcount]
  have hcap' : decide (manifestMaxBytes < (intoBytes (st.printManifest m)).length) = false :=
    decide_eq_false (Nat.not_lt.mpr hcap)
  simp only [ArchiveWriter.finalize, hcount', hcap']
  rfl

/-- A manifest was read that is signed by the same signature over the same bytes. -/
def KeepsSignature (m : TrstManifest) (read : Option TrstManifest) : Prop :=
  ∃ m', read = some m' ∧ (∀ codec, m'.toCanonicalBytes codec = m.toCanonicalBytes codec) ∧
    m'.signature = m.signature

/-- A signature survives the archive of a manifest and the request for its verification. -/
theorem signature_survives_storage_and_transport {js : JsonCrate} (hjs : js.Lossless)
    {m : TrstManifest} (hfinite : ∀ f ∈ m.floats, f.isFinite = true) :
    (∀ (st : Storage) (faults : Faults) (w : ArchiveWriter) (detachedSig : Bytes) (dir : SealDir)
        (bytes : Bytes),
      w.finalize (st.withManifestText js) faults m detachedSig = .ok dir →
      dir.manifestJson = .file bytes → KeepsSignature m (readManifestText js bytes)) ∧
    ∀ (x : Crates) (st : Storage) (args : EmitRequestCmd) (sig : Bytes) (request : VerifyRequest),
      readManifest st args.archive = .ok (m, sig) → handleEmitRequest x st args = .ok request →
      KeepsSignature m (TrstManifest.fromValue request.manifest) := by
  refine ⟨?_, ?_⟩
  · intro st faults w detachedSig dir bytes hfinalize hjson
    have hdir := congrArg SealDir.manifestJson (ArchiveWriter.finalize_eq_ok hfinalize).written
    have hwritten : w.dir.manifestJson.write (intoBytes (manifestText js m)) = .file bytes :=
      hdir.symm.trans hjson
    rw [(Node.write_eq_file hwritten).2]
    exact ⟨m, readManifestText_manifestText hjs hfinite, fun _ => rfl, rfl⟩
  · intro x st args sig request hread hemit
    obtain ⟨m', sig', files, content, hread', -, -, rfl⟩ := handleEmitRequest_eq_ok.mp hemit
    rw [hread] at hread'
    obtain ⟨rfl, -⟩ := Prod.mk.inj (Except.ok.inj hread')
    exact ⟨m, fromValue_toValue hfinite, fun _ => rfl, rfl⟩

/-- A writer that has stored one empty chunk. -/
def oneChunkWriter : ArchiveWriter where
  dir := { SealDir.empty "cam.seal" with
    chunks := .directory (Listing.empty.put (intoBytes (chunkFileName 0)) (.file [])) }
  nextIndex := 1
  chainState := sampleHash []

def sampleFiles : Storage where
  parseManifest _ := .error "expected value at line 1 column 1"
  printManifest _ := "null"
  parseRotation _ := .error "expected value at line 1 column 1"
  printRotation _ := "null"
  parseState _ := .error "expected value at line 1 column 1"
  printState _ := "null"
  utf8Lossy bytes := (utf8Decode bytes).getD "�"

def signedSample : TrstManifest :=
  { sampleManifest with signature := some "ed25519:c2ln" }

/-- The archive of the signed manifest. -/
def sampleArchive : SealDir :=
  { oneChunkWriter.dir with
    manifestJson := .file (intoBytes (manifestText sampleJson signedSample))
    manifestSig := .file (intoBytes "ed25519:c2ln") }

theorem sampleArchive_manifestJson : sampleArchive.manifestJson =
    .file (intoBytes (manifestText sampleJson signedSample)) := by
  unfold sampleArchive
  rfl

theorem length_intoBytes_le (s : String) : (intoBytes s).length ≤ 4 * s.toList.length := by
  rw [intoBytes_eq_flatMap]
  induction s.toList with
  | nil => simp
  | cons c rest ih =>
    have hc := c.utf8Size_le_four
    rw [List.flatMap_cons, List.length_append, String.length_utf8EncodeChar, List.length_cons]
    omega

theorem manifestText_capped :
    (intoBytes (manifestText sampleJson signedSample)).length ≤ manifestMaxBytes := by
  have hchars : 4 * (render sampleJson (some 0) signedSample.toDocument).length ≤
      manifestMaxBytes := by
    decide +kernel
  refine (length_intoBytes_le _).trans ?_
  rw [manifestText, String.toList_ofList]
  exact hchars

theorem finalize_signedSample :
    oneChunkWriter.finalize (sampleFiles.withManifestText sampleJson) (fun _ => none)
      signedSample (intoBytes "ed25519:c2ln") = .ok sampleArchive :=
  finalize_of_fits _ rfl manifestText_capped

theorem readManifest_sampleArchive :
    readManifest (sampleFiles.withManifestText sampleJson) sampleArchive =
      .ok (signedSample, intoBytes "ed25519:c2ln") := by
  have hparsed := parseManifest_withManifestText sampleJson_lossless (m := signedSample)
    (by decide) sampleFiles
  refine readManifest_eq_ok.mpr ⟨_, rfl, manifestText_capped, hparsed, rfl, by decide, ?_⟩
  intro embedded h
  obtain rfl := Option.some.inj h
  show (utf8Decode (intoBytes "ed25519:c2ln")).getD "�" = "ed25519:c2ln"
  rw [utf8Decode_intoBytes, Option.getD_some]

/-- The request for the sample archive. -/
def sampleEmitRequest : EmitRequestCmd where
  archive := sampleArchive
  devicePub := .file (intoBytes "ed25519:a2V5")

theorem handleEmitRequest_sampleArchive :
    ∃ request, handleEmitRequest sampleCrates (sampleFiles.withManifestText sampleJson)
      sampleEmitRequest = .ok request := by
  have hfiles : FilesNamed sampleArchive.chunks 0 signedSample.segments [[]] := by
    refine .cons (by decide) ?_ (by decide) .nil
    exact Listing.node_put_self _ _ _
  have hpub : readToString sampleEmitRequest.devicePub = .ok "ed25519:a2V5" := by
    simp [readToString, sampleEmitRequest, Node.read, utf8Decode_intoBytes, bind, Except.bind]
  exact ⟨_, handleEmitRequest_eq_ok.mpr
    ⟨signedSample, _, [[]], _, readManifest_sampleArchive, hfiles, hpub, rfl⟩⟩

/-- A signed manifest through its archive and through the request for it. -/
theorem signature_survives_for_sample :
    (∃ dir bytes, oneChunkWriter.finalize (sampleFiles.withManifestText sampleJson)
        (fun _ => none) signedSample (intoBytes "ed25519:c2ln") = .ok dir ∧
      dir.manifestJson = .file bytes ∧
      KeepsSignature signedSample (readManifestText sampleJson bytes)) ∧
    ∃ request, handleEmitRequest sampleCrates (sampleFiles.withManifestText sampleJson)
        sampleEmitRequest = .ok request ∧
      KeepsSignature signedSample (TrstManifest.fromValue request.manifest) := by
  have hsurvives := signature_survives_storage_and_transport sampleJson_lossless
    (m := signedSample) (by decide)
  obtain ⟨request, hrequest⟩ := handleEmitRequest_sampleArchive
  exact ⟨⟨sampleArchive, _, finalize_signedSample, sampleArchive_manifestJson,
      hsurvives.1 _ _ _ _ _ _ finalize_signedSample sampleArchive_manifestJson⟩,
    ⟨request, hrequest, hsurvives.2 _ _ sampleEmitRequest _ _ readManifest_sampleArchive hrequest⟩⟩

end Sealedge
