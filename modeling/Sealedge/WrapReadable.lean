import Sealedge.JsonReader
import Sealedge.Recovery
import Sealedge.Verify
import Sealedge.WrapInputs

namespace Sealedge

open Fallible PieceReader

section Opening

variable {x : Crates} {c : ContentCrates}

theorem sealRecipients_pubs {ephemeral : Nat → Bytes} {info aad : Bytes} {cek : ContentKey}
    {i : Nat} {pubs : List String} {entries : List RecipientEntry}
    (h : sealRecipients x c ephemeral info aad cek i pubs = .ok entries) :
    entries.map RecipientEntry.recipientPub = pubs := by
  induction pubs generalizing i entries with
  | nil =>
    cases h
    rfl
  | cons pub rest ih =>
    obtain ⟨_, -, h⟩ := bind_eq_ok.mp h
    obtain ⟨_, -, h⟩ := bind_eq_ok.mp h
    obtain ⟨tail, htail, h⟩ := bind_eq_ok.mp h
    cases h
    rw [List.map_cons, ih htail]

theorem recoverChunks_stored (hc : c.Correct) {faults : OutputFaults}
    (hfaults : ∀ i, faults.write i = none) {dir : SealDir} {job : ChunkJob} {i : Nat}
    {chunks stored : List Bytes} (hstored : StoredFrom c job i chunks stored)
    (hholds : dir.chunks.HoldsFrom i stored) :
    recoverChunks c faults dir (job.cek.map (fun key => (key, job.aad))) i stored.length =
      .ok chunks.flatten := by
  induction hstored with
  | nil => rfl
  | @cons i chunk bytes chunks stored head tail ih =>
    obtain ⟨hnode, hcap⟩ := hholds 0 bytes rfl
    refine bind_eq_ok.mpr ⟨bytes, readStored_eq_ok.mpr ⟨hnode, hcap⟩, ?_⟩
    refine bind_eq_ok.mpr ⟨chunk, recoverChunk_stored hc head, ?_⟩
    refine bind_eq_ok.mpr ⟨(), outputStep_eq_ok.mpr (hfaults i), ?_⟩
    exact bind_eq_ok.mpr ⟨chunks.flatten, ih hholds.tail, rfl⟩

end Opening

/-- The files in `chunks` before a wrap; a directory that is created has none. -/
def SealDir.chunkListing (dir : SealDir) : Listing :=
  match dir.chunks with
  | .directory listing => listing
  | _ => .empty

/-- What the manifest file of a wrap is read back as: a valid manifest that is signed alike. -/
structure ReadsBack (x : Crates) (st : Storage) (m m' : TrstManifest) : Prop where
  parsed : st.parseManifest (intoBytes (st.printManifest m)) = .ok m'
  bytes : m'.toCanonicalBytes x.text = m.toCanonicalBytes x.text
  signature : m'.signature = m.signature
  valid : m'.validate = .ok ()

/-- An output directory that `n` chunks and a manifest can be written to, without a `.bin` file
beside those that are written over. -/
structure OutputClean (st : Storage) (out : SealDir) (n : Nat) : Prop where
  json : out.manifestJson.Writable
  detached : out.manifestSig.Writable
  listed : out.chunkListing.breaksOff = none
  writable : ∀ i < n, (out.chunkListing.node (intoBytes (chunkFileName i))).Writable
  noOther : ∀ name ∈ out.chunkListing.files.keys,
    Texts.endsWith (st.utf8Lossy name) ".bin" = true →
    ∃ i < n, st.utf8Lossy name = chunkFileName i

/-- What a wrap that has reported success left in its output directory. -/
structure LeftBehind (st : Storage) (out dir : SealDir) (a : SignedArchive) : Prop where
  json : dir.manifestJson = out.manifestJson.write (intoBytes (st.printManifest a.manifest))
  capped : (intoBytes (st.printManifest a.manifest)).length ≤ manifestMaxBytes
  detached : dir.manifestSig = out.manifestSig.write (intoBytes a.signature)
  chunks : dir.chunks = .directory (out.chunkListing.putChunks 0 a.stored)
  count : a.stored.length < 2 ^ 32

section Readers

variable {x : Crates} {c : ContentCrates} {fig : Figures} {st : Storage} {env : WrapEnv}
  {args : WrapCmd} {a : SignedArchive} {reader : Reader UInt8} {w : ArchiveWriter}
  {chunks : List Bytes} {out : ChunksOut} {deviceId : String} {data : ProfileMetadata}
  {dir : SealDir}

theorem SignedArchive.Made.leftBehind
    (h : a.Made x c fig st env args reader w chunks out deviceId data)
    (hfinal : ArchiveWriter.Finalized st a.writer a.manifest (intoBytes a.signature) dir) :
    LeftBehind st env.output dir a := by
  obtain ⟨created, hcreated, hw⟩ := ArchiveWriter.create_eq_ok h.created
  have hlisting : created = .directory env.output.chunkListing := by
    unfold SealDir.chunkListing
    cases hchunks : env.output.chunks with
    | absent =>
      rw [hchunks] at hcreated
      exact (Except.ok.inj hcreated).symm
    | notDirectory =>
      rw [hchunks] at hcreated
      cases hcreated
    | directory listing =>
      rw [hchunks] at hcreated
      exact (Except.ok.inj hcreated).symm
  have hafter : a.writer = w.after x a.stored := by
    rw [h.writer, h.stored, h.chunks.writer]
  have hkept : a.writer.dir = { env.output with chunks := a.writer.dir.chunks } := by
    rw [hafter, ArchiveWriter.after_dir, hw]
  have hstart : w.nextIndex.toNat = 0 := by
    rw [hw]
    rfl
  have hcount : a.stored.length < 2 ^ 32 := by
    have hcounted := hfinal.counted
    rw [h.segments, segmentsFrom_length] at hcounted
    rw [hcounted]
    exact a.writer.nextIndex.toNat_lt
  refine ⟨?_, hfinal.capped, ?_, ?_, hcount⟩
  · rw [hfinal.written, hkept]
  · rw [hfinal.written, hkept]
  · have hwriter : w.dir.chunks = .directory env.output.chunkListing := by rw [hw, hlisting]
    have hchunks : (w.after x a.stored).dir.chunks = _ :=
      ArchiveWriter.after_chunks hwriter (by omega)
    rw [hfinal.written, hafter, hchunks, hstart]

theorem signArchive_chunkSize (h : signArchive x c fig st env args = .ok a) :
    args.chunkSize ≤ maxChunkSizeBytes := by
  obtain ⟨_, hargs, -⟩ := bind_eq_ok.mp h
  obtain ⟨_, hsize, -⟩ := bind_eq_ok.mp hargs
  have hsize := failWhen_eq_ok.mp hsize
  simpa using hsize

theorem LeftBehind.holdsFrom (h : LeftBehind st env.output dir a)
    (hclean : OutputClean st env.output a.stored.length)
    (hcapped : ∀ bytes ∈ a.stored, bytes.length ≤ maxStoredChunkBytes) :
    dir.chunks.HoldsFrom 0 a.stored := by
  intro i bytes hi
  have hlt : i < a.stored.length := (List.getElem?_eq_some_iff.mp hi).1
  refine ⟨?_, hcapped bytes (List.mem_of_getElem? hi)⟩
  rw [h.chunks]
  show (env.output.chunkListing.putChunks 0 a.stored).node (intoBytes (chunkFileName (0 + i))) = _
  rw [Listing.node_putChunks _ hi, Nat.zero_add]
  exact hclean.writable i hlt bytes

/-- The manifest that is read back from a clean directory, with its signature. -/
theorem SignedArchive.Made.readManifest_eq (hlossy : ∀ s, st.utf8Lossy (intoBytes s) = s)
    (hshort : x.SignsShort) (h : a.Made x c fig st env args reader w chunks out deviceId data)
    (hleft : LeftBehind st env.output dir a) (hclean : OutputClean st env.output a.stored.length)
    {m : TrstManifest}
    (hparsed : st.parseManifest (intoBytes (st.printManifest a.manifest)) = .ok m)
    (hsignature : m.signature = a.manifest.signature) :
    readManifest st dir = .ok (m, intoBytes a.signature) := by
  refine readManifest_eq_ok.mpr ⟨intoBytes (st.printManifest a.manifest), ?_, hleft.capped,
    hparsed, ?_, ?_, ?_⟩
  · rw [hleft.json]
    exact hclean.json _
  · rw [hleft.detached]
    exact hclean.detached _
  · rw [h.signature]
    exact hshort _ _
  · intro embedded hembedded
    rw [hsignature, h.signed] at hembedded
    rw [hlossy]
    exact (Option.some.inj hembedded).symm

/-- What is left behind in a clean directory holds for the manifest it is read back with. -/
theorem SignedArchive.Made.archiveHolds (htext : x.text.Lawful)
    (hlossy : ∀ s, st.utf8Lossy (intoBytes s) = s) (hshort : x.SignsShort)
    (h : a.Made x c fig st env args reader w chunks out deviceId data)
    (hleft : LeftBehind st env.output dir a) (hclean : OutputClean st env.output a.stored.length)
    (hcapped : ∀ bytes ∈ a.stored, bytes.length ≤ maxStoredChunkBytes) {m : TrstManifest}
    (hback : ReadsBack x st a.manifest m) :
    ArchiveHolds x st dir m (intoBytes a.signature) a.stored := by
  obtain ⟨created, -, hw⟩ := ArchiveWriter.create_eq_ok h.created
  have hsame := sameText_of_serializeCanonical_eq htext (toCanonicalBytes_inj.mp hback.bytes)
  have hdescribes : Describes x w m.segments a.stored := by
    have hsegments := hsame.segments
    rw [h.segments] at hsegments
    exact describes_segmentsFrom.of_same hsegments
  have hread := h.readManifest_eq hlossy hshort hleft hclean hback.parsed hback.signature
  refine hdescribes.archiveHolds (by rw [hw]; rfl) (by rw [hw]) hleft.count hread hback.valid
    (hleft.holdsFrom hclean hcapped) hleft.chunks
    (by rw [Listing.breaksOff_putChunks, hclean.listed]) ?_
  intro name hname hbin
  rcases Listing.mem_keys_putChunks.mp hname with ⟨i, hi, hnew⟩ | hold
  · exact ⟨i, hi, by rw [hnew, hlossy, Nat.zero_add]⟩
  · exact hclean.noOther name hold hbin

theorem mem_recipientPubs {kaPub pub : String} {recipients : List String} :
    pub ∈ recipientPubs kaPub recipients ↔ pub = kaPub ∨ pub ∈ recipients := by
  have hfold : ∀ (pubs : List String),
      pub ∈ recipients.foldl (fun pubs r => if pubs.contains r then pubs else pubs ++ [r]) pubs ↔
        pub ∈ pubs ∨ pub ∈ recipients := by
    induction recipients with
    | nil => simp
    | cons r rest ih =>
      intro pubs
      rw [List.foldl_cons, ih, List.mem_cons]
      by_cases hr : r ∈ pubs
      · rw [if_pos (by simpa using hr)]
        constructor
        · rintro (h | h)
          · exact Or.inl h
          · exact Or.inr (Or.inr h)
        · rintro (h | rfl | h)
          · exact Or.inl h
          · exact Or.inl hr
          · exact Or.inr h
      · rw [if_neg (by simpa using hr), List.mem_append, List.mem_singleton, or_assoc]
  unfold recipientPubs
  rw [hfold, List.mem_singleton]

/-- The keys that open an archive: any for a sign-only one, else the device's own and those of the
recipients. -/
def MayOpen (x : Crates) (c : ContentCrates) (args : WrapCmd) (device bundle : DeviceBundle) :
    Prop :=
  args.signOnly = true ∨ bundle.keyAgreement = device.keyAgreement ∨
    bundle.keyAgreement.publicString x c ∈ args.recipients

theorem SignedArchive.Made.openContentKey_ok
    (hbase : ∀ bytes, x.base64Decode (x.base64Encode bytes) = .ok bytes) (hc : c.Correct)
    (hform : c.WellFormed) (h : a.Made x c fig st env args reader w chunks out deviceId data)
    {m : TrstManifest}
    (hsame : SameText (fun f g => x.text.f64Display f = x.text.f64Display g) m a.manifest)
    {bundle : DeviceBundle} (hmay : MayOpen x c args a.bundle bundle) :
    openContentKey x c bundle m = .ok ((chunkJob x env args (a.bundle.signing.public x)).cek.map
      (fun key => (key, (chunkJob x env args (a.bundle.signing.public x)).aad))) := by
  have hopens : ∃ ctx, openContentKey x c bundle m = .ok ctx := by
    unfold openContentKey
    rw [hsame.encryption]
    cases hcek : (chunkJob x env args (a.bundle.signing.public x)).cek with
    | none =>
      rw [h.encryption_none hcek]
      exact ⟨none, rfl⟩
    | some cek =>
      have hencrypted : args.signOnly = false := by
        by_contra hsign
        have hnone : (chunkJob x env args (a.bundle.signing.public x)).cek = none := by
          show (if args.signOnly then none else _) = none
          rw [if_pos (by simpa using hsign)]
        rw [hnone] at hcek
        cases hcek
      have hfinished := h.finished
      rw [hcek] at hfinished
      obtain ⟨recipients, hrecipients, hblock⟩ := sealManifest_some_eq_ok hfinished
      have hblock : a.manifest.encryption = _ := hblock
      have hlisted : bundle.keyAgreement.publicString x c ∈
          recipients.map RecipientEntry.recipientPub := by
        rw [sealRecipients_pubs hrecipients, mem_recipientPubs]
        rcases hmay with hsign | hown | hlisted
        · rw [hencrypted] at hsign
          cases hsign
        · exact Or.inl (by rw [hown])
        · exact Or.inr hlisted
      obtain ⟨listed, hmem, hpub⟩ := List.mem_map.mp hlisted
      obtain ⟨entry, hentry⟩ : ∃ entry, recipients.find?
          (fun r => r.recipientPub == bundle.keyAgreement.publicString x c) = some entry := by
        refine Option.isSome_iff_exists.mp (List.find?_isSome.mpr ⟨listed, hmem, ?_⟩)
        simpa using hpub
      have hmine : entry.recipientPub = bundle.keyAgreement.publicString x c := by
        simpa using List.find?_some hentry
      obtain ⟨random, hseal⟩ := sealRecipients_sealed hrecipients entry
        (List.mem_of_find?_eq_some hentry)
      rw [hmine, stamp_trstVersion] at hseal
      have hpre : ({ m with encryption := none } : TrstManifest).toCanonicalBytes x.text = _ :=
        toCanonicalBytes_inj.mpr (hsame.without_encryption.trans h.without_encryption)
      have hopen := hpkeOpenCek_ok_of_hpkeSealCek hbase hc hform hseal
      have hkept := h.kept
      rw [hblock]
      refine ⟨_, bind_eq_ok.mpr ⟨entry, orFail_eq_ok.mpr hentry, bind_eq_ok.mpr ⟨cek,
        mapError_eq_ok.mpr ?_, rfl⟩⟩⟩
      rw [hpre, hsame.device.publicKey_eq.trans hkept.publicKey, hsame.trstVersion, hkept.version]
      exact hopen
  obtain ⟨ctx, hctx⟩ := hopens
  rw [hctx, h.openContentKey_eq hbase hc hsame hctx]

theorem withAlgorithm_public (k : DeviceKeypair) : withAlgorithm (k.public x) = k.public x := by
  unfold withAlgorithm DeviceKeypair.public
  rw [Texts.startsWith_append]
  rfl

def noFaults : OutputFaults := ⟨none, fun _ => none, none, none, none⟩

/-- A signature does not pass for another message. -/
def SignatureBinds (x : Crates) (k : DeviceKeypair) (msg other : Bytes) : Prop :=
  x.ed25519Verify (x.ed25519Public k.secret) other (x.ed25519Sign k.secret msg) = true → other = msg

/-- `seal verify` accepts under the signing key of the device, and `seal unwrap` gives the input
back to whoever may open the archive. -/
def ReadersAccept (x : Crates) (c : ContentCrates) (st : Storage) (args : WrapCmd)
    (device : DeviceBundle) (dir : SealDir) (input : Node) : Prop :=
  handleVerify x st ⟨dir, device.signing.public x⟩ = .ok () ∧
    ∀ bundle output files, MayOpen x c args device bundle →
      handleUnwrap x c st ⟨.ok bundle, noFaults⟩ ⟨dir, none, output⟩ files =
        (.ok (), ⟨input, .absent⟩)

theorem bytes_eq_of_verifyManifest (hx : x.SignsLawfully) {k : DeviceKeypair} {msg other : Bytes}
    (hbinds : SignatureBinds x k msg other)
    (h : verifyManifest x (k.public x) other (signManifest x k msg) = .ok true) : other = msg := by
  unfold verifyManifest signManifest at h
  rw [Texts.stripPrefix_append, fromPublic_public hx] at h
  obtain ⟨key, hkey, h⟩ := bind_eq_ok.mp h
  obtain ⟨sigBytes, hsig, h⟩ := bind_eq_ok.mp h
  obtain ⟨_, -, h⟩ := bind_eq_ok.mp h
  have hsig := mapError_eq_ok.mp hsig
  rw [hx.base64] at hsig
  rw [← Except.ok.inj hsig, ← Except.ok.inj hkey] at h
  exact hbinds (Except.ok.inj h)

/-- Whoever may open an archive that reads back and verifies gets the input of the wrap. -/
theorem SignedArchive.Made.unwraps
    (hbase : ∀ bytes, x.base64Decode (x.base64Encode bytes) = .ok bytes) (hshort : x.SignsShort)
    (htext : x.text.Lawful) (hc : c.Correct) (hform : c.WellFormed)
    (hlossy : ∀ s, st.utf8Lossy (intoBytes s) = s)
    (h : a.Made x c fig st env args reader w chunks out deviceId data)
    (hleft : LeftBehind st env.output dir a) (hclean : OutputClean st env.output a.stored.length)
    (hcapped : ∀ bytes ∈ a.stored, bytes.length ≤ maxStoredChunkBytes) {m : TrstManifest}
    (hback : ReadsBack x st a.manifest m)
    (hverified : verifyManifest x (a.bundle.signing.public x) (m.toCanonicalBytes x.text)
      a.signature = .ok true)
    {bundle : DeviceBundle} (hmay : MayOpen x c args a.bundle bundle) (output : String)
    (files : OutputFiles) :
    handleUnwrap x c st ⟨.ok bundle, noFaults⟩ ⟨dir, none, output⟩ files =
      (.ok (), ⟨.file reader.rest, .absent⟩) := by
  have hholds := h.archiveHolds htext hlossy hshort hleft hclean hcapped hback
  have hvalid : validateArchive x st dir = .ok () := validateArchive_eq_ok.mpr ⟨_, _, _, hholds⟩
  have hsame := sameText_of_serializeCanonical_eq htext (toCanonicalBytes_inj.mp hback.bytes)
  have hpublic : m.device.publicKey = a.bundle.signing.public x :=
    hsame.device.publicKey_eq.trans h.kept.publicKey
  have hopen := h.openContentKey_ok hbase hc hform hsame hmay
  have hchecked : Prepared x c st ⟨.ok bundle, noFaults⟩ ⟨dir, none, output⟩ bundle m
      (intoBytes a.signature) a.signature _ :=
    ⟨rfl, hholds.read, hsame.trstVersion.trans h.kept.version, rfl, hback.signature.trans h.signed,
      by rw [hpublic]; exact hverified, hvalid, hopen⟩
  have hprepared := prepareUnwrap_eq_ok.mpr ⟨bundle, _, a.signature, hchecked⟩
  have hstored : StoredFrom c (chunkJob x env args (a.bundle.signing.public x)) 0 chunks
      a.stored := by
    rw [h.stored]
    exact h.chunks.stored
  have hrecovered := recoverChunks_stored hc (fun _ => rfl : ∀ i, noFaults.write i = none)
    hstored (hleft.holdsFrom hclean hcapped)
  rw [← hholds.segments.length_eq, h.whole hholds.files_ne_nil] at hrecovered
  have houtput : recoverOutput c noFaults ⟨dir, none, output⟩ m _ = .ok reader.rest :=
    bind_eq_ok.mpr ⟨(), rfl, bind_eq_ok.mpr ⟨reader.rest, hrecovered, rfl⟩⟩
  unfold handleUnwrap
  rw [hprepared]
  simp only
  rw [houtput]

/-- A clean directory and a manifest that reads back are enough for both readers. -/
theorem SignedArchive.Made.readersAccept (hx : x.SignsLawfully) (hshort : x.SignsShort)
    (htext : x.text.Lawful) (hc : c.Correct) (hform : c.WellFormed)
    (hlossy : ∀ s, st.utf8Lossy (intoBytes s) = s)
    (h : a.Made x c fig st env args reader w chunks out deviceId data)
    (hleft : LeftBehind st env.output dir a) (hclean : OutputClean st env.output a.stored.length)
    (hcapped : ∀ bytes ∈ a.stored, bytes.length ≤ maxStoredChunkBytes) {m : TrstManifest}
    (hback : ReadsBack x st a.manifest m) :
    ReadersAccept x c st args a.bundle dir (.file reader.rest) := by
  have hholds := h.archiveHolds htext hlossy hshort hleft hclean hcapped hback
  have hvalid : validateArchive x st dir = .ok () := validateArchive_eq_ok.mpr ⟨_, _, _, hholds⟩
  have hsame := sameText_of_serializeCanonical_eq htext (toCanonicalBytes_inj.mp hback.bytes)
  have hverified : verifyManifest x (a.bundle.signing.public x) (m.toCanonicalBytes x.text)
      a.signature = .ok true := by
    rw [hback.bytes, h.signature]
    exact verifyManifest_signManifest hx _ _
  refine ⟨handleVerify_eq_ok.mpr ⟨m, _, a.signature, hholds.read,
    hsame.trstVersion.trans h.kept.version, hback.signature.trans h.signed, ?_, hvalid⟩, ?_⟩
  · rw [withAlgorithm_public]
    exact hverified
  · intro bundle output files hmay
    exact h.unwraps hx.base64 hshort htext hc hform hlossy hleft hclean hcapped hback hverified hmay
      output files

/-- What the readers have checked when they accept what a wrap has left behind. -/
theorem SignedArchive.Made.clean_of_verify (hx : x.SignsLawfully) (htext : x.text.Lawful)
    (hlossy : ∀ s, st.utf8Lossy (intoBytes s) = s)
    (h : a.Made x c fig st env args reader w chunks out deviceId data)
    (hleft : LeftBehind st env.output dir a)
    (hbinds : ∀ m, st.parseManifest (intoBytes (st.printManifest a.manifest)) = .ok m →
      SignatureBinds x a.bundle.signing (a.manifest.toCanonicalBytes x.text)
        (m.toCanonicalBytes x.text))
    (hverify : handleVerify x st ⟨dir, a.bundle.signing.public x⟩ = .ok ()) :
    (∃ m, ReadsBack x st a.manifest m) ∧ OutputClean st env.output a.stored.length := by
  obtain ⟨m, sig, signature, haccepts⟩ := handleVerify_eq_ok.mp hverify
  obtain ⟨bytes, hread⟩ := readManifest_eq_ok.mp haccepts.read
  obtain ⟨m', sig', files, hholds⟩ := validateArchive_eq_ok.mp haccepts.valid
  obtain ⟨rfl, rfl⟩ : m' = m ∧ sig' = sig :=
    Prod.mk.inj (Except.ok.inj (hholds.read.symm.trans haccepts.read))
  obtain ⟨hjson, hbytes⟩ := Node.write_eq_file (hleft.json.symm.trans hread.json)
  obtain ⟨hdetached, hsig⟩ := Node.write_eq_file (hleft.detached.symm.trans hread.detached)
  have hparsed := hread.parsed
  rw [hbytes] at hparsed
  have hsignature : signature = a.signature := by
    rw [hread.agrees signature haccepts.signed, hsig, hlossy]
  have hverified := haccepts.verified
  rw [withAlgorithm_public, hsignature, h.signature] at hverified
  have hsame := bytes_eq_of_verifyManifest hx (hbinds m' hparsed) hverified
  refine ⟨⟨m', hparsed, hsame, by rw [haccepts.signed, hsignature, h.signed], hholds.valid⟩, ?_⟩
  have hlength : files.length = a.stored.length := by
    have hsegments :=
      (sameText_of_serializeCanonical_eq htext (toCanonicalBytes_inj.mp hsame)).segments
    have hcount := hsegments.length_eq
    rw [h.segments, segmentsFrom_length, hholds.segments.length_eq] at hcount
    exact hcount
  have hsegments := hholds.segments
  have hreferenced := hholds.referenced
  rw [hleft.chunks] at hsegments hreferenced
  refine ⟨hjson, hdetached, ?_, ?_, ?_⟩
  · rw [← Listing.breaksOff_putChunks _ 0 a.stored]
    exact hreferenced.1
  · intro i hi
    have hnode := hsegments.node (List.getElem?_eq_getElem (hlength ▸ hi))
    have hwritten : (env.output.chunkListing.putChunks 0 a.stored).node
        (intoBytes (chunkFileName (0 + i))) = _ :=
      Listing.node_putChunks _ (List.getElem?_eq_getElem hi)
    have hfile := hwritten.symm.trans hnode
    rw [Nat.zero_add] at hfile
    exact (Node.write_eq_file hfile).1
  · intro name hname hbin
    have hmem := hreferenced.2 name (Listing.mem_keys_putChunks.mpr (Or.inr hname)) hbin
    obtain ⟨i, hi, hfile⟩ := hsegments.mem_chunkFiles.mp hmem
    exact ⟨i, by omega, by rw [hfile, Nat.zero_add]⟩

end Readers

section Files

/-- The files of an archive that its readers look at. -/
inductive ArchiveFile
  | manifest
  | signature
  | chunk (name : Bytes)

def SealDir.get (dir : SealDir) : ArchiveFile → Node
  | .manifest => dir.manifestJson
  | .signature => dir.manifestSig
  | .chunk name => dir.chunkListing.node name

def SealDir.put (dir : SealDir) : ArchiveFile → Node → SealDir
  | .manifest, node => { dir with manifestJson := node }
  | .signature, node => { dir with manifestSig := node }
  | .chunk name, node => { dir with chunks := .directory (dir.chunkListing.put name node) }

/-- The archive as its readers find it. The state file is written last, and its path may lead to a
file of the archive: `place` says to which one a path leads, under whatever spelling. -/
def WrapResult.found (result : WrapResult) (args : WrapCmd)
    (place : String → Option ArchiveFile) : SealDir :=
  match args.chronicle.bind place with
  | some file => result.dir.put file result.stateFile
  | none => result.dir

/-- What is at the path of the input after the wrap. -/
def InputFile.found (input : InputFile) (place : String → Option ArchiveFile) (dir : SealDir) :
    Node :=
  match place input.path with
  | some file => dir.get file
  | none => .file input.content

/-- Neither the input nor the state file is a file of the archive. -/
structure Apart (env : WrapEnv) (args : WrapCmd) (place : String → Option ArchiveFile) : Prop where
  input : place env.input.path = none
  state : ∀ path, args.chronicle = some path → place path = none

theorem Apart.found_eq {env : WrapEnv} {args : WrapCmd} {place : String → Option ArchiveFile}
    (h : Apart env args place) (result : WrapResult) : result.found args place = result.dir := by
  have hnone : args.chronicle.bind place = none := by
    cases hpath : args.chronicle with
    | none => rfl
    | some path => exact h.state path hpath
  rw [WrapResult.found, hnone]

end Files

section Wrap

variable {x : Crates} {c : ContentCrates} {fig : Figures} {st : Storage} {env : WrapEnv}
  {args : WrapCmd} {result : WrapResult} {device : DeviceBundle} {a : SignedArchive}
  {reader : Reader UInt8} {w : ArchiveWriter} {chunks : List Bytes} {out : ChunksOut}
  {deviceId : String} {data : ProfileMetadata} {place : String → Option ArchiveFile}

/-- Every stored chunk of a signed archive is within what its readers take. -/
theorem SignedArchive.Made.capped (hform : c.WellFormed)
    (h : a.Made x c fig st env args reader w chunks out deviceId data)
    (hsigned : signArchive x c fig st env args = .ok a) :
    ∀ bytes ∈ a.stored, bytes.length ≤ maxStoredChunkBytes := by
  rw [h.stored]
  refine storedFrom_capped hform h.chunks.stored (fun chunk hchunk => ?_)
  have hsize : chunk.length ≤ args.chunkSize := (h.chunks.sizes chunk hchunk).2
  have hcap := signArchive_chunkSize hsigned
  omega

theorem handleWrap_leftBehind (h : handleWrap x c fig st env args = .ok result) :
    ∃ a, signArchive x c fig st env args = .ok a ∧ LeftBehind st env.output result.dir a := by
  obtain ⟨a, hsigned, h⟩ := bind_eq_ok.mp h
  obtain ⟨dir, hdir, h⟩ := bind_eq_ok.mp h
  obtain ⟨stateFile, -, h⟩ := bind_eq_ok.mp h
  cases h
  obtain ⟨reader, w, chunks, out, deviceId, data, hmade⟩ := signArchive_eq_ok hsigned
  exact ⟨a, hsigned, hmade.leftBehind (ArchiveWriter.finalize_eq_ok (mapError_eq_ok.mp hdir))⟩

theorem signArchive_count (hsize : 0 < args.chunkSize)
    (h : signArchive x c fig st env args = .ok a) :
    a.stored.length = (env.input.content.toChunks args.chunkSize).length := by
  obtain ⟨reader, hopened, hstored⟩ := signArchive_slices hsize h
  rw [storedFrom_length hstored, InputFile.content, hopened]

/-- The manifest of a wrap reads back as a valid one exactly for inputs that fit. -/
theorem SignedArchive.Made.readsBack_iff (hfig : fig.Lawful)
    (hst : st.KeepsManifests x.text)
    (h : a.Made x c fig st env args reader w chunks out deviceId data) :
    (∃ m, ReadsBack x st a.manifest m) ↔ InputsFit fig st env args := by
  rw [← h.valid_iff hfig]
  constructor
  · rintro ⟨m, hback⟩
    have hfinite := hst.finite _ _ hback.parsed hback.bytes
    have hparsed := hback.parsed
    rw [hst.reads _ hfinite] at hparsed
    cases hparsed
    exact ⟨hback.valid, hfinite⟩
  · rintro ⟨hvalid, hfinite⟩
    exact ⟨a.manifest, hst.reads _ hfinite, rfl, rfl, hvalid⟩

theorem readersAccept_of_inputsFit (hx : x.SignsLawfully) (hshort : x.SignsShort)
    (htext : x.text.Lawful) (hc : c.Correct) (hform : c.WellFormed) (hfig : fig.Lawful)
    (hlossy : ∀ s, st.utf8Lossy (intoBytes s) = s) (hst : st.KeepsManifests x.text)
    (hdevice : env.bundle = .ok device) (hwrap : handleWrap x c fig st env args = .ok result)
    (hfits : InputsFit fig st env args)
    (hclean : OutputClean st env.output (env.input.content.toChunks args.chunkSize).length)
    (hapart : Apart env args place) :
    ReadersAccept x c st args device (result.found args place)
      (env.input.found place result.dir) := by
  obtain ⟨a, hsigned, hleft⟩ := handleWrap_leftBehind hwrap
  obtain ⟨reader, w, chunks, out, deviceId, data, hmade⟩ := signArchive_eq_ok hsigned
  obtain ⟨m, hback⟩ := (hmade.readsBack_iff hfig hst).mpr hfits
  rw [← signArchive_count hfits.size hsigned] at hclean
  have haccept := hmade.readersAccept hx hshort htext hc hform hlossy hleft hclean
    (hmade.capped hform hsigned) hback
  rw [hapart.found_eq, InputFile.found, hapart.input]
  simp only [hmade.content]
  cases Except.ok.inj (hdevice.symm.trans hmade.bundle)
  exact haccept

end Wrap

theorem sampleFigures_lawful : sampleFigures.Lawful where
  finite n := by
    have hn := n.toNat_lt
    have hshift : n.toUInt64 >>> 52 = 0 := by
      apply UInt64.toNat_inj.mp
      simp [Nat.shiftRight_eq_div_pow]
      omega
    simp [sampleFigures, F64.isFinite, hshift]
  ends hstart h := by
    cases h
    exact hstart

theorem sample_outputClean (st : Storage) (k : DeviceKeypair) (n : Nat) :
    OutputClean st (sampleWrapEnv k).output n where
  json _ := rfl
  detached _ := rfl
  listed := rfl
  writable _ _ _ := rfl
  noOther _ hname := by cases hname

theorem sample_inputsFit (st : Storage) (k : DeviceKeypair) :
    InputsFit sampleFigures st (sampleWrapEnv k) sampleWrapCmd where
  profile := by decide
  size := by decide
  nonempty := List.cons_ne_nil _ _
  started := show "2026-01-01T00:00:00Z" ≠ "" by decide
  duration := by decide
  options := ⟨fun h => absurd h (by decide), fun h => absurd h (by decide),
    fun h => absurd h (by decide)⟩
  chronicle := {
    archive := fun _ _ _ _ h => by cases h
    given := fun _ _ h => by cases h
    state := fun _ _ _ _ _ h => by cases h }

/-- The text of `serde_json`, but for one manifest, which has a short one. -/
noncomputable def serdeStorage (m : TrstManifest) : Storage :=
  { (runStorage m).withManifestText sampleJson with
    parseManifest := fun bytes =>
      if bytes = intoBytes "manifest" then .ok m
      else ((runStorage m).withManifestText sampleJson).parseManifest bytes
    printManifest := fun m' => if m' = m then "manifest" else manifestText sampleJson m' }

theorem serdeStorage_keepsManifests {m : TrstManifest} (hm : ∀ f ∈ m.floats, f.isFinite = true) :
    (serdeStorage m).KeepsManifests serdeText := by
  have hkeeps := withManifestText_keepsManifests sampleJson_lossless serdeText_lawful (runStorage m)
  have hother : ∀ m', m' ≠ m →
      (serdeStorage m).parseManifest (intoBytes ((serdeStorage m).printManifest m')) =
        ((runStorage m).withManifestText sampleJson).parseManifest
          (intoBytes (manifestText sampleJson m')) := by
    intro m' hne
    have hbrace : intoBytes (manifestText sampleJson m') ≠ intoBytes "manifest" := by
      intro h
      have hhead := congrArg (fun s : String => s.toList.head?) (intoBytes_injective h)
      have hopen : (render sampleJson (some 0) m'.toDocument).head? = some '\x7b' := rfl
      simp only [manifestText, String.toList_ofList, hopen] at hhead
      exact absurd hhead (by decide)
    simp only [serdeStorage, if_neg hne, if_neg hbrace]
  constructor
  · intro m' hfinite
    by_cases heq : m' = m
    · rw [heq]
      simp [serdeStorage]
    · rw [hother m' heq]
      exact hkeeps.reads m' hfinite
  · intro m' read hread hbytes
    by_cases heq : m' = m
    · rwa [heq]
    · rw [hother m' heq] at hread
      exact hkeeps.finite m' read hread hbytes

theorem sample_floats {x : Crates} {c : ContentCrates} {fig : Figures} {st : Storage}
    {k : DeviceKeypair} {a : SignedArchive}
    (ha : signArchive x c fig st (sampleWrapEnv k) sampleWrapCmd = .ok a) :
    ∀ f ∈ a.manifest.floats, f.isFinite = true := by
  obtain ⟨reader, w, chunks, out, deviceId, data, hmade⟩ := signArchive_eq_ok ha
  refine hmade.floats_finite_iff.mpr ⟨?_, by decide⟩
  have hdata := hmade.metadata
  rw [show sampleWrapCmd = profiledCmd "generic" from rfl,
    profileMetadata_plain (by unfold Plain; decide)] at hdata
  rw [← Except.ok.inj hdata]
  simp [ProfileMetadata.floats]

theorem sample_serde_wrap (k : DeviceKeypair) :
    ∃ m result, (serdeStorage m).KeepsManifests serdeText ∧
      handleWrap sampleCrates sampleContent sampleFigures (serdeStorage m) (sampleWrapEnv k)
        sampleWrapCmd = .ok result := by
  have hx := sampleCrates_signsLawfully
  have hp : Plain "generic" := by unfold Plain; decide
  obtain ⟨a, ha⟩ := sample_signArchive hx.base64 hx.publicLength sampleFigures
    (sampleStorage sampleCrates k k) k sampleContent_takesAll hp
  rw [signArchive_storage _ _ _ _ (serdeStorage a.manifest) rfl rfl] at ha
  have hprint : (serdeStorage a.manifest).printManifest a.manifest = "manifest" := by
    simp [serdeStorage]
  obtain ⟨result, hwrap, -⟩ := sample_finishes sampleFigures k hp ha (by rw [hprint]; decide)
  exact ⟨a.manifest, result, serdeStorage_keepsManifests (sample_floats ha), hwrap⟩

/-- The paths of the manifest and its signature in the sample directory. -/
def samplePlace (path : String) : Option ArchiveFile :=
  if path = "day0.seal/manifest.json" then some .manifest
  else if path = "day0.seal/signatures/manifest.sig" then some .signature
  else none

theorem sample_apart (k : DeviceKeypair) : Apart (sampleWrapEnv k) sampleWrapCmd samplePlace where
  input := show samplePlace "clip.bin" = none by decide
  state path hpath := by
    cases hpath
    decide

end Sealedge
