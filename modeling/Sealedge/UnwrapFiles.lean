import Sealedge.BufferedWriter
import Sealedge.UnixPath
import Sealedge.UnwrapOrigin
import Mathlib.Logic.Function.Basic

namespace Sealedge

open BufferedWriter Fallible UnixPath

/-- What stands at each path. -/
abbrev Disk := List Component → Node

namespace Disk

def createFile (disk : Disk) (fault : Option IoError) (path : List Component) :
    Except IoError Disk :=
  match fault, disk path with
  | some e, _ => .error e
  | none, .unreadable false reason => .error (.other reason)
  | none, _ => .ok (Function.update disk path (.file []))

def removeFile (disk : Disk) (fault : Option IoError) (path : List Component) :
    Except IoError Disk :=
  match fault, disk path with
  | some e, _ => .error e
  | none, .absent => .error .notFound
  | none, .unreadable false reason => .error (.other reason)
  | none, _ => .ok (Function.update disk path .absent)

/-- The file moves in one step, over what stands at its new path unless that is no file. -/
def rename (disk : Disk) (fault : Option IoError) (source target : List Component) :
    Except IoError Disk :=
  match fault, disk target with
  | some e, _ => .error e
  | none, .unreadable false reason => .error (.other reason)
  | none, _ => .ok (Function.update (Function.update disk target (disk source)) source .absent)

end Disk

/-- A temporary sibling of the output, unique to the process. -/
def unwrapTmpPath (pid : Nat) (output : Path) : Path :=
  let name := output.fileName.getD "" ++ (".seal-unwrap." ++ pid.repr ++ ".partial")
  match output.parent with
  | some dir => if dir = [""] then [name] else dir.join name
  | none => [name]

/-- The path that is deleted when the guard goes, unless it was disarmed. -/
structure TempFileGuard where
  path : Option Path

namespace TempFileGuard

def new (path : Path) : TempFileGuard := ⟨some path⟩

def disarm (_ : TempFileGuard) : TempFileGuard := ⟨none⟩

def drop (guard : TempFileGuard) (fault : Option IoError) (disk : Disk) : Disk :=
  match guard.path with
  | none => disk
  | some path =>
    match disk.removeFile fault path.components with
    | .ok disk => disk
    | .error _ => disk

end TempFileGuard

/-- What the system does during one run. The archive is read three times, and each reader may find
other files or errors: the manifest, the validation, and chunk after chunk the recovery. -/
structure UnwrapHost where
  pid : Nat
  bundle : Except CliError DeviceBundle
  manifestView : SealDir
  validateView : SealDir
  chunk : Nat → Except IoError Bytes
  create : Option IoError
  device : Device IoError
  rename : Option IoError
  remove : Option IoError

/-- The buffer of a `BufWriter`. -/
def bufWriterCapacity : Nat := 8192

def UnwrapCmd.outputPath (args : UnwrapCmd) : Path := .ofText args.output

def UnwrapHost.tmpPath (host : UnwrapHost) (args : UnwrapCmd) : Path :=
  unwrapTmpPath host.pid args.outputPath

section Running

variable (x : Crates) (c : ContentCrates) (st : Storage) (host : UnwrapHost)

/-- Everything before the output is touched, on what each reader finds. -/
def prepareUnwrapOn (args : UnwrapCmd) : Except CliError (TrstManifest × DecryptContext) := do
  let bundle ← host.bundle
  let (manifest, _) ← withContext (readManifest st host.manifestView)
    ("Failed to read archive: " ++ args.archive.path)
  passOn (requireSupportedVersion manifest.trstVersion)
  checkSigner args.devicePub manifest
  checkOwnSignature x manifest
  (validateArchive x st host.validateView).mapError
    (fun e => .exit 11 ("Continuity: FAIL (" ++ e.display ++ ")"))
  let ctx ← openContentKey x c bundle manifest
  pure (manifest, ctx)

/-- The bounded read of one stored chunk. -/
def readChunkFile (archive : String) (index : Nat) : Except CliError Bytes := do
  let content ← withContext (host.chunk index)
    ("Failed to read chunk: " ++ archive ++ "/chunks/" ++ chunkFileName index)
  let buf := content.take (maxStoredChunkBytes + 1)
  failWhen (decide (maxStoredChunkBytes < buf.length))
    (.other ("Chunk " ++ Numerals.padded 5 index ++ " exceeds the maximum stored size"))
  pure buf

/-- The recovery loop over some chunks from a position on. -/
def writeRecovered (archive : String) (ctx : DecryptContext) :
    Nat → Nat → Writer UInt8 → Except CliError Unit × Writer UInt8
  | _, 0, w => (.ok (), w)
  | index, n + 1, w =>
    match readChunkFile host archive index >>= recoverChunk c ctx index with
    | .error e => (.error e, w)
    | .ok plaintext =>
      match w.writeAll host.device bufWriterCapacity plaintext with
      | (some e, w) => (.error (.other e.display), w)
      | (none, w) => writeRecovered archive ctx (index + 1) n w

/-- All chunks through the writer, and the flush behind them. -/
def recoverInto (args : UnwrapCmd) (manifest : TrstManifest) (ctx : DecryptContext) :
    Except CliError Unit × Writer UInt8 :=
  match writeRecovered c host args.archive.path ctx 0 manifest.segments.length .new with
  | (.error e, w) => (.error e, w)
  | (.ok (), w) =>
    match w.flush host.device with
    | (some _, w) =>
      (.error (.other ("Failed to flush output: " ++ (host.tmpPath args).display)), w)
    | (none, w) => (.ok (), w)

/-- The recovery into the temporary file and its renaming. The guard is armed before the file is
created; the writer goes before the guard, so its last flush is over when the file is deleted. -/
def recoverOnDisk (args : UnwrapCmd) (manifest : TrstManifest) (ctx : DecryptContext)
    (disk : Disk) : Except CliError Unit × Disk :=
  let tmp := host.tmpPath args
  let cleanup := TempFileGuard.new tmp
  match disk.createFile host.create tmp.components with
  | .error _ =>
    (.error (.other ("Failed to create temp output: " ++ tmp.display)),
      cleanup.drop host.remove disk)
  | .ok disk =>
    let (result, w) := recoverInto c host args manifest ctx
    let disk : Disk := Function.update disk tmp.components (.file (w.close host.device))
    match result with
    | .error e => (.error e, cleanup.drop host.remove disk)
    | .ok () =>
      match disk.rename host.rename tmp.components args.outputPath.components with
      | .error _ =>
        (.error (.other ("Failed to finalize output: " ++ args.output)),
          cleanup.drop host.remove disk)
      | .ok disk => (.ok (), cleanup.disarm.drop host.remove disk)

/-- `handle_unwrap` with the files it leaves. -/
def handleUnwrapOnDisk (args : UnwrapCmd) (disk : Disk) : Except CliError Unit × Disk :=
  match prepareUnwrapOn x c st host args with
  | .error e => (.error e, disk)
  | .ok (manifest, ctx) => recoverOnDisk c host args manifest ctx disk

end Running

theorem unwrapTmpPath_ne (pid : Nat) (output : Path) :
    (unwrapTmpPath pid output).components ≠ output.components := by
  generalize hname : output.fileName.getD "" ++ (".seal-unwrap." ++ pid.repr ++ ".partial") = name
  have hlonger : (output.fileName.getD "").length + 2 < name.length := by
    have hending : ".partial".length = 8 := rfl
    simp only [← hname, String.length_append, hending]
    omega
  have hlast : (unwrapTmpPath pid output).fileName = some name := by
    have happend := Path.fileName_append (Path.component_of_long (by omega : 2 < name.length))
    unfold unwrapTmpPath
    simp only [hname]
    split
    next dir _ =>
      split
      next => exact happend []
      next => exact happend _
    next => exact happend []
  intro heq
  have hsame : (unwrapTmpPath pid output).fileName = output.fileName := by
    unfold Path.fileName
    rw [heq]
  rw [← hsame, hlast, Option.getD_some] at hlonger
  omega

theorem UnwrapHost.tmpPath_ne (host : UnwrapHost) (args : UnwrapCmd) :
    (host.tmpPath args).components ≠ args.outputPath.components :=
  unwrapTmpPath_ne host.pid args.outputPath

section Guard

variable {disk : Disk} {path : Path}

theorem TempFileGuard.drop_new_file {bytes : Bytes} (h : disk path.components = .file bytes) :
    (TempFileGuard.new path).drop none disk = Function.update disk path.components .absent := by
  unfold TempFileGuard.drop TempFileGuard.new Disk.removeFile
  simp only [h]

theorem TempFileGuard.drop_new_absent (h : disk path.components = .absent) :
    (TempFileGuard.new path).drop none disk = disk := by
  unfold TempFileGuard.drop TempFileGuard.new Disk.removeFile
  simp only [h]

theorem TempFileGuard.drop_new_put (h : disk path.components = .absent) (bytes : Bytes) :
    (TempFileGuard.new path).drop none (Function.update disk path.components (.file bytes)) =
      disk := by
  rw [drop_new_file (Function.update_self path.components (Node.file bytes) disk),
    Function.update_idem, ← h, Function.update_eq_self]

end Guard

theorem Disk.createFile_of_absent {disk : Disk} {fault : Option IoError} {path : List Component}
    (h : disk path = .absent) {disk' : Disk} (hcreate : disk.createFile fault path = .ok disk') :
    fault = none ∧ disk' = Function.update disk path (.file []) := by
  unfold Disk.createFile at hcreate
  cases fault with
  | some e => cases hcreate
  | none =>
    simp only [h] at hcreate
    exact ⟨rfl, (Except.ok.inj hcreate).symm⟩

theorem Disk.rename_eq_ok {disk disk' : Disk} {fault : Option IoError}
    {source target : List Component} (h : disk.rename fault source target = .ok disk') :
    fault = none ∧
      disk' = Function.update (Function.update disk target (disk source)) source .absent := by
  unfold Disk.rename at h
  split at h
  next => cases h
  next => cases h
  next => exact ⟨rfl, (Except.ok.inj h).symm⟩

theorem Disk.rename_ok {disk : Disk} {fault : Option IoError} {source target : List Component}
    (hfault : fault = none) (h : ∀ reason, disk target ≠ .unreadable false reason) :
    ∃ disk', disk.rename fault source target = .ok disk' := by
  unfold Disk.rename
  subst hfault
  split
  next => contradiction
  next reason _ hnode => exact absurd hnode (h reason)
  next => exact ⟨_, rfl⟩

theorem Disk.rename_put {disk disk' : Disk} {fault : Option IoError} {tmp out : List Component}
    {bytes : Bytes} (hfree : disk tmp = .absent) (hne : tmp ≠ out)
    (h : Disk.rename (Function.update disk tmp (.file bytes)) fault tmp out = .ok disk') :
    disk' = Function.update disk out (.file bytes) := by
  obtain ⟨-, rfl⟩ := Disk.rename_eq_ok h
  have hstill : Function.update disk out (.file bytes) tmp = .absent := by
    rw [Function.update_of_ne hne, hfree]
  rw [Function.update_self, Function.update_comm hne, Function.update_idem, ← hstill,
    Function.update_eq_self]

section Recovering

variable {c : ContentCrates} {host : UnwrapHost} {args : UnwrapCmd} {disk : Disk}
  {m : TrstManifest} {ctx : DecryptContext}

theorem readChunkFile_eq_ok {archive : String} {index : Nat} {bytes : Bytes} :
    readChunkFile host archive index = .ok bytes ↔
      host.chunk index = .ok bytes ∧ bytes.length ≤ maxStoredChunkBytes := by
  unfold readChunkFile
  exact boundedRead_eq_ok

/-- The loop adds the chunks of its positions, in their order, to what the writer has accepted. -/
theorem writeRecovered_eq_ok {archive : String} {index n : Nat} {w w' : Writer UInt8}
    (h : writeRecovered c host archive ctx index n w = (.ok (), w')) :
    ∃ stored plain, stored.length = n ∧ RecoveredFrom c ctx index stored plain ∧
      w'.written = w.written ++ plain.flatten ∧
      ∀ i b, stored[i]? = some b → host.chunk (index + i) = .ok b := by
  induction n generalizing index w with
  | zero =>
    cases h
    exact ⟨[], [], rfl, .nil, (List.append_nil _).symm, by simp⟩
  | succ n ih =>
    rw [writeRecovered] at h
    split at h
    next => cases h
    next plaintext hchunk =>
      obtain ⟨chunk, hread, hplain⟩ := bind_eq_ok.mp hchunk
      split at h
      next => cases h
      next w₁ hwrite =>
        have hwritten := Writer.writeAll_written (congrArg Prod.fst hwrite)
        rw [hwrite] at hwritten
        obtain ⟨stored, plain, hlen, hrecovered, hrest, hreads⟩ := ih h
        refine ⟨chunk :: stored, plaintext :: plain, by rw [List.length_cons, hlen],
          .cons hplain hrecovered, ?_, ?_⟩
        · rw [hrest, hwritten, List.flatten_cons, List.append_assoc]
        · exact Slices.forall_place_cons (P := fun place b => host.chunk place = .ok b)
            (readChunkFile_eq_ok.mp hread).1 hreads

theorem recoverInto_eq_ok {w : Writer UInt8} (h : recoverInto c host args m ctx = (.ok (), w)) :
    ∃ stored plain, stored.length = m.segments.length ∧ RecoveredFrom c ctx 0 stored plain ∧
      w.close host.device = plain.flatten ∧
      ∀ i b, stored[i]? = some b → host.chunk i = .ok b := by
  unfold recoverInto at h
  split at h
  next => cases h
  next w₁ hloop =>
    obtain ⟨stored, plain, hlen, hrecovered, hwritten, hreads⟩ := writeRecovered_eq_ok hloop
    split at h
    next => cases h
    next w₂ hflush =>
      cases h
      have hclosed := Writer.close_flush (congrArg Prod.fst hflush)
      rw [hflush, hwritten] at hclosed
      refine ⟨stored, plain, hlen, hrecovered, hclosed, fun i b hb => ?_⟩
      have hchunk := hreads i b hb
      rwa [Nat.zero_add] at hchunk

/-- The recovery either fails and leaves the disk as it was, or all chunks went through the writer
and the closed file stands at the output path. -/
theorem recoverOnDisk_cases (c : ContentCrates) (m : TrstManifest) (ctx : DecryptContext)
    (hfree : disk (host.tmpPath args).components = .absent) (hremove : host.remove = none) :
    (∃ e, recoverOnDisk c host args m ctx disk = (.error e, disk)) ∨
      ∃ w, recoverInto c host args m ctx = (.ok (), w) ∧ host.rename = none ∧
        recoverOnDisk c host args m ctx disk = (.ok (),
          Function.update disk args.outputPath.components (.file (w.close host.device))) := by
  unfold recoverOnDisk
  simp only [hremove]
  split
  next =>
    rw [TempFileGuard.drop_new_absent hfree]
    exact .inl ⟨_, rfl⟩
  next disk₁ hcreate =>
    obtain ⟨-, rfl⟩ := Disk.createFile_of_absent hfree hcreate
    rw [Function.update_idem]
    split
    next e hfailed =>
      rw [TempFileGuard.drop_new_put hfree]
      exact .inl ⟨e, rfl⟩
    next hdone =>
      split
      next =>
        rw [TempFileGuard.drop_new_put hfree]
        exact .inl ⟨_, rfl⟩
      next disk₂ hrename =>
        refine .inr ⟨_, Prod.ext hdone rfl, (Disk.rename_eq_ok hrename).1, ?_⟩
        rw [Disk.rename_put hfree (host.tmpPath_ne args) hrename]
        rfl

end Recovering

/-- Every reader finds the archive as it is, and no step fails. -/
structure UnwrapHost.Quiet (host : UnwrapHost) (args : UnwrapCmd) : Prop where
  manifest : host.manifestView = args.archive
  validate : host.validateView = args.archive
  chunk : ∀ index, host.chunk index = (args.archive.chunks.node (chunkFileName index)).read
  create : host.create = none
  device : host.device.Steady
  rename : host.rename = none
  remove : host.remove = none

section Quiet

variable {x : Crates} {c : ContentCrates} {st : Storage} {host : UnwrapHost} {args : UnwrapCmd}
  {disk : Disk} (hquiet : host.Quiet args)

include hquiet

theorem UnwrapHost.Quiet.prepareUnwrapOn_eq (faults : OutputFaults) :
    prepareUnwrapOn x c st host args = prepareUnwrap x c st ⟨host.bundle, faults⟩ args := by
  unfold prepareUnwrapOn prepareUnwrap
  rw [hquiet.manifest, hquiet.validate]

theorem UnwrapHost.Quiet.readChunkFile_eq (index : Nat) :
    readChunkFile host args.archive.path index = readStored args.archive index := by
  unfold readChunkFile readStored
  rw [hquiet.chunk]

/-- The loop through the writer fails as the plain loop does, and else passes the same bytes on. -/
theorem UnwrapHost.Quiet.writeRecovered_eq (c : ContentCrates) (ctx : DecryptContext)
    (index n : Nat) (w : Writer UInt8) :
    ∃ w', match recoverChunks c noFaults args.archive ctx index n with
      | .error e => writeRecovered c host args.archive.path ctx index n w = (.error e, w')
      | .ok bytes => writeRecovered c host args.archive.path ctx index n w = (.ok (), w') ∧
          w'.written = w.written ++ bytes := by
  induction n generalizing index w with
  | zero => exact ⟨w, rfl, (List.append_nil _).symm⟩
  | succ n ih =>
    rw [recoverChunks, writeRecovered, hquiet.readChunkFile_eq]
    cases hstored : readStored args.archive index with
    | error e => exact ⟨w, rfl⟩
    | ok stored =>
      simp only [bind, Except.bind]
      cases hplain : recoverChunk c ctx index stored with
      | error e => exact ⟨w, rfl⟩
      | ok plaintext =>
        have htaken := Writer.writeAll_of_steady hquiet.device bufWriterCapacity plaintext w
        have hwritten := Writer.writeAll_written htaken
        rcases hwrite : w.writeAll host.device bufWriterCapacity plaintext with ⟨fault, w₁⟩
        rw [hwrite] at htaken hwritten
        cases htaken
        obtain ⟨w', hrest⟩ := ih (index + 1) w₁
        refine ⟨w', ?_⟩
        simp only [hwrite]
        cases hloop : recoverChunks c noFaults args.archive ctx (index + 1) n with
        | error e =>
          rw [hloop] at hrest
          exact hrest
        | ok bytes =>
          rw [hloop] at hrest
          refine ⟨hrest.1, ?_⟩
          rw [hrest.2, hwritten, List.append_assoc]

theorem UnwrapHost.Quiet.recoverInto_eq (c : ContentCrates) (m : TrstManifest)
    (ctx : DecryptContext) :
    ∃ w, match recoverOutput c noFaults args m ctx with
      | .error e => recoverInto c host args m ctx = (.error e, w)
      | .ok bytes => recoverInto c host args m ctx = (.ok (), w) ∧
          w.close host.device = bytes := by
  obtain ⟨w, hloop⟩ := hquiet.writeRecovered_eq c ctx 0 m.segments.length .new
  have houtput : recoverOutput c noFaults args m ctx =
      recoverChunks c noFaults args.archive ctx 0 m.segments.length := by
    unfold recoverOutput
    cases recoverChunks c noFaults args.archive ctx 0 m.segments.length <;> rfl
  rw [houtput]
  unfold recoverInto
  cases hchunks : recoverChunks c noFaults args.archive ctx 0 m.segments.length with
  | error e =>
    rw [hchunks] at hloop
    simp only at hloop ⊢
    rw [hloop]
    exact ⟨w, rfl⟩
  | ok bytes =>
    rw [hchunks] at hloop
    simp only at hloop ⊢
    rw [hloop.1]
    have htaken : (w.flush host.device).1 = none := hquiet.device.push 0 w.buf w.file
    have hclosed := Writer.close_flush htaken
    rcases hflush : w.flush host.device with ⟨fault, w₁⟩
    rw [hflush] at htaken hclosed
    cases htaken
    simp only [hflush]
    exact ⟨w₁, rfl, hclosed.trans hloop.2⟩

/-- Without faults the run on the disk is the plain run, at the two paths it is about. -/
theorem UnwrapHost.Quiet.handleUnwrapOnDisk_eq
    (hfree : disk (host.tmpPath args).components = .absent)
    (hout : ∀ reason, disk args.outputPath.components ≠ .unreadable false reason) :
    handleUnwrapOnDisk x c st host args disk =
      ((handleUnwrap x c st ⟨host.bundle, noFaults⟩ args
          ⟨disk args.outputPath.components, .absent⟩).1,
        Function.update disk args.outputPath.components
          (handleUnwrap x c st ⟨host.bundle, noFaults⟩ args
            ⟨disk args.outputPath.components, .absent⟩).2.target) := by
  unfold handleUnwrapOnDisk handleUnwrap
  rw [hquiet.prepareUnwrapOn_eq noFaults]
  cases hprepared : prepareUnwrap x c st ⟨host.bundle, noFaults⟩ args with
  | error e => simp only [Function.update_eq_self]
  | ok prepared =>
    obtain ⟨m, ctx⟩ := prepared
    have hcreated : disk.createFile host.create (host.tmpPath args).components =
        .ok (Function.update disk (host.tmpPath args).components (.file [])) := by
      unfold Disk.createFile
      simp only [hquiet.create, hfree]
    obtain ⟨w, hinto⟩ := hquiet.recoverInto_eq c m ctx
    unfold recoverOnDisk
    simp only [hcreated, hquiet.remove, Function.update_idem]
    cases houtput : recoverOutput c noFaults args m ctx with
    | error e =>
      rw [houtput] at hinto
      simp only at hinto
      simp only [hinto]
      rw [TempFileGuard.drop_new_put hfree, Function.update_eq_self]
    | ok bytes =>
      rw [houtput] at hinto
      obtain ⟨hinto, hclosed⟩ := hinto
      simp only [hinto, hclosed]
      have hne := host.tmpPath_ne args
      obtain ⟨disk', hrename⟩ : ∃ disk', Disk.rename (Function.update disk
          (host.tmpPath args).components (.file bytes)) host.rename (host.tmpPath args).components
          args.outputPath.components = .ok disk' := by
        refine Disk.rename_ok hquiet.rename fun reason => ?_
        rw [Function.update_of_ne hne.symm]
        exact hout reason
      simp only [hrename]
      rw [Disk.rename_put hfree hne hrename]
      rfl

end Quiet

theorem handleUnwrapOnDisk_rename_fault {x : Crates} {c : ContentCrates} {st : Storage}
    {host : UnwrapHost} {args : UnwrapCmd} {disk : Disk}
    (hfree : disk (host.tmpPath args).components = .absent) (hremove : host.remove = none)
    (hrename : host.rename ≠ none) :
    ∃ e, (handleUnwrapOnDisk x c st host args disk).1 = .error e := by
  unfold handleUnwrapOnDisk
  split
  next e _ => exact ⟨e, rfl⟩
  next m ctx _ =>
    rcases recoverOnDisk_cases c m ctx hfree hremove with ⟨e, hfailed⟩ | ⟨w, -, hnone, -⟩
    · exact ⟨e, by rw [hfailed]⟩
    · exact absurd hnone hrename

/-- For every archive, every key and every point of failure: a run that fails leaves the disk as it
was, one that succeeds puts the concatenation of the recovered chunks at the output path, and
neither leaves a temporary file. -/
theorem unwrap_all_or_nothing {x : Crates} {c : ContentCrates} {st : Storage} {host : UnwrapHost}
    {args : UnwrapCmd} {disk : Disk} (hfree : disk (host.tmpPath args).components = .absent)
    (hremove : host.remove = none) :
    (handleUnwrapOnDisk x c st host args disk).2 (host.tmpPath args).components = .absent ∧
      (∀ e, (handleUnwrapOnDisk x c st host args disk).1 = .error e →
        (handleUnwrapOnDisk x c st host args disk).2 = disk) ∧
      ((handleUnwrapOnDisk x c st host args disk).1 = .ok () →
        ∃ m ctx stored plain, prepareUnwrapOn x c st host args = .ok (m, ctx) ∧
          stored.length = m.segments.length ∧
          (∀ i b, stored[i]? = some b → host.chunk i = .ok b) ∧
          RecoveredFrom c ctx 0 stored plain ∧
          (handleUnwrapOnDisk x c st host args disk).2 =
            Function.update disk args.outputPath.components (.file plain.flatten)) := by
  unfold handleUnwrapOnDisk
  split
  next e _ => exact ⟨hfree, fun _ _ => rfl, fun h => nomatch h⟩
  next m ctx hprepared =>
    rcases recoverOnDisk_cases c m ctx hfree hremove with
      ⟨e, hfailed⟩ | ⟨w, hinto, -, hdone⟩
    · rw [hfailed]
      exact ⟨hfree, fun _ _ => rfl, fun h => nomatch h⟩
    · obtain ⟨stored, plain, hlen, hrecovered, hclosed, hreads⟩ := recoverInto_eq_ok hinto
      rw [hdone, hclosed]
      have hne := host.tmpPath_ne args
      refine ⟨(Function.update_of_ne hne _ disk).trans hfree, ?_, fun _ => ?_⟩
      · intro e h
        cases h
      · exact ⟨m, ctx, stored, plain, hprepared, hlen, hreads, hrecovered, rfl⟩

/-- A host that serves an archive and may fail to rename. -/
def sampleHost (dir : SealDir) (rename : Option IoError) : UnwrapHost where
  pid := 7
  bundle := .ok (sampleBundle (sampleKey 1))
  manifestView := dir
  validateView := dir
  chunk index := (dir.chunks.node (chunkFileName index)).read
  create := none
  device := ⟨fun _ => .takes 2, .other "failed to write whole buffer"⟩
  rename := rename
  remove := none

theorem sample_outputPath : (Path.ofText "out/clip").components =
    [.normal "out", .normal "clip"] := by decide

theorem sample_tmpPath : (unwrapTmpPath 7 (.ofText "out/clip")).components =
    [.normal "out", .normal "clip.seal-unwrap.7.partial"] := by decide

theorem sample_unwraps_or_leaves_nothing :
    ∃ (a : SignedArchive) (dir : SealDir),
      handleUnwrapOnDisk headCrates sampleContent (runStorage a.manifest)
        (sampleHost dir none) ⟨dir, none, "out/clip"⟩ (fun _ => .absent) =
        (.ok (), Function.update (fun _ => .absent) [.normal "out", .normal "clip"]
          (.file [1, 2, 3])) ∧
      (handleUnwrapOnDisk headCrates sampleContent (runStorage a.manifest)
        (sampleHost dir none) ⟨dir, none, "out/clip"⟩ (fun _ => .absent)).2
        [.normal "out", .normal "clip.seal-unwrap.7.partial"] = .absent ∧
      (handleUnwrapOnDisk headCrates sampleContent (runStorage a.manifest)
        (sampleHost dir (some .notFound)) ⟨dir, none, "out/clip"⟩ (fun _ => .absent)).2 =
        (fun _ => .absent) := by
  have hx := headCrates_signsLawfully
  obtain ⟨a, result, ha, -, hfinal, -⟩ := sample_wrap hx.base64 hx.publicLength sampleFigures
    (sampleKey 1) headCrates_signsShort
  obtain ⟨-, -, hunwrap⟩ := sample_unwraps hx headCrates_signsShort serdeText_lawful ha hfinal
    "out/clip" ⟨.absent, .absent⟩
  have hquiet : (sampleHost result.dir none).Quiet ⟨result.dir, none, "out/clip"⟩ :=
    ⟨rfl, rfl, fun _ => rfl, rfl, fun _ => ⟨1, rfl⟩, rfl, rfl⟩
  refine ⟨a, result.dir, ?_, ?_, ?_⟩
  · refine (hquiet.handleUnwrapOnDisk_eq rfl (fun _ => Node.noConfusion)).trans ?_
    rw [show handleUnwrap _ _ _ ⟨(sampleHost result.dir none).bundle, noFaults⟩ _ ⟨_, _⟩ = _
      from hunwrap, UnwrapCmd.outputPath, sample_outputPath]
  · rw [← sample_tmpPath]
    exact (unwrap_all_or_nothing rfl rfl).1
  · have hrefused : ∃ e, (handleUnwrapOnDisk headCrates sampleContent
        (runStorage a.manifest) (sampleHost result.dir (some .notFound))
        ⟨result.dir, none, "out/clip"⟩ (fun _ => .absent)).1 = .error e :=
      handleUnwrapOnDisk_rename_fault rfl rfl (Option.some_ne_none _)
    obtain ⟨e, hfailed⟩ := hrefused
    exact (unwrap_all_or_nothing rfl rfl).2.1 e hfailed

end Sealedge
