import CinderHTTP.Response.Ownership

/-!
# What a failed serve leaves behind

`static_files_serve` asks the file system several times, and nothing keeps
the answers from changing between two calls.  Whatever they are, and whichever
allocations fail, a serve that fails leaves a fresh response and no open
descriptor, and a serve that succeeds leaves exactly the descriptor of the
body open.
-/

namespace CinderHTTP

/-! ## Changing file systems -/

/-- The file system as each part of a serve finds it: the calls on the
document root, on the requested path, on the index file, and `open` with
`fstat`. -/
structure Outcomes where
  root : FileSystem
  requested : FileSystem
  index : FileSystem
  opening : FileSystem

namespace Outcomes

variable (outcomes : Outcomes)

/-- `resolveTarget` with the answers of each part. -/
def resolveTarget (canonicalRoot relative : Bytes) (process : Process) :
    Except StaticFileError Resolved × Process :=
  match resolveUnderRoot outcomes.requested canonicalRoot relative process with
  | (.error failure, process) => (.error failure, process)
  | (.ok resolved, process) =>
      if resolved.isDir then
        match tryIndex outcomes.index canonicalRoot relative process with
        | (.error .notFound, process) => (.error .forbidden, process)
        | (.error failure, process) => (.error failure, process)
        | (.ok index, process) => (.ok index, process)
      else (.ok resolved, process)

def findFile (documentRoot target : Bytes) (process : Process) :
    Except StaticFileError Resolved × Process :=
  match relativePath target process with
  | (.error failure, process) => (.error failure, process)
  | (.ok relative, process) =>
      match canonicalDocumentRoot outcomes.root documentRoot with
      | none => (.error .ioError, process)
      | some root => outcomes.resolveTarget root relative process

def staticFilesServe (documentRoot : Bytes) (request : Request)
    (response : Response) (process : Process) :
    (Except StaticFileError Unit × Response) × Process :=
  match request.target with
  | none => ((.error .badTarget, response), process)
  | some target =>
      let destroyed := httpResponseDestroy response process
      match outcomes.findFile documentRoot target destroyed.2 with
      | (.error failure, process) => ((.error failure, destroyed.1), process)
      | (.ok resolved, process) =>
          match fillFileResponse outcomes.opening destroyed.1 resolved.path
              process with
          | ((.ok _, filled), process) => ((.ok (), filled), process)
          | ((.error failure, unfilled), process) =>
              let cleaned := httpResponseDestroy unfilled process
              ((.error failure, cleaned.1), cleaned.2)

end Outcomes

/-- A file system that does not change. -/
def FileSystem.always (fs : FileSystem) : Outcomes :=
  ⟨fs, fs, fs, fs⟩

theorem FileSystem.always_serve (fs : FileSystem) (documentRoot : Bytes)
    (request : Request) (response : Response) (process : Process) :
    fs.always.staticFilesServe documentRoot request response process =
      staticFilesServe fs documentRoot request response process := rfl

/-! ## Stages without files -/

/-- Only allocations lie between the two. -/
structure Process.SameFiles (before after : Process) : Prop where
  opened : after.opened = before.opened
  closed : after.closed = before.closed

namespace Process.SameFiles

theorem refl (process : Process) : process.SameFiles process :=
  ⟨rfl, rfl⟩

theorem trans {first second third : Process}
    (early : first.SameFiles second) (late : second.SameFiles third) :
    first.SameFiles third :=
  ⟨late.opened.trans early.opened, late.closed.trans early.closed⟩

theorem malloc (process : Process) : process.SameFiles process.malloc.2 :=
  ⟨rfl, rfl⟩

end Process.SameFiles

theorem pushSegment_sameFiles (segment : Bytes) (segments : List Bytes)
    (capacity : Nat) (process : Process) :
    process.SameFiles (pushSegment segment segments capacity process).2 := by
  unfold pushSegment
  simp only
  split_ifs
  all_goals exact ⟨rfl, rfl⟩

theorem normalizeFrom_sameFiles (cursor : Bytes) (segments : List Bytes)
    (capacity : Nat) (process : Process) :
    process.SameFiles (normalizeFrom cursor segments capacity process).2 := by
  fun_induction normalizeFrom cursor segments capacity process with
  | case1 => exact .refl _
  | case2 cursor segments capacity process _ segment next _ induction =>
      exact induction
  | case3 cursor segments capacity process _ segment next _ _ induction =>
      exact induction
  | case4 => exact .refl _
  | case5 cursor segments capacity process _ segment next _ _ _ _ induction =>
      exact induction
  | case6 cursor segments capacity process _ segment _ _ _ between refused =>
      have pushed := pushSegment_sameFiles segment segments capacity process
      rw [refused] at pushed
      exact pushed
  | case7 cursor segments capacity process _ segment next _ _ _ pushed
      newCapacity between pushing induction =>
      have kept := pushSegment_sameFiles segment segments capacity process
      rw [pushing] at kept
      exact kept.trans induction

theorem staticFilesExtractPath_sameFiles (target : Bytes)
    (process : Process) :
    process.SameFiles (staticFilesExtractPath target process).2 := by
  unfold staticFilesExtractPath
  cases pathPortion target with
  | error failure => exact .refl _
  | ok path =>
      simp only
      split_ifs
      · exact .malloc process
      · exact .malloc process

theorem staticFilesUrlDecode_sameFiles (input : Bytes) (process : Process) :
    process.SameFiles (staticFilesUrlDecode input process).2 := by
  unfold staticFilesUrlDecode
  simp only
  split_ifs
  · exact .malloc process
  · cases decodeEscapes input with
    | none => exact .malloc process
    | some decoded => exact .malloc process

theorem staticFilesNormalizePath_sameFiles (decoded : Bytes)
    (process : Process) :
    process.SameFiles (staticFilesNormalizePath decoded process).2 := by
  cases decoded with
  | nil => exact .refl _
  | cons first rest =>
      have walked := normalizeFrom_sameFiles rest [] 0 process
      unfold staticFilesNormalizePath
      simp only
      split_ifs
      · exact .refl _
      generalize normalizeFrom rest [] 0 process = walk at walked ⊢
      obtain ⟨failure | segments, between⟩ := walk
      · exact walked
      · simp only
        split_ifs
        · exact walked.trans (.malloc between)
        · exact walked.trans (.malloc between)

theorem relativePath_sameFiles (target : Bytes) (process : Process) :
    process.SameFiles (relativePath target process).2 := by
  have extracted := staticFilesExtractPath_sameFiles target process
  unfold relativePath
  generalize staticFilesExtractPath target process = path at extracted ⊢
  obtain ⟨failure | path, between⟩ := path
  · exact extracted
  have decoding := staticFilesUrlDecode_sameFiles path between
  simp only
  generalize staticFilesUrlDecode path between = decoded at decoding ⊢
  obtain ⟨failure | decoded, later⟩ := decoded
  · exact extracted.trans decoding
  · exact (extracted.trans decoding).trans
      (staticFilesNormalizePath_sameFiles decoded later)

theorem resolveUnderRoot_sameFiles (fs : FileSystem)
    (canonicalRoot relative : Bytes) (process : Process) :
    process.SameFiles
      (resolveUnderRoot fs canonicalRoot relative process).2 := by
  unfold resolveUnderRoot
  cases locateUnderRoot fs canonicalRoot relative with
  | error failure => exact .refl _
  | ok resolved =>
      simp only
      split_ifs
      · exact .malloc process
      · exact .malloc process

theorem tryIndex_sameFiles (fs : FileSystem)
    (canonicalRoot dirRelative : Bytes) (process : Process) :
    process.SameFiles (tryIndex fs canonicalRoot dirRelative process).2 := by
  unfold tryIndex
  cases printPath (if dirRelative = [] then ascii "index.html"
      else dirRelative ++ ascii "/index.html") with
  | error failure => exact .refl _
  | ok indexRelative =>
      have resolving := resolveUnderRoot_sameFiles fs canonicalRoot
        indexRelative process
      simp only
      generalize resolveUnderRoot fs canonicalRoot indexRelative process =
        found at resolving ⊢
      obtain ⟨failure | resolved, between⟩ := found
      · exact resolving
      · simp only
        split_ifs
        · exact resolving
        · exact resolving

namespace Outcomes

theorem resolveTarget_sameFiles (outcomes : Outcomes)
    (canonicalRoot relative : Bytes) (process : Process) :
    process.SameFiles
      (outcomes.resolveTarget canonicalRoot relative process).2 := by
  have resolving := resolveUnderRoot_sameFiles outcomes.requested
    canonicalRoot relative process
  unfold resolveTarget
  generalize resolveUnderRoot outcomes.requested canonicalRoot relative
    process = found at resolving ⊢
  obtain ⟨failure | resolved, between⟩ := found
  · exact resolving
  simp only
  split_ifs
  · have indexing := tryIndex_sameFiles outcomes.index canonicalRoot relative
      between
    generalize tryIndex outcomes.index canonicalRoot relative between =
      index at indexing ⊢
    obtain ⟨failure | index, later⟩ := index
    · cases failure
      all_goals exact resolving.trans indexing
    · exact resolving.trans indexing
  · exact resolving

theorem findFile_sameFiles (outcomes : Outcomes)
    (documentRoot target : Bytes) (process : Process) :
    process.SameFiles (outcomes.findFile documentRoot target process).2 := by
  have lexical := relativePath_sameFiles target process
  unfold findFile
  generalize relativePath target process = path at lexical ⊢
  obtain ⟨failure | relative, between⟩ := path
  · exact lexical
  simp only
  cases canonicalDocumentRoot outcomes.root documentRoot with
  | none => exact lexical
  | some root =>
      exact lexical.trans
        (outcomes.resolveTarget_sameFiles root relative between)

end Outcomes

/-! ## The descriptor -/

/-- The body of the response is the file of the descriptor, in the size that
`fstat` gave. -/
structure Response.Serves (response : Response) (descriptor : Descriptor) :
    Prop where
  kind : response.bodyKind = .file
  fd : response.fileFd = some descriptor
  size : ∃ stat, descriptor.file.fstat = .ok stat ∧
    (response.bodyLength : Int) = stat.size
  bounded : response.bodyLength ≤ httpMaxStaticFileSize

/-- What a part of a serve leaves: nothing in the response and every
descriptor it opened closed, or one that the response holds. -/
inductive Settled (process : Process) :
    Except StaticFileError Unit × Response → Process → Prop
  | failed {failure : StaticFileError} {response : Response}
      {later : Process} (opened : Option Descriptor) :
      response.held = [] →
      later.opened = process.opened ++ opened.toList →
      later.closed = process.closed ++ opened.toList →
      Settled process (.error failure, response) later
  | served {response : Response} {later : Process}
      (descriptor : Descriptor) : response.Serves descriptor →
      later.opened = process.opened ++ [descriptor] →
      later.closed = process.closed →
      Settled process (.ok (), response) later

theorem clearBody_opened (response : Response) (process : Process) :
    (clearBody response process).2.opened = process.opened := by
  unfold clearBody Process.close
  simp only
  split <;> rfl

theorem clearBody_sameFiles {response : Response}
    (empty : response.held = []) (process : Process) :
    process.SameFiles (clearBody response process).2 := by
  have closed := clearBody_closed response process
  rw [empty, List.append_nil] at closed
  exact ⟨clearBody_opened response process, closed⟩

theorem Settled.unopened {first later : Process} {response : Response}
    (same : first.SameFiles later) (empty : response.held = [])
    (failure : StaticFileError) :
    Settled first (.error failure, response) later := by
  refine .failed none empty ?_ ?_
  · rw [same.opened, Option.toList_none, List.append_nil]
  · rw [same.closed, Option.toList_none, List.append_nil]

theorem closed_settled {response : Response} {descriptor : Descriptor}
    {process between : Process} (empty : response.held = [])
    (opened : between.opened = process.opened ++ [descriptor])
    (closed : between.closed = process.closed) (failure : StaticFileError) :
    Settled process
      (.error failure,
        (httpResponseDestroy response (between.close descriptor)).1)
      (httpResponseDestroy response (between.close descriptor)).2 := by
  have destroyed := clearBody_sameFiles empty (between.close descriptor)
  refine .failed (some descriptor) rfl ?_ ?_
  · exact destroyed.opened.trans opened
  · exact destroyed.closed.trans (congrArg (· ++ [descriptor]) closed)

theorem attachDescriptor_settled {response : Response}
    {descriptor : Descriptor} {process between : Process}
    (empty : response.held = [])
    (opened : between.opened = process.opened ++ [descriptor])
    (closed : between.closed = process.closed) :
    Settled process (attachDescriptor descriptor response between).1
      (attachDescriptor descriptor response between).2 := by
  have rejected := closed_settled empty opened closed
  have destroyed := clearBody_sameFiles empty between
  unfold attachDescriptor
  cases status : descriptor.file.fstat with
  | error errno => exact rejected .ioError
  | ok stat =>
      simp only
      split_ifs with irregular negative large huge
      · exact rejected .forbidden
      · exact rejected .ioError
      · exact rejected .tooLarge
      · exact rejected .tooLarge
      · rw [httpResponseSetFileBody, if_neg negative, if_neg huge]
        have nonnegative := Int.not_lt.mp negative
        refine .served descriptor ⟨rfl, rfl, ⟨stat, status, ?_⟩, ?_⟩ ?_ ?_
        · exact Int.toNat_of_nonneg nonnegative
        · exact Int.toNat_le.mpr (Int.not_lt.mp large)
        · exact destroyed.opened.trans opened
        · exact destroyed.closed.trans closed

theorem httpResponseAddHeader_sameFiles (response : Response)
    (name value : Bytes) (process : Process) :
    process.SameFiles
      (httpResponseAddHeader response name value process).2 := by
  refine ⟨?_, httpResponseAddHeader_closed response name value process⟩
  unfold httpResponseAddHeader
  simp only
  split_ifs
  all_goals rfl

theorem httpResponseAddHeader_held (response : Response)
    (name value : Bytes) (process : Process) :
    (httpResponseAddHeader response name value process).1.2.held =
      response.held := by
  rcases httpResponseAddHeader_cases response name value process with
    added | refused
  · rw [added]
    rfl
  · rw [refused]

theorem fillFileResponse_settled (fs : FileSystem) {response : Response}
    (empty : response.held = []) (path : Bytes) (process : Process) :
    Settled process (fillFileResponse fs response path process).1
      (fillFileResponse fs response path process).2 := by
  have destroyed := clearBody_sameFiles empty process
  have adding := httpResponseAddHeader_sameFiles
    (httpResponseSetStatus httpResponseInit 200) (ascii "Content-Type")
    (mimeTypeFromPath path) (clearBody response process).2
  have held := httpResponseAddHeader_held
    (httpResponseSetStatus httpResponseInit 200) (ascii "Content-Type")
    (mimeTypeFromPath path) (clearBody response process).2
  unfold fillFileResponse httpResponseDestroy
  simp only
  generalize httpResponseAddHeader
    (httpResponseSetStatus httpResponseInit 200) (ascii "Content-Type")
    (mimeTypeFromPath path) (clearBody response process).2 =
      added at adding held ⊢
  obtain ⟨⟨flag, typed⟩, between⟩ := added
  have kept := destroyed.trans adding
  change typed.held = [] at held
  cases flag with
  | false => exact .unopened kept held _
  | true =>
      simp only [Process.openRead]
      cases fs.openRead path with
      | error errno =>
          have cleaned := clearBody_sameFiles held between
          exact .unopened (kept.trans cleaned) rfl _
      | ok file =>
          refine attachDescriptor_settled held ?_ kept.closed
          rw [kept.opened]

/-- The files behind a stage without files are those in front of it. -/
theorem Settled.of_sameFiles {first second later : Process}
    {outcome : Except StaticFileError Unit × Response}
    (same : first.SameFiles second) (settled : Settled second outcome later) :
    Settled first outcome later := by
  cases settled with
  | failed opened held fresh released =>
      refine .failed opened held ?_ ?_
      · rw [fresh, same.opened]
      · rw [released, same.closed]
  | served descriptor serves fresh released =>
      refine .served descriptor serves ?_ ?_
      · rw [fresh, same.opened]
      · rw [released, same.closed]

theorem Outcomes.staticFilesServe_settled (outcomes : Outcomes)
    (documentRoot : Bytes) {request : Request} {target : Bytes}
    (targeted : request.target = some target) (response : Response)
    (process : Process) :
    Settled (httpResponseDestroy response process).2
        (outcomes.staticFilesServe documentRoot request response process).1
        (outcomes.staticFilesServe documentRoot request response process).2 ∧
      ∀ failure, (outcomes.staticFilesServe documentRoot request response
          process).1.1 = .error failure →
        (outcomes.staticFilesServe documentRoot request response
          process).1.2 = httpResponseInit := by
  have finding := outcomes.findFile_sameFiles documentRoot target
    (httpResponseDestroy response process).2
  unfold Outcomes.staticFilesServe
  simp only [targeted]
  generalize (httpResponseDestroy response process).2 = base at finding ⊢
  generalize outcomes.findFile documentRoot target base = found
    at finding ⊢
  obtain ⟨failure | resolved, between⟩ := found
  · exact ⟨.unopened finding rfl failure, fun _ _ => rfl⟩
  have filling := fillFileResponse_settled outcomes.opening
    (rfl : httpResponseInit.held = []) resolved.path between
  have fresh : (httpResponseDestroy response process).1 =
      httpResponseInit := rfl
  simp only [fresh]
  generalize fillFileResponse outcomes.opening httpResponseInit
    resolved.path between = filled at filling ⊢
  obtain ⟨⟨failure | ⟨⟩, last⟩, later⟩ := filled
  · refine ⟨?_, fun _ _ => rfl⟩
    cases filling with
    | failed opened held new released =>
        have cleaned := clearBody_sameFiles held later
        refine .of_sameFiles finding (.failed opened rfl ?_ ?_)
        · exact cleaned.opened.trans new
        · exact cleaned.closed.trans released
  · exact ⟨.of_sameFiles finding filling, fun _ failed => by cases failed⟩

/-- A serve leaves nothing behind when it fails, and one open descriptor
otherwise. -/
theorem staticFilesServe_settles (outcomes : Outcomes) (documentRoot : Bytes)
    {request : Request} {target : Bytes}
    (targeted : request.target = some target) (response : Response)
    (process : Process) :
    let outcome :=
      outcomes.staticFilesServe documentRoot request response process
    ∃ opened closed : List Descriptor,
      outcome.2.opened = process.opened ++ opened ∧
      outcome.2.closed = process.closed ++ response.held ++ closed ∧
      (∀ failure, outcome.1.1 = .error failure →
        outcome.1.2 = httpResponseInit ∧ opened.Nodup ∧ closed = opened) ∧
      (outcome.1.1 = .ok () →
        ∃ descriptor stat, opened = [descriptor] ∧ closed = [] ∧
          outcome.1.2.fileFd = some descriptor ∧
          outcome.1.2.bodyKind = .file ∧
          descriptor.file.fstat = .ok stat ∧
          (outcome.1.2.bodyLength : Int) = stat.size ∧
          outcome.1.2.bodyLength ≤ 64 * 1024 * 1024) ∧
      ∀ fs, outcomes = fs.always →
        outcome = staticFilesServe fs documentRoot request response
          process := by
  intro outcome
  obtain ⟨settled, emptied⟩ := outcomes.staticFilesServe_settled documentRoot
    targeted response process
  have same : ∀ fs, outcomes = fs.always →
      outcome = staticFilesServe fs documentRoot request response
        process := by
    rintro fs rfl
    exact fs.always_serve documentRoot request response process
  have before := clearBody_opened response process
  have released := clearBody_closed response process
  change Settled _ outcome.1 outcome.2 at settled
  change ∀ failure, outcome.1.1 = .error failure →
    outcome.1.2 = httpResponseInit at emptied
  generalize outcome = final at settled emptied same ⊢
  obtain ⟨⟨result, last⟩, later⟩ := final
  cases settled with
  | failed opened held new closed =>
      refine ⟨opened.toList, opened.toList, ?_, ?_, ?_, ?_, same⟩
      · exact new.trans (congrArg (· ++ _) before)
      · exact closed.trans (congrArg (· ++ _) released)
      · intro failure failed
        refine ⟨emptied failure failed, ?_, rfl⟩
        cases opened with
        | none => exact List.nodup_nil
        | some descriptor => exact List.nodup_singleton descriptor
      · intro success
        cases success
  | served descriptor serves new closed =>
      refine ⟨[descriptor], [], ?_, ?_, ?_, ?_, same⟩
      · exact new.trans (congrArg (· ++ _) before)
      · rw [List.append_nil]
        exact closed.trans released
      · intro failure failed
        cases failed
      · intro _
        obtain ⟨stat, status, size⟩ := serves.size
        exact ⟨descriptor, stat, rfl, rfl, serves.fd, serves.kind, status,
          size, serves.bounded⟩

/-- The index file of a directory, whose size has changed before it is
opened. -/
theorem staticFilesServe_settles_index :
    let directory : FileSystem :=
      { realpath := fun path => .ok path
        stat := fun _ => .ok ⟨.directory, 0⟩
        openRead := fun _ => .error .enoent }
    let file : OpenFile := ⟨[], ascii "abc", .ok ⟨.regular, 3⟩⟩
    let regular : FileSystem :=
      { realpath := fun path => .ok path
        stat := fun _ => .ok ⟨.regular, 9⟩
        openRead := fun _ => .ok file }
    let request : Request :=
      { httpRequestInit with target := some (ascii "/") }
    let outcome := (Outcomes.mk directory directory regular
      regular).staticFilesServe (ascii "/srv") request httpResponseInit {}
    outcome.1.1 = .ok () ∧ outcome.1.2.bodyLength = 3 ∧
      ∃ descriptor, outcome.2.opened = [descriptor] ∧
        outcome.2.closed = [] ∧ outcome.1.2.fileFd = some descriptor := by
  intro directory file regular request outcome
  have success : outcome.1.1 = .ok () := by decide +kernel
  obtain ⟨opened, closed, new, released, -, served, -⟩ :=
    staticFilesServe_settles ⟨directory, directory, regular, regular⟩
      (ascii "/srv") (rfl : request.target = some (ascii "/"))
      httpResponseInit {}
  obtain ⟨descriptor, stat, rfl, rfl, fd, -⟩ := served success
  exact ⟨success, by decide +kernel, descriptor, new, released, fd⟩

end CinderHTTP
