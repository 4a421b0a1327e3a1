import CinderHTTP.Response.Wire
import CinderHTTP.Static.Confinement
import CinderHTTP.Static.Lexical

/-!
# Completeness of static serving

Every regular file below the document root is served at every spelling of its
path, unless the document root is the root directory: there the joined path
gets a second slash, and the check against the root refuses the canonical
path.  The stages of the search do not change the process when no allocation
fails.
-/

namespace CinderHTTP

/-! ## Without allocation failures -/

section Granted

variable {process : Process} (granted : process.allocs = [])

include granted

theorem relativePath_process (target : Bytes) :
    (relativePath target process).2 = process := by
  unfold relativePath staticFilesExtractPath staticFilesUrlDecode
  cases pathPortion target with
  | error failure => rfl
  | ok path =>
      simp only [Process.malloc_granted granted, Bool.not_true,
        Bool.false_eq_true, if_false]
      cases decodeEscapes path with
      | none => rfl
      | some decoded =>
          unfold staticFilesNormalizePath
          cases decoded with
          | nil => rfl
          | cons first rest =>
              simp only [normalizeFrom_granted rest [] 0 granted]
              split_ifs
              · rfl
              · cases cancel segmentMove [] (rest.splitOn slash) with
                | none => rfl
                | some segments => simp [granted]

theorem resolveUnderRoot_granted (fs : FileSystem)
    (canonicalRoot relative : Bytes) :
    resolveUnderRoot fs canonicalRoot relative process =
      (locateUnderRoot fs canonicalRoot relative, process) := by
  unfold resolveUnderRoot
  cases locateUnderRoot fs canonicalRoot relative with
  | error failure => rfl
  | ok resolved => simp [granted]

theorem tryIndex_process (fs : FileSystem)
    (canonicalRoot dirRelative : Bytes) :
    (tryIndex fs canonicalRoot dirRelative process).2 = process := by
  unfold tryIndex
  split
  · rfl
  · rw [resolveUnderRoot_granted granted]
    cases locateUnderRoot fs canonicalRoot _ with
    | error failure => rfl
    | ok resolved =>
        simp only
        split_ifs <;> rfl

theorem resolveTarget_process (fs : FileSystem)
    (canonicalRoot relative : Bytes) :
    (resolveTarget fs canonicalRoot relative process).2 = process := by
  have index := tryIndex_process granted fs canonicalRoot relative
  unfold resolveTarget
  rw [resolveUnderRoot_granted granted]
  cases locateUnderRoot fs canonicalRoot relative with
  | error failure => rfl
  | ok resolved =>
      simp only
      split_ifs
      · rcases found : tryIndex fs canonicalRoot relative process with
          ⟨failure | indexed, later⟩
        · rw [found] at index
          cases failure <;> exact index
        · rw [found] at index
          exact index
      · rfl

theorem findFile_process (fs : FileSystem) (documentRoot target : Bytes) :
    (findFile fs documentRoot target process).2 = process := by
  have lexical := relativePath_process granted target
  unfold findFile
  rcases found : relativePath target process with
    ⟨failure | relative, later⟩
  · rw [found] at lexical
    exact lexical
  · rw [found] at lexical
    cases lexical
    cases canonicalDocumentRoot fs documentRoot with
    | none => rfl
    | some root => exact resolveTarget_process granted fs root relative

end Granted

theorem httpResponseDestroy_allocs (response : Response)
    (process : Process) :
    (httpResponseDestroy response process).2.allocs = process.allocs :=
  clearBody_allocs response process

theorem attachDescriptor_allocs (descriptor : Descriptor)
    (response : Response) (process : Process) :
    (attachDescriptor descriptor response process).2.allocs =
      process.allocs := by
  unfold attachDescriptor httpResponseSetFileBody
  cases descriptor.file.fstat with
  | error errno => exact httpResponseDestroy_allocs _ _
  | ok stat =>
      simp only
      split_ifs
      all_goals simp [httpResponseDestroy_allocs, Process.close]

theorem fillFileResponse_allocs (fs : FileSystem) (response : Response)
    (path : Bytes) {process : Process} (granted : process.allocs = []) :
    (fillFileResponse fs response path process).2.allocs = [] := by
  have kept : (httpResponseDestroy response process).2.allocs = [] :=
    (httpResponseDestroy_allocs _ _).trans granted
  unfold fillFileResponse
  simp only [httpResponseAddHeader_granted _ _ _ kept, Process.openRead]
  cases fs.openRead path with
  | error errno => simp only [httpResponseDestroy_allocs, granted]
  | ok file =>
      simp only [attachDescriptor_allocs, httpResponseDestroy_allocs, granted]

theorem staticFilesServe_allocs (fs : FileSystem) (documentRoot : Bytes)
    (request : Request) (response : Response) {process : Process}
    (granted : process.allocs = []) :
    (staticFilesServe fs documentRoot request response process).2.allocs =
      [] := by
  have kept : (httpResponseDestroy response process).2.allocs = [] :=
    (httpResponseDestroy_allocs _ _).trans granted
  unfold staticFilesServe
  cases request.target with
  | none => exact granted
  | some target =>
      simp only
      generalize httpResponseDestroy response process = destroyed at kept ⊢
      have same := findFile_process kept fs documentRoot target
      generalize findFile fs documentRoot target destroyed.2 = found
        at same ⊢
      obtain ⟨failure | resolved, between⟩ := found
      · exact (congrArg Process.allocs same).trans kept
      · have filled := fillFileResponse_allocs fs destroyed.1 resolved.path
          ((congrArg Process.allocs same).trans kept)
        simp only
        generalize fillFileResponse fs destroyed.1 resolved.path between =
          filling at filled ⊢
        obtain ⟨⟨failure | ⟨⟩, attached⟩, later⟩ := filling
        · exact (httpResponseDestroy_allocs _ _).trans filled
        · exact filled

/-! ## The joined path -/

theorem renderTail_append (left right : List Bytes) :
    renderTail (left ++ right) = renderTail left ++ renderTail right :=
  List.flatMap_append

theorem renderPath_append (root : List Bytes) {segments : List Bytes}
    (nonempty : segments ≠ []) :
    renderPath (root ++ segments) =
      renderTail root ++ renderTail segments := by
  rw [renderPath, if_neg (by simp [nonempty]), renderTail_append]

theorem renderTail_eq_joinSegments {segments : List Bytes}
    (nonempty : segments ≠ []) :
    renderTail segments = slash :: joinSegments segments := by
  induction segments with
  | nil => exact absurd rfl nonempty
  | cons segment segments induction =>
      rw [renderTail_cons]
      cases segments with
      | nil => simp [joinSegments, renderTail]
      | cons next segments =>
          rw [induction (by simp), joinSegments, List.cons_append]

/-- Segments that are written with slashes between them are found again. -/
theorem cancel_joinSegments {segments : List Bytes}
    (canonical : CanonicalPath segments) (nonempty : segments ≠ [])
    (stack : List Bytes) :
    cancel segmentMove stack ((joinSegments segments).splitOn slash) =
      some (stack ++ segments) := by
  rw [splitOn_joinSegments (fun segment member =>
    (canonical segment member).noSlash) nonempty]
  apply cancel_pushed
  intro segment member
  have component := canonical segment member
  rw [segmentMove, if_neg (not_or.mpr ⟨component.nonempty,
    component.notDot⟩), if_neg component.notDotDot]

/-- Every spelling of a path denotes it. -/
theorem denotes_spelling {segments : List Bytes} {encoded query : Bytes}
    (canonical : CanonicalPath segments) (nonempty : segments ≠ [])
    (encoding : PercentEncoding encoded (joinSegments segments))
    (clean : question ∉ encoded ∧ hash ∉ encoded)
    (boundary : AtBoundary question query) :
    Denotes (slash :: encoded ++ query) segments := by
  refine ⟨slash :: encoded, joinSegments segments, ?_, ?_, ?_⟩
  · exact (pathPortion_ok_iff _ _).mpr
      ⟨query, rfl, clean, .inl boundary⟩
  · exact .literal (by decide) encoding
  · rw [normalSegments, cancel_joinSegments canonical nonempty,
      List.nil_append]

theorem pathIsWithinRoot_append (root : Bytes) {rest : Bytes}
    (boundary : AtBoundary slash rest) :
    pathIsWithinRoot (root ++ rest) root = true := by
  unfold pathIsWithinRoot
  rw [if_neg (by simp), List.take_left, List.drop_left,
    if_neg (by simp)]
  split_ifs with same
  · rfl
  · have filled : rest ≠ [] := by
      rintro rfl
      simp at same
    exact decide_eq_true (boundary.resolve_left filled)

/-- Below the root directory nothing passes the check. -/
theorem not_pathIsWithinRoot_slash {path : List Bytes}
    (canonical : CanonicalPath path) (below : path ≠ []) :
    pathIsWithinRoot (renderPath path) (renderPath []) = false := by
  cases path with
  | nil => exact absurd rfl below
  | cons component path =>
      have first := canonical component List.mem_cons_self
      rw [renderPath, if_neg (by simp), renderTail_cons]
      cases component with
      | nil => exact absurd rfl first.nonempty
      | cons character component =>
          have other : character ≠ slash := fun same =>
            first.noSlash (same ▸ List.mem_cons_self)
          simp [pathIsWithinRoot, renderPath, other]

/-! ## Serving -/

/-- A readable regular file of at most 64 MiB below a document root, at a
path that is its own resolution. -/
structure Servable (fs : FileSystem) (documentRoot : Bytes)
    (root segments : List Bytes) (content : Bytes) : Prop where
  rootResolved : fs.realpath documentRoot = .ok (renderPath root)
  rootDirectory : ∃ stat, fs.stat (renderPath root) = .ok stat ∧
    stat.kind = .directory
  canonical : CanonicalPath segments
  nonempty : segments ≠ []
  fits : (renderPath (root ++ segments)).length < pathMax
  resolved : fs.realpath (renderPath (root ++ segments)) =
    .ok (renderPath (root ++ segments))
  stat : fs.stat (renderPath (root ++ segments)) =
    .ok { kind := .regular, size := content.length }
  opened : fs.openRead (renderPath (root ++ segments)) =
    .ok { path := root ++ segments, content := content
          fstat := .ok { kind := .regular, size := content.length } }
  small : content.length ≤ 64 * 1024 * 1024

/-- The response of a successful call has the file as its body and announces
its size. -/
structure PresentsFile (path : List Bytes) (content : Bytes)
    (response : Response) : Prop where
  status : response.statusCode = 200
  kind : response.bodyKind = .file
  file : response.fileFd.map (·.file.path) = some path
  body : bodyBytes response = content
  contentLength :
    fieldsNamed (ascii "Content-Length") (responseFields response) =
      [{ name := ascii "Content-Length", value := decimal content.length }]

namespace Servable

variable {fs : FileSystem} {documentRoot : Bytes}
  {root segments : List Bytes} {content : Bytes}

theorem canonicalDocumentRoot
    (servable : Servable fs documentRoot root segments content) :
    CinderHTTP.canonicalDocumentRoot fs documentRoot =
      some (renderPath root) := by
  obtain ⟨stat, looked, directory⟩ := servable.rootDirectory
  rw [CinderHTTP.canonicalDocumentRoot, servable.rootResolved]
  simp only [looked, directory, if_true]

theorem bounds (servable : Servable fs documentRoot root segments content) :
    ¬(content.length : Int) < 0 ∧
      ¬(content.length : Int) > httpMaxStaticFileSize ∧
      ¬(content.length : Int) > sizeMax := by
  have small := servable.small
  simp only [httpMaxStaticFileSize, sizeMax]
  omega

theorem checkStat
    (servable : Servable fs documentRoot root segments content) :
    CinderHTTP.checkStat { kind := .regular, size := content.length } =
      .ok (content.length, false) := by
  obtain ⟨negative, large, huge⟩ := servable.bounds
  simp only [CinderHTTP.checkStat, if_neg negative, if_neg large,
    if_neg huge, Int.toNat_natCast]

theorem attachDescriptor
    (servable : Servable fs documentRoot root segments content)
    {descriptor : Descriptor}
    (looked : descriptor.file.fstat =
      .ok { kind := .regular, size := content.length })
    (response : Response) (process : Process) :
    CinderHTTP.attachDescriptor descriptor response process =
      ((.ok (), { (clearBody response process).1 with
        bodyKind := .file
        fileFd := some descriptor
        bodyLength := content.length }), (clearBody response process).2) := by
  obtain ⟨negative, large, huge⟩ := servable.bounds
  simp only [CinderHTTP.attachDescriptor, looked, ne_eq, not_true_eq_false,
    if_false, if_neg negative, if_neg large, if_neg huge,
    httpResponseSetFileBody, Int.toNat_natCast]
  rfl

theorem locateUnderRoot
    (servable : Servable fs documentRoot root segments content)
    (below : root ≠ []) :
    CinderHTTP.locateUnderRoot fs (renderPath root)
        (joinSegments segments) =
      .ok { path := renderPath (root ++ segments)
            size := content.length, isDir := false } := by
  have rootText : renderPath root = renderTail root := by
    rw [renderPath, if_neg below]
  have relative : joinSegments segments ≠ [] := by
    intro empty
    have first := (cancel_joinSegments servable.canonical
      servable.nonempty [])
    rw [empty, List.splitOn_nil, cancel_singleton, cancelStep_idle (.inl rfl),
      List.nil_append, Option.some.injEq] at first
    exact servable.nonempty first.symm
  have joined : joinRootRelative (renderPath root) (joinSegments segments) =
      .ok (renderPath (root ++ segments)) := by
    have text : renderPath root ++ slash :: joinSegments segments =
        renderPath (root ++ segments) := by
      rw [renderPath_append root servable.nonempty, rootText,
        renderTail_eq_joinSegments servable.nonempty]
    rw [joinRootRelative, if_neg relative, text, printPath,
      if_neg (Nat.not_le.mpr servable.fits)]
  have within : pathIsWithinRoot (renderPath (root ++ segments))
      (renderPath root) = true := by
    rw [renderPath_append root servable.nonempty, rootText]
    exact pathIsWithinRoot_append _ (renderTail_boundary segments)
  rw [CinderHTTP.locateUnderRoot, joined]
  simp only [servable.resolved, within, Bool.not_true, Bool.false_eq_true,
    if_false, servable.stat, servable.checkStat]

theorem findFile
    (servable : Servable fs documentRoot root segments content)
    (below : root ≠ []) {target : Bytes} (denotes : Denotes target segments)
    {process : Process} (granted : process.allocs = []) :
    CinderHTTP.findFile fs documentRoot target process =
      (.ok { path := renderPath (root ++ segments)
             size := content.length, isDir := false }, process) := by
  rw [CinderHTTP.findFile, relativePath_granted denotes granted]
  simp only [servable.canonicalDocumentRoot]
  rw [resolveTarget, resolveUnderRoot_granted granted,
    servable.locateUnderRoot below]
  rfl

theorem fillFileResponse
    (servable : Servable fs documentRoot root segments content)
    (response : Response) {process : Process}
    (granted : process.allocs = []) :
    ∃ filled later, CinderHTTP.fillFileResponse fs response
        (renderPath (root ++ segments)) process =
          ((.ok (), filled), later) ∧
      PresentsFile (root ++ segments) content filled := by
  have kept : (httpResponseDestroy response process).2.allocs = [] :=
    (httpResponseDestroy_allocs _ _).trans granted
  have other : headerNameEqual (ascii "Content-Type")
      (ascii "Content-Length") = false := by decide
  unfold CinderHTTP.fillFileResponse
  simp only [httpResponseAddHeader_granted _ _ _ kept, Process.openRead,
    servable.opened, servable.attachDescriptor]
  refine ⟨_, _, rfl, rfl, rfl, rfl, List.take_length, ?_⟩
  apply responseFields_contentLength
  intro field member
  rw [List.mem_singleton.mp member]
  exact other

theorem staticFilesServe
    (servable : Servable fs documentRoot root segments content)
    (below : root ≠ []) {request : Request} {target : Bytes}
    (targeted : request.target = some target)
    (denotes : Denotes target segments) (response : Response)
    {process : Process} (granted : process.allocs = []) :
    ∃ filled later, CinderHTTP.staticFilesServe fs documentRoot request
        response process = ((.ok (), filled), later) ∧
      PresentsFile (root ++ segments) content filled := by
  have kept : (httpResponseDestroy response process).2.allocs = [] :=
    (httpResponseDestroy_allocs _ _).trans granted
  obtain ⟨filled, later, filling, presents⟩ := servable.fillFileResponse
    (httpResponseDestroy response process).1 kept
  refine ⟨filled, later, ?_, presents⟩
  unfold CinderHTTP.staticFilesServe
  simp only [targeted, servable.findFile below denotes kept, filling]

end Servable

/-- With the root directory as document root no file is served. -/
theorem not_staticFilesServe_slash {fs : FileSystem}
    {object : List Bytes → Option Object} (lawful : fs.Lawful object)
    {documentRoot : Bytes}
    (slashRoot : fs.realpath documentRoot = .ok (renderPath []))
    {request : Request} {response filled : Response}
    {process later : Process} :
    staticFilesServe fs documentRoot request response process ≠
      ((.ok (), filled), later) := by
  intro success
  obtain ⟨root, resolved, rootCanonical, _, descriptor, _, held, _, _, _,
    _, proper⟩ := staticFilesServe_below lawful success
  rw [slashRoot, Except.ok.injEq] at resolved
  have top : root = [] := (renderPath_injective (by simp [CanonicalPath])
    rootCanonical resolved).symm
  subst top
  obtain ⟨_, found, _, _, finding, filling⟩ := staticFilesServe_ok success
  obtain ⟨rootText, joined, _, rootResolved, _, _, resolving, within⟩ :=
    findFile_ok finding
  obtain ⟨opened, _, _, sameFd, opening, _⟩ := fillFileResponse_ok filling
  obtain ⟨path, canonical, _, text⟩ := lawful.realpath _ _ resolving
  rw [slashRoot, Except.ok.injEq] at rootResolved
  rw [text] at opening within
  rw [held, Option.some.injEq] at sameFd
  subst sameFd
  rw [(lawful.openRead path canonical _ opening).1] at proper
  rw [← rootResolved, not_pathIsWithinRoot_slash canonical
    (Ne.symm proper)] at within
  cases within

/-- Static serving is complete under every document root but the root
directory: each file is served at each spelling of its path, with or without
a query. -/
theorem staticFilesServe_complete_iff (fs : FileSystem)
    (object : List Bytes → Option Object) (lawful : fs.Lawful object)
    (documentRoot : Bytes) (root segments : List Bytes) (content : Bytes)
    (servable : Servable fs documentRoot root segments content)
    (encoded query : Bytes)
    (encoding : PercentEncoding encoded (joinSegments segments))
    (clean : question ∉ encoded ∧ hash ∉ encoded)
    (boundary : AtBoundary question query) (request : Request)
    (targeted : request.target = some (slash :: encoded ++ query))
    (response : Response) (process : Process)
    (granted : process.allocs = []) :
    (∃ filled later, staticFilesServe fs documentRoot request response
        process = ((.ok (), filled), later) ∧
      PresentsFile (root ++ segments) content filled) ↔ root ≠ [] := by
  constructor
  · rintro ⟨filled, later, success, _⟩ rfl
    exact not_staticFilesServe_slash lawful servable.rootResolved success
  · intro below
    exact servable.staticFilesServe below targeted
      (denotes_spelling servable.canonical servable.nonempty encoding clean
        boundary) response granted

theorem samplePage_servable :
    Servable (flatFileSystem samplePage) (ascii "/srv") [ascii "srv"]
      [ascii "a.txt"] (ascii "hi") := by
  constructor
  case rootDirectory => exact ⟨⟨.directory, 0⟩, by decide +kernel, rfl⟩
  case canonical =>
    intro component member
    rw [List.mem_singleton.mp member]
    constructor <;> decide
  all_goals decide +kernel

theorem aPage_encoding : PercentEncoding (ascii "a%2etxt")
    (joinSegments [ascii "a.txt"]) :=
  decodeEscapes_percentEncoding (by decide +kernel)

theorem staticFilesServe_complete_iff_page :
    (∃ filled later, staticFilesServe (flatFileSystem samplePage)
        (ascii "/srv") { notFoundRequest with
          target := some (slash :: ascii "a%2etxt" ++ ascii "?q") }
        httpResponseInit {} = ((.ok (), filled), later) ∧
      PresentsFile ([ascii "srv"] ++ [ascii "a.txt"]) (ascii "hi") filled) ↔
        [ascii "srv"] ≠ [] :=
  staticFilesServe_complete_iff (flatFileSystem samplePage)
    (flatObject samplePage) (flatFileSystem_lawful samplePage_canonical)
    (ascii "/srv") [ascii "srv"] [ascii "a.txt"] (ascii "hi")
    samplePage_servable (ascii "a%2etxt") (ascii "?q") aPage_encoding
    (by decide) (.cons question (ascii "q")) _ rfl httpResponseInit {} rfl

/-! ## The root directory -/

/-- Two leading slashes resolve like one. -/
def slashedFileSystem (entries : List (List Bytes × Object)) : FileSystem :=
  { flatFileSystem entries with
    realpath := fun path =>
      (flatFileSystem entries).realpath
        (if [slash, slash] <+: path then path.drop 1 else path) }

theorem slashedFileSystem_lawful {entries : List (List Bytes × Object)}
    (canonical : ∀ entry ∈ entries, CanonicalPath entry.1) :
    (slashedFileSystem entries).Lawful (flatObject entries) := by
  have lawful := flatFileSystem_lawful canonical
  constructor
  · intro path resolved resolving
    exact lawful.realpath _ resolved resolving
  · exact lawful.stat
  · exact lawful.openRead

/-- A page directly below the root directory. -/
def topPage : List (List Bytes × Object) :=
  [([], { stat := ⟨.directory, 0⟩, content := [] }),
    ([ascii "a.txt"], { stat := ⟨.regular, 2⟩, content := ascii "hi" })]

theorem topPage_canonical : ∀ entry ∈ topPage, CanonicalPath entry.1 := by
  have page : CanonicalComponent (ascii "a.txt") := by
    constructor <;> decide
  intro entry member component inPath
  simp only [topPage, List.mem_cons, List.not_mem_nil, or_false] at member
  rcases member with rfl | rfl
  · cases inPath
  · rw [List.mem_singleton.mp inPath]
    exact page

/-- The page could be served, and is forbidden: the joined path resolves to
its canonical path, which does not continue the root at a slash. -/
theorem topPage_forbidden :
    (slashedFileSystem topPage).Lawful (flatObject topPage) ∧
      Servable (slashedFileSystem topPage) (ascii "/") [] [ascii "a.txt"]
        (ascii "hi") ∧
      (slashedFileSystem topPage).realpath (ascii "//a.txt") =
        .ok (ascii "/a.txt") ∧
      (staticFilesServe (slashedFileSystem topPage) (ascii "/")
        { notFoundRequest with target := some (ascii "/a.txt") }
        httpResponseInit {}).1.1 = .error .forbidden := by
  refine ⟨slashedFileSystem_lawful topPage_canonical, ?_,
    by decide +kernel, by decide +kernel⟩
  constructor
  case rootDirectory => exact ⟨⟨.directory, 0⟩, by decide +kernel, rfl⟩
  case canonical =>
    intro component member
    rw [List.mem_singleton.mp member]
    constructor <;> decide
  all_goals decide +kernel

end CinderHTTP
