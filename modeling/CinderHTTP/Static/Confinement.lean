import CinderHTTP.Static.Serve

/-!
# Confinement to the document root

Whatever the target, the file attached to a response lies strictly below the
canonical document root.  The textual check of `path_is_within_root` compares
canonical paths at a component boundary, and every path that is opened has
passed it.
-/

namespace CinderHTTP

/-! ## The boundary check -/

theorem renderTail_cons (component : Bytes) (components : List Bytes) :
    renderTail (component :: components) =
      slash :: component ++ renderTail components := rfl

theorem renderTail_boundary (components : List Bytes) :
    AtBoundary slash (renderTail components) := by
  cases components with
  | nil => exact .nil slash
  | cons component components => exact .cons slash _

/-- A canonical text that continues another one at a slash has its
components in front. -/
theorem components_isPrefix {root path : List Bytes} {rest : Bytes}
    (rootCanonical : CanonicalPath root) (pathCanonical : CanonicalPath path)
    (boundary : AtBoundary slash rest)
    (text : renderTail path = renderTail root ++ rest) : root <+: path := by
  induction root generalizing path with
  | nil => exact List.nil_prefix
  | cons first root induction =>
      cases path with
      | nil => simp [renderTail] at text
      | cons component path =>
          have behind : AtBoundary slash (renderTail root ++ rest) := by
            cases root with
            | nil => exact boundary
            | cons next root => exact .cons slash _
          have texts : component ++ renderTail path =
              first ++ (renderTail root ++ rest) := by
            simpa [renderTail_cons] using text
          obtain ⟨same, tails⟩ := append_inj_of_boundary
            (pathCanonical component (by simp)).noSlash
            (rootCanonical first (by simp)).noSlash
            (renderTail_boundary path) behind texts
          subst same
          refine List.cons_prefix_cons.mpr ⟨rfl, ?_⟩
          apply induction
          · intro other member
            exact rootCanonical other (List.mem_cons_of_mem _ member)
          · intro other member
            exact pathCanonical other (List.mem_cons_of_mem _ member)
          · exact tails

theorem pathIsWithinRoot_split {path root : Bytes}
    (within : pathIsWithinRoot path root = true) :
    ∃ rest, path = root ++ rest ∧ AtBoundary slash rest := by
  unfold pathIsWithinRoot at within
  split_ifs at within with short different same
  · refine ⟨[], ?_, .nil slash⟩
    rw [not_not] at different
    rw [List.append_nil, ← different, ← same, List.take_length]
  · refine ⟨path.drop root.length, ?_, .inr (by simpa using within)⟩
    rw [not_not] at different
    nth_rewrite 1 [← List.take_append_drop root.length path]
    rw [different]

theorem pathIsWithinRoot_components {root path : List Bytes}
    (rootCanonical : CanonicalPath root) (pathCanonical : CanonicalPath path)
    (within : pathIsWithinRoot (renderPath path) (renderPath root) = true) :
    root <+: path := by
  obtain ⟨rest, text, boundary⟩ := pathIsWithinRoot_split within
  cases root with
  | nil => exact List.nil_prefix
  | cons first root =>
      have nonempty : path ≠ [] := by
        rintro rfl
        apply (rootCanonical first (by simp)).nonempty
        simp only [renderPath, if_true, reduceCtorEq, if_false,
          renderTail_cons, List.cons_append, List.cons.injEq, true_and,
          List.append_assoc] at text
        exact (List.append_eq_nil_iff.mp text.symm).1
      rw [renderPath, renderPath, if_neg nonempty, if_neg (by simp)] at text
      exact components_isPrefix rootCanonical pathCanonical boundary text

/-! ## Opened files -/

theorem locateUnderRoot_ok {fs : FileSystem} {root relative : Bytes}
    {resolved : Resolved}
    (located : locateUnderRoot fs root relative = .ok resolved) :
    ∃ joined, fs.realpath joined = .ok resolved.path ∧
      pathIsWithinRoot resolved.path root = true := by
  unfold locateUnderRoot at located
  cases joining : joinRootRelative root relative with
  | error failure => simp [joining] at located
  | ok joined =>
      simp only [joining] at located
      cases resolving : fs.realpath joined with
      | error errno => cases errno <;> simp [resolving] at located
      | ok path =>
          simp only [resolving] at located
          split at located
          · simp at located
          rename_i within
          cases looking : fs.stat path with
          | error errno => cases errno <;> simp [looking] at located
          | ok stat =>
              simp only [looking] at located
              rcases checked : checkStat stat with failure | ⟨size, isDir⟩
              · simp [checked] at located
              · simp only [checked, Except.ok.injEq] at located
                subst located
                exact ⟨joined, resolving, by simpa using within⟩

theorem resolveUnderRoot_ok {fs : FileSystem} {root relative : Bytes}
    {process later : Process} {resolved : Resolved}
    (success : resolveUnderRoot fs root relative process =
      (.ok resolved, later)) :
    ∃ joined, fs.realpath joined = .ok resolved.path ∧
      pathIsWithinRoot resolved.path root = true := by
  unfold resolveUnderRoot at success
  cases located : locateUnderRoot fs root relative with
  | error failure => simp [located] at success
  | ok found =>
      simp only [located] at success
      split_ifs at success
      all_goals simp only [Prod.mk.injEq, Except.ok.injEq, reduceCtorEq,
        false_and] at success
      rw [← success.1]
      exact locateUnderRoot_ok located

theorem tryIndex_ok {fs : FileSystem} {root relative : Bytes}
    {process later : Process} {resolved : Resolved}
    (success : tryIndex fs root relative process = (.ok resolved, later)) :
    ∃ joined, fs.realpath joined = .ok resolved.path ∧
      pathIsWithinRoot resolved.path root = true := by
  unfold tryIndex at success
  split at success
  · simp at success
  rename_i indexRelative _
  rcases found : resolveUnderRoot fs root indexRelative process with
    ⟨failure | index, between⟩
  · simp [found] at success
  · simp only [found] at success
    split_ifs at success
    all_goals simp only [Prod.mk.injEq, Except.ok.injEq, reduceCtorEq,
      false_and] at success
    rw [← success.1]
    exact resolveUnderRoot_ok found

/-- Every path to `open` passes the boundary check. -/
theorem resolveTarget_ok {fs : FileSystem} {root relative : Bytes}
    {process later : Process} {resolved : Resolved}
    (success : resolveTarget fs root relative process =
      (.ok resolved, later)) :
    ∃ joined, fs.realpath joined = .ok resolved.path ∧
      pathIsWithinRoot resolved.path root = true := by
  unfold resolveTarget at success
  rcases found : resolveUnderRoot fs root relative process with
    ⟨failure | direct, between⟩
  · simp [found] at success
  simp only [found] at success
  split_ifs at success with directory
  · rcases indexed : tryIndex fs root relative between with
      ⟨failure | index, afterIndex⟩
    · cases failure <;> simp [indexed] at success
    · simp only [indexed, Prod.mk.injEq, Except.ok.injEq] at success
      rw [← success.1]
      exact tryIndex_ok indexed
  · simp only [Prod.mk.injEq, Except.ok.injEq] at success
    rw [← success.1]
    exact resolveUnderRoot_ok found

/-- The body of a response is a regular file of at most 64 MiB strictly
below a directory. -/
def ServesBelow (root : List Bytes) (response : Response) : Prop :=
  response.bodyKind = .file ∧
    ∃ descriptor stat, response.fileFd = some descriptor ∧
      descriptor.file.fstat = .ok stat ∧ stat.kind = .regular ∧
      stat.size ≤ 64 * 1024 * 1024 ∧
      root <+: descriptor.file.path ∧ root ≠ descriptor.file.path

theorem attachDescriptor_ok {descriptor : Descriptor}
    {response filled : Response} {process later : Process}
    (success : attachDescriptor descriptor response process =
      ((.ok (), filled), later)) :
    filled.bodyKind = .file ∧ filled.fileFd = some descriptor ∧
      ∃ stat, descriptor.file.fstat = .ok stat ∧ stat.kind = .regular ∧
        stat.size ≤ httpMaxStaticFileSize := by
  unfold attachDescriptor at success
  cases looked : descriptor.file.fstat with
  | error errno => simp [looked] at success
  | ok stat =>
      simp only [looked] at success
      split_ifs at success with irregular negative large huge
      all_goals try simp only [Prod.mk.injEq, reduceCtorEq, false_and] at success
      unfold httpResponseSetFileBody at success
      rw [if_neg negative, if_neg huge] at success
      simp only [Prod.mk.injEq, true_and] at success
      rw [← success.1]
      exact ⟨rfl, rfl, stat, rfl, not_not.mp irregular, by omega⟩

theorem fillFileResponse_ok {fs : FileSystem} {response filled : Response}
    {path : Bytes} {process later : Process}
    (success : fillFileResponse fs response path process =
      ((.ok (), filled), later)) :
    ∃ descriptor stat, filled.bodyKind = .file ∧
      filled.fileFd = some descriptor ∧
      fs.openRead path = .ok descriptor.file ∧
      descriptor.file.fstat = .ok stat ∧ stat.kind = .regular ∧
      stat.size ≤ httpMaxStaticFileSize := by
  unfold fillFileResponse at success
  simp only at success
  split at success
  · simp at success
  rename_i typed between _
  cases opening : fs.openRead path with
  | error errno => simp [Process.openRead, opening] at success
  | ok file =>
      simp only [Process.openRead, opening] at success
      obtain ⟨kind, held, stat, looked, regular, small⟩ :=
        attachDescriptor_ok success
      exact ⟨_, stat, kind, held, rfl, looked, regular, small⟩

theorem canonicalDocumentRoot_some {fs : FileSystem} {documentRoot root : Bytes}
    (found : canonicalDocumentRoot fs documentRoot = some root) :
    fs.realpath documentRoot = .ok root ∧
      ∃ stat, fs.stat root = .ok stat ∧ stat.kind = .directory := by
  unfold canonicalDocumentRoot at found
  cases resolving : fs.realpath documentRoot with
  | error errno => simp [resolving] at found
  | ok path =>
      cases looking : fs.stat path with
      | error errno => simp [resolving, looking] at found
      | ok stat =>
          simp only [resolving, looking] at found
          split_ifs at found with directory
          cases found
          exact ⟨rfl, stat, looking, directory⟩

theorem findFile_ok {fs : FileSystem} {documentRoot target : Bytes}
    {process later : Process} {resolved : Resolved}
    (success : findFile fs documentRoot target process =
      (.ok resolved, later)) :
    ∃ root joined stat, fs.realpath documentRoot = .ok root ∧
      fs.stat root = .ok stat ∧ stat.kind = .directory ∧
      fs.realpath joined = .ok resolved.path ∧
      pathIsWithinRoot resolved.path root = true := by
  unfold findFile at success
  rcases lexical : relativePath target process with
    ⟨failure | relative, between⟩
  · simp [lexical] at success
  simp only [lexical] at success
  cases canonical : canonicalDocumentRoot fs documentRoot with
  | none => simp [canonical] at success
  | some root =>
      simp only [canonical] at success
      obtain ⟨resolving, stat, looking, directory⟩ :=
        canonicalDocumentRoot_some canonical
      obtain ⟨joined, within⟩ := resolveTarget_ok success
      exact ⟨root, joined, stat, resolving, looking, directory, within⟩

/-- Under the documented behaviour of the file system a served file lies
strictly below the canonical root. -/
theorem staticFilesServe_below {fs : FileSystem}
    {object : List Bytes → Option Object} (lawful : fs.Lawful object)
    {documentRoot : Bytes} {request : Request} {response filled : Response}
    {process later : Process}
    (success : staticFilesServe fs documentRoot request response process =
      ((.ok (), filled), later)) :
    ∃ root, fs.realpath documentRoot = .ok (renderPath root) ∧
      CanonicalPath root ∧ ServesBelow root filled := by
  obtain ⟨_, resolved, _, _, found, filling⟩ := staticFilesServe_ok success
  obtain ⟨rootText, joined, rootStat, rootResolved, rootLooked,
    directory, resolving, within⟩ := findFile_ok found
  obtain ⟨descriptor, stat, kind, held, opening, looked, regular,
    small⟩ := fillFileResponse_ok filling
  obtain ⟨root, rootCanonical, _, rfl⟩ := lawful.realpath _ _ rootResolved
  obtain ⟨path, pathCanonical, _, pathText⟩ := lawful.realpath _ _ resolving
  rw [pathText] at opening within
  obtain ⟨samePath, _, sameStat⟩ :=
    lawful.openRead path pathCanonical _ opening
  refine ⟨root, rootResolved, rootCanonical, kind, descriptor, stat,
    held, looked, regular, small, ?_, ?_⟩
  · rw [samePath]
    exact pathIsWithinRoot_components rootCanonical pathCanonical within
  · -- the root is a directory, so it is not the file that was opened
    intro same
    rw [samePath] at same
    have fileStat := sameStat stat looked
    rw [← same, lawful.stat root rootCanonical rootStat rootLooked,
      Option.some.injEq] at fileStat
    rw [fileStat, regular] at directory
    cases directory

/-! ## Error pages -/

theorem staticFilesBuildError_bodyKind (statusCode : Int) (heading : Bytes)
    (fits : (errorPage statusCode heading).length < errorPageSize)
    (response : Response) (process : Process) :
    (staticFilesBuildError response statusCode heading
      process).1.2.bodyKind ≠ .file := by
  rw [staticFilesBuildError, if_neg (by omega)]
  rcases buildWithType_cases (ascii "text/html; charset=utf-8") response
    statusCode (errorPage statusCode heading) process with
      built | ⟨_, plain⟩
  · rw [built]
    simp [typedText]
  · exact plain

/-- Both functions that attach files keep to the document root: a served
file, and a custom error page, is a regular file of at most 64 MiB whose
canonical path has the components of the canonical root as a proper prefix. -/
theorem staticFiles_confined (fs : FileSystem)
    (object : List Bytes → Option Object) (lawful : fs.Lawful object)
    (documentRoot : Bytes) :
    (∀ request response process filled later,
      staticFilesServe fs documentRoot request response process =
        ((.ok (), filled), later) →
      ∃ root, fs.realpath documentRoot = .ok (renderPath root) ∧
        CanonicalPath root ∧ ServesBelow root filled) ∧
    (∀ response process flag built later,
      staticFilesBuildNotFound fs documentRoot response process =
        ((flag, built), later) →
      built.bodyKind = .file →
      ∃ root, fs.realpath documentRoot = .ok (renderPath root) ∧
        CanonicalPath root ∧ ServesBelow root built) := by
  constructor
  · intro request response process filled later success
    exact staticFilesServe_below lawful success
  · intro response process flag built later result attached
    unfold staticFilesBuildNotFound at result
    rcases served : staticFilesServe fs documentRoot notFoundRequest
      httpResponseInit process with ⟨⟨failure | ⟨⟩, page⟩, between⟩
    · simp only [served] at result
      have plain := staticFilesBuildError_bodyKind 404 (ascii "Not Found")
        (by decide) response (httpResponseDestroy page between).2
      rw [result] at plain
      exact absurd attached plain
    · simp only [served, Prod.mk.injEq] at result
      obtain ⟨root, resolved, canonical, kind, below⟩ :=
        staticFilesServe_below lawful served
      refine ⟨root, resolved, canonical, ?_⟩
      rw [← result.1.2]
      exact ⟨kind, below⟩

/-! ## File systems without links -/

theorem renderPath_injective {left right : List Bytes}
    (leftCanonical : CanonicalPath left)
    (rightCanonical : CanonicalPath right)
    (same : renderPath left = renderPath right) : left = right := by
  have within : ∀ path : Bytes, pathIsWithinRoot path path = true := by
    intro path
    simp [pathIsWithinRoot]
  have forth : left <+: right := by
    apply pathIsWithinRoot_components leftCanonical rightCanonical
    rw [same]
    exact within _
  have back : right <+: left := by
    apply pathIsWithinRoot_components rightCanonical leftCanonical
    rw [same]
    exact within _
  exact forth.eq_of_length (Nat.le_antisymm forth.length_le back.length_le)

/-- The file system that has exactly the given objects and no links. -/
def flatFileSystem (entries : List (List Bytes × Object)) : FileSystem :=
  let find := fun (path : Bytes) =>
    entries.find? fun entry => renderPath entry.1 == path
  { realpath := fun path =>
      match find path with
      | none => .error .enoent
      | some entry => .ok (renderPath entry.1)
    stat := fun path =>
      match find path with
      | none => .error .enoent
      | some entry => .ok entry.2.stat
    openRead := fun path =>
      match find path with
      | none => .error .enoent
      | some entry =>
          .ok { path := entry.1, content := entry.2.content
                fstat := .ok entry.2.stat } }

/-- The objects of such a file system by their canonical paths. -/
def flatObject (entries : List (List Bytes × Object))
    (components : List Bytes) : Option Object :=
  (entries.find? fun entry => entry.1 == components).map Prod.snd

theorem flatFileSystem_find {entries : List (List Bytes × Object)}
    (canonical : ∀ entry ∈ entries, CanonicalPath entry.1)
    {components : List Bytes} (path : CanonicalPath components) :
    (entries.find? fun entry => renderPath entry.1 == renderPath components)
      = entries.find? fun entry => entry.1 == components := by
  induction entries with
  | nil => rfl
  | cons entry entries induction =>
      have same : (renderPath entry.1 == renderPath components) =
          (entry.1 == components) := by
        rw [Bool.eq_iff_iff, beq_iff_eq, beq_iff_eq]
        constructor
        · exact renderPath_injective (canonical entry (by simp)) path
        · intro equal
          rw [equal]
      rw [List.find?_cons, List.find?_cons, same, induction]
      intro other member
      exact canonical other (List.mem_cons_of_mem _ member)

theorem flatFileSystem_lawful {entries : List (List Bytes × Object)}
    (canonical : ∀ entry ∈ entries, CanonicalPath entry.1) :
    (flatFileSystem entries).Lawful (flatObject entries) := by
  constructor
  · intro path resolved resolving
    unfold flatFileSystem at resolving
    simp only at resolving
    split at resolving
    · simp at resolving
    · rename_i entry found
      have member := List.mem_of_find?_eq_some found
      refine ⟨entry.1, canonical entry member, ?_, ?_⟩
      · simp only [flatObject, Option.isSome_map, List.find?_isSome]
        exact ⟨entry, member, by simp⟩
      · simpa using resolving.symm
  · intro components path found looking
    unfold flatFileSystem at looking
    simp only [flatFileSystem_find canonical path] at looking
    unfold flatObject
    split at looking
    · simp at looking
    · rename_i entry located
      rw [located]
      simpa using looking
  · intro components path file opening
    unfold flatFileSystem at opening
    simp only [flatFileSystem_find canonical path] at opening
    unfold flatObject
    split at opening
    · simp at opening
    · rename_i entry located
      simp only [Except.ok.injEq] at opening
      subst opening
      rw [located]
      have named := List.find?_some located
      exact ⟨by simpa using named, rfl, by
        intro found looking
        simpa using looking⟩

/-- A document root with one page. -/
def samplePage : List (List Bytes × Object) :=
  [([ascii "srv"], { stat := ⟨.directory, 0⟩, content := [] }),
    ([ascii "srv", ascii "a.txt"],
      { stat := ⟨.regular, 2⟩, content := ascii "hi" })]

theorem samplePage_canonical :
    ∀ entry ∈ samplePage, CanonicalPath entry.1 := by
  have srv : CanonicalComponent (ascii "srv") := by
    constructor <;> decide
  have page : CanonicalComponent (ascii "a.txt") := by
    constructor <;> decide
  intro entry member component inPath
  simp only [samplePage, List.mem_cons, List.not_mem_nil,
    or_false] at member
  rcases member with rfl | rfl
  · simp only [List.mem_cons, List.not_mem_nil, or_false] at inPath
    rw [inPath]
    exact srv
  · simp only [List.mem_cons, List.not_mem_nil, or_false] at inPath
    rcases inPath with rfl | rfl
    · exact srv
    · exact page

/-- The page under an unusual spelling of its path. -/
def sampleRequest : Request :=
  { notFoundRequest with target := some (ascii "/x/../a%2etxt?q") }

theorem sampleRequest_served :
    (staticFilesServe (flatFileSystem samplePage) (ascii "/srv")
      sampleRequest httpResponseInit {}).1.1 = .ok () := by
  decide +kernel

theorem staticFiles_confined_page :
    ∃ filled later, staticFilesServe (flatFileSystem samplePage)
        (ascii "/srv") sampleRequest httpResponseInit {} =
          ((.ok (), filled), later) ∧
      ∃ root, (flatFileSystem samplePage).realpath (ascii "/srv") =
          .ok (renderPath root) ∧
        CanonicalPath root ∧ ServesBelow root filled := by
  have success := sampleRequest_served
  rcases served : staticFilesServe (flatFileSystem samplePage)
    (ascii "/srv") sampleRequest httpResponseInit {} with
      ⟨⟨result, filled⟩, later⟩
  rw [served] at success
  simp only at success
  subst success
  exact ⟨filled, later, rfl,
    (staticFiles_confined (flatFileSystem samplePage)
      (flatObject samplePage) (flatFileSystem_lawful samplePage_canonical)
      (ascii "/srv")).1 sampleRequest httpResponseInit {} filled later
        served⟩

end CinderHTTP
