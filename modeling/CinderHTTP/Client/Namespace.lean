import CinderHTTP.Client.Handler
import CinderHTTP.Router.Answers
import CinderHTTP.Static.Confinement
import CinderHTTP.Static.Lexical

/-!
# The reserved namespace

Two parts of the program read a request target.  The router compares its raw
bytes, the static file server decodes and normalizes it first.  A path of the
reserved namespace is kept from the static files exactly when its first
segment is spelled literally at the front of the target.
-/

namespace CinderHTTP

/-! ## The router's reading -/

theorem pathEquals_iff {path : Bytes} (clean : question ∉ path)
    (target : Bytes) :
    pathEquals target path = true ↔
      ∃ tail, target = path ++ tail ∧ AtBoundary question tail := by
  rw [pathEquals_eq_decide, decide_eq_true_iff]
  exact takeWhile_eq_iff_boundary clean

theorem startsWith_iff {text : Bytes} (clean : question ∉ text)
    (target : Bytes) :
    startsWith target text = true ↔ text <+: target := by
  fun_induction startsWith target text with
  | case1 => simp
  | case2 => simp
  | case3 character target expected text stopped =>
      rw [List.cons_prefix_cons]
      constructor
      · intro starts
        simp at starts
      · rintro ⟨rfl, -⟩
        rcases stopped with mark | different
        · exact absurd (mark ▸ List.mem_cons_self) clean
        · exact absurd rfl different
  | case4 character target expected text going induction =>
      rw [not_or, not_not] at going
      rw [induction (fun member => clean (List.mem_cons_of_mem _ member)),
        List.cons_prefix_cons, going.2]
      simp

/-- The target begins with the bytes `/api`, and the segment ends there: at
the end of the target, at a slash or at the query. -/
def LiteralApi (target : Bytes) : Prop :=
  ∃ tail, target = ascii "/api" ++ tail ∧
    (AtBoundary slash tail ∨ AtBoundary question tail)

theorem pathHasApiPrefix_iff (target : Bytes) :
    pathHasApiPrefix (some target) = true ↔ LiteralApi target := by
  have clean : question ∉ ascii "/api" := by decide
  have cleanSlash : question ∉ ascii "/api/" := by decide
  have slashed : ascii "/api/" = ascii "/api" ++ [slash] := by decide
  unfold pathHasApiPrefix LiteralApi
  simp only [Bool.if_true_left, Bool.or_eq_true, decide_eq_true_eq]
  rw [pathEquals_iff clean, startsWith_iff cleanSlash, slashed]
  constructor
  · rintro (⟨tail, same, boundary⟩ | ⟨rest, same⟩)
    · exact ⟨tail, same, .inr boundary⟩
    · refine ⟨slash :: rest, ?_, .inl (.cons slash rest)⟩
      rw [← same, List.append_assoc, List.singleton_append]
  · rintro ⟨tail, same, ended | boundary⟩
    · rcases ended with rfl | headed
      · exact .inl ⟨[], same, .nil question⟩
      · obtain ⟨rest, rfl⟩ := List.head?_eq_some_iff.mp headed
        refine .inr ⟨rest, ?_⟩
        rw [same, List.append_assoc, List.singleton_append]
    · exact .inl ⟨tail, same, boundary⟩

/-! ## The static files' reading -/

/-- A relative path in the namespace. -/
def InApiNamespace (relative : Bytes) : Prop :=
  relative = ascii "api" ∨ ascii "api/" <+: relative

/-- The target is some spelling of a path in the namespace.  Up to its query
or fragment it is a percent-encoding of a path, and among the segments of
that path there is an `api` such that the segments before it cancel out and
the ones behind it do not reach back to it. -/
def SpellsApi (target : Bytes) : Prop :=
  ∃ path suffix decoded lead rest,
    target = slash :: path ++ suffix ∧
    (question ∉ path ∧ hash ∉ path) ∧
    (AtBoundary question suffix ∨ AtBoundary hash suffix) ∧
    PercentEncoding path decoded ∧
    decoded.splitOn slash = lead ++ ascii "api" :: rest ∧
    Balanced segmentMove lead ∧ StaysAbove segmentMove rest

theorem spellsApi_iff (target : Bytes) :
    SpellsApi target ↔ ∃ above, Denotes target (ascii "api" :: above) := by
  have pushes : segmentMove (ascii "api") = .push := by decide
  constructor
  · rintro ⟨path, suffix, decoded, lead, rest, rfl, clean, boundary,
      encoding, split, balanced, above⟩
    obtain ⟨segments, behind⟩ := (staysAbove_iff rest).mp above
    refine ⟨segments, slash :: path, decoded,
      (pathPortion_ok_iff _ path).mpr ⟨suffix, rfl, clean, boundary⟩,
      .literal (by decide) encoding, ?_⟩
    exact (cancel_bottom_iff _ _ _).mpr
      ⟨lead, rest, split, pushes, (balanced_iff lead).mp balanced, behind⟩
  · rintro ⟨above, path, decoded, portion, encoding, normal⟩
    obtain ⟨lead, rest, split, -, levelled, behind⟩ :=
      (cancel_bottom_iff _ _ _).mp normal
    cases target with
    | nil => simp [pathPortion] at portion
    | cons first target =>
        have leading : first = slash := by
          by_contra different
          simp [pathPortion, different] at portion
        subst leading
        have found := portion
        rw [pathPortion_slash, Except.ok.injEq] at found
        subst found
        obtain ⟨suffix, parts, clean, boundary⟩ :=
          (pathPortion_ok_iff _ _).mp portion
        exact ⟨_, suffix, decoded, lead, rest, congrArg (slash :: ·) parts,
          clean, boundary, encoding.of_literal (by decide), split,
          (balanced_iff lead).mpr levelled,
          (staysAbove_iff rest).mpr ⟨above, behind⟩⟩

theorem joinSegments_cons (first : Bytes) (others : List Bytes) :
    ∃ tail, joinSegments (first :: others) = first ++ tail ∧
      AtBoundary slash tail := by
  cases others with
  | nil => exact ⟨[], (List.append_nil first).symm, .nil slash⟩
  | cons next others => exact ⟨_, rfl, .cons slash _⟩

theorem inApiNamespace_iff (relative : Bytes) :
    InApiNamespace relative ↔
      ∃ tail, relative = ascii "api" ++ tail ∧ AtBoundary slash tail := by
  have slashed : ascii "api/" = ascii "api" ++ [slash] := by decide
  unfold InApiNamespace
  constructor
  · rintro (rfl | ⟨rest, rfl⟩)
    · exact ⟨[], (List.append_nil _).symm, .nil slash⟩
    · refine ⟨slash :: rest, ?_, .cons slash rest⟩
      rw [slashed, List.append_assoc, List.singleton_append]
  · rintro ⟨tail, rfl, rfl | headed⟩
    · exact .inl (List.append_nil _)
    · obtain ⟨rest, rfl⟩ := List.head?_eq_some_iff.mp headed
      refine .inr ⟨rest, ?_⟩
      rw [slashed, List.append_assoc, List.singleton_append]

/-- The first segment decides about the namespace. -/
theorem inApiNamespace_joinSegments {segments : List Bytes}
    (clean : ∀ segment ∈ segments, slash ∉ segment ∧ segment ≠ []) :
    InApiNamespace (joinSegments segments) ↔
      ∃ above, segments = ascii "api" :: above := by
  rw [inApiNamespace_iff]
  cases segments with
  | nil => simp [joinSegments, ascii]
  | cons first others =>
      obtain ⟨tail, joined, boundary⟩ := joinSegments_cons first others
      rw [joined]
      constructor
      · rintro ⟨rest, same, ended⟩
        have equal := append_inj_of_boundary (clean first (by simp)).1
          (by decide) boundary ended same
        exact ⟨others, by rw [equal.1]⟩
      · rintro ⟨above, same⟩
        rw [List.cons.injEq] at same
        exact ⟨tail, by rw [same.1], boundary⟩

/-! ## Agreement -/

/-- Whenever the static files find a path of the namespace in a target, the
router claims the target. -/
def ReservedForRouter (target : Bytes) : Prop :=
  ∀ process relative later,
    relativePath target process = (.ok relative, later) →
    InApiNamespace relative →
    ∀ request : Request, request.target = some target →
      routerIsApiRequest request = true

/-- The two readings agree on a target exactly when it begins literally with
the reserved segment or is no spelling of a reserved path at all. -/
theorem reservedForRouter_iff (target : Bytes) :
    ReservedForRouter target ↔ LiteralApi target ∨ ¬ SpellsApi target := by
  constructor
  · intro reserved
    by_cases spells : SpellsApi target
    · obtain ⟨above, denotes⟩ := (spellsApi_iff target).mp spells
      have found : relativePath target {} = (.ok _, {}) :=
        relativePath_granted denotes rfl
      obtain ⟨_, _, _, _, normal⟩ := denotes
      have inside := (inApiNamespace_joinSegments
        (normalSegments_clean normal)).mpr ⟨above, rfl⟩
      left
      apply (pathHasApiPrefix_iff target).mp
      exact reserved {} _ {} found inside
        { httpRequestInit with target := some target } rfl
    · exact .inr spells
  · intro condition process relative later found inside request targeted
    rw [routerIsApiRequest, targeted, pathHasApiPrefix_iff]
    rcases condition with literal | foreign
    · exact literal
    · exfalso
      apply foreign
      obtain ⟨segments, denotes, rfl⟩ := relativePath_ok found
      obtain ⟨_, _, _, _, normal⟩ := id denotes
      obtain ⟨above, rfl⟩ := (inApiNamespace_joinSegments
        (normalSegments_clean normal)).mp inside
      exact (spellsApi_iff target).mpr ⟨above, denotes⟩

/-- A document root with a file below a directory of the reserved name. -/
def shadowedPage : List (List Bytes × Object) :=
  [([ascii "srv"], { stat := ⟨.directory, 0⟩, content := [] }),
    ([ascii "srv", ascii "api", ascii "health"],
      { stat := ⟨.regular, 2⟩, content := ascii "hi" })]

def shadowedConfig : ServerConfig :=
  { documentRoot := ascii "/srv"
    keepAliveTimeoutSec := 5
    requestTimeoutSec := 10 }

def doubleSlashRequest : Request :=
  { notFoundRequest with target := some (ascii "//api/health") }

theorem doubleSlash_relativePath :
    (relativePath (ascii "//api/health") {}).1 =
      .ok (ascii "api/health") := by
  decide +kernel

/-- With a second slash in front the router does not see the namespace, and
the request is answered from the file. -/
theorem doubleSlash_static :
    ¬ ReservedForRouter (ascii "//api/health") ∧
      doubleSlashRequest.target = some (ascii "//api/health") ∧
      routerIsApiRequest doubleSlashRequest = false ∧
      (chooseResponse shadowedConfig (flatFileSystem shadowedPage)
        ⟨0, 0, 0, 0, 0, 0⟩ doubleSlashRequest {}).1.status = 200 ∧
      (chooseResponse shadowedConfig (flatFileSystem shadowedPage)
        ⟨0, 0, 0, 0, 0, 0⟩ doubleSlashRequest {}).1.response.bodyKind =
          .file := by
  refine ⟨?_, rfl, by decide, by decide +kernel, by decide +kernel⟩
  intro reserved
  have found := doubleSlash_relativePath
  rcases lexical : relativePath (ascii "//api/health") {} with
    ⟨relative, later⟩
  rw [lexical] at found
  simp only at found
  subst found
  have claimed := reserved {} _ later lexical
    (.inr ⟨ascii "health", by decide⟩) doubleSlashRequest rfl
  revert claimed
  decide

end CinderHTTP
