import CinderHTTP.Base.Custody
import CinderHTTP.Base.Transition
import CinderHTTP.Static.Serve

/-!
# Ownership of response bodies

A response owns the descriptor of its file body.  Any sequence of the
operations of `http_response.c`, the move of a whole response into another
included, keeps the body fields consistent and closes each descriptor that a
response took over exactly once, when the response no longer holds it.
-/

namespace CinderHTTP

/-- The descriptor that would be closed with the body. -/
def Response.held (response : Response) : List Descriptor :=
  match response.bodyKind with
  | .file => response.fileFd.toList
  | _ => []

/-- The body fields agree with the kind of the body. -/
structure Response.Consistent (response : Response) : Prop where
  noBody : response.bodyKind = .none →
    response.body = none ∧ response.bodyLength = 0 ∧ response.fileFd = none
  memoryBody : response.bodyKind = .memory → response.fileFd = none
  fileBody : response.bodyKind = .file →
    response.fileFd.isSome = true ∧ response.body = none

/-! ## Operations -/

/-- One call on a response.  A descriptor is missing when the argument is
negative. -/
inductive ResponseOp where
  | setStatus (statusCode : Int)
  | addHeader (name value : Bytes)
  | removeHeader (name : Bytes)
  | setHeader (name value : Bytes)
  | setBodyOwned (body : Option Bytes) (length : Nat)
  | setBodyText (text : Option Bytes)
  | setBodyCopy (body : Option Bytes) (length : Nat)
  | setFileBody (fd : Option Descriptor) (size : Int)
  | buildText (statusCode : Int) (text : Option Bytes)
  | buildJson (statusCode : Int) (text : Option Bytes)
  | destroy

namespace ResponseOp

def run (op : ResponseOp) (response : Response) (process : Process) :
    (Bool × Response) × Process :=
  match op with
  | .setStatus statusCode =>
      ((true, httpResponseSetStatus response statusCode), process)
  | .addHeader name value => httpResponseAddHeader response name value process
  | .removeHeader name =>
      ((true, (httpResponseRemoveHeader response name).2), process)
  | .setHeader name value => httpResponseSetHeader response name value process
  | .setBodyOwned body length =>
      httpResponseSetBodyOwned response body length process
  | .setBodyText text => httpResponseSetBodyText response text process
  | .setBodyCopy body length =>
      httpResponseSetBodyCopy response body length process
  | .setFileBody fd size =>
      match fd with
      | none => ((false, response), process)
      | some descriptor =>
          httpResponseSetFileBody response descriptor size process
  | .buildText statusCode text =>
      httpResponseBuildText response statusCode text process
  | .buildJson statusCode text =>
      httpResponseBuildJson response statusCode text process
  | .destroy =>
      let destroyed := httpResponseDestroy response process
      ((true, destroyed.1), destroyed.2)

/-- The descriptor that is offered to the response. -/
def offers : ResponseOp → List Descriptor
  | .setFileBody fd _ => fd.toList
  | _ => []

/-- The operations that leave the response as it was when they fail. -/
def atomic : ResponseOp → Bool
  | .setBodyText _ => true
  | .setBodyCopy _ _ => true
  | .setFileBody _ _ => true
  | _ => false

end ResponseOp

/-! ## What an operation does to the body -/

/-- The body is kept, or it is replaced and what it held is closed.  The last
argument is what the response takes over. -/
inductive BodyChange (before : Response) (process : Process) :
    Response → Process → List Descriptor → Prop
  | kept {after : Response} {later : Process} :
      after.bodyKind = before.bodyKind → after.body = before.body →
      after.bodyLength = before.bodyLength → after.fileFd = before.fileFd →
      later.closed = process.closed →
      BodyChange before process after later []
  | replaced {after : Response} {later : Process}
      {taken : List Descriptor} :
      after.Consistent → after.held = taken →
      later.closed = process.closed ++ before.held →
      BodyChange before process after later taken

theorem clearBody_closed (response : Response) (process : Process) :
    (clearBody response process).2.closed =
      process.closed ++ response.held := by
  unfold clearBody Response.held
  rcases response with ⟨_, _, _, kind, _, _, _, fd, _⟩
  cases kind with
  | none => simp
  | memory => simp
  | file =>
      cases fd with
      | none => simp
      | some descriptor => simp [Process.close]

theorem httpResponseAddHeader_closed (response : Response)
    (name value : Bytes) (process : Process) :
    (httpResponseAddHeader response name value process).2.closed =
      process.closed := by
  unfold httpResponseAddHeader
  simp only
  split_ifs
  · rfl
  · rfl
  · rfl

namespace BodyChange

variable {before after last : Response} {process later final : Process}
  {taken : List Descriptor}

theorem consistent (change : BodyChange before process after later taken)
    (start : before.Consistent) : after.Consistent := by
  cases change with
  | kept kind body length fd _ =>
      constructor
      · rw [kind, body, length, fd]
        exact start.noBody
      · rw [kind, fd]
        exact start.memoryBody
      · rw [kind, body, fd]
        exact start.fileBody
  | replaced consistent _ _ => exact consistent

/-- Nothing is lost: what was held is held or closed, and what is taken over
is held. -/
theorem conserved (change : BodyChange before process after later taken) :
    (later.closed ++ after.held).Perm
      (process.closed ++ before.held ++ taken) := by
  cases change with
  | kept kind _ _ fd closed =>
      have same : after.held = before.held := by
        rw [Response.held, Response.held, kind, fd]
      rw [closed, same, List.append_nil]
  | replaced _ held closed => rw [closed, held]

theorem closed (change : BodyChange before process after later taken) :
    later.closed = process.closed ∨
      later.closed = process.closed ++ before.held := by
  cases change with
  | kept _ _ _ _ closed => exact .inl closed
  | replaced _ _ closed => exact .inr closed

theorem trans (first : BodyChange before process after later [])
    (second : BodyChange after later last final taken) :
    BodyChange before process last final taken := by
  cases second with
  | kept kind body length fd closed =>
      cases first with
      | kept firstKind firstBody firstLength firstFd firstClosed =>
          exact .kept (kind.trans firstKind) (body.trans firstBody)
            (length.trans firstLength) (fd.trans firstFd)
            (closed.trans firstClosed)
      | replaced consistent empty firstClosed =>
          refine .replaced ?_ ?_ (closed.trans firstClosed)
          · exact BodyChange.consistent (.kept kind body length fd closed)
              consistent
          · rw [← empty, Response.held, Response.held, kind, fd]
  | replaced consistent held closed =>
      refine .replaced consistent held ?_
      cases first with
      | kept kind _ _ fd firstClosed =>
          rw [closed, firstClosed, Response.held, Response.held, kind, fd]
      | replaced _ empty firstClosed =>
          rw [closed, empty, List.append_nil, firstClosed]

end BodyChange

theorem consistent_none {response : Response}
    (kind : response.bodyKind = .none) (body : response.body = none)
    (length : response.bodyLength = 0) (fd : response.fileFd = none) :
    response.Consistent := by
  constructor
  · intro _
    exact ⟨body, length, fd⟩
  · intro _
    exact fd
  · intro file
    rw [kind] at file
    cases file

theorem consistent_memory {response : Response}
    (kind : response.bodyKind = .memory) (fd : response.fileFd = none) :
    response.Consistent := by
  constructor
  · intro none
    rw [kind] at none
    cases none
  · intro _
    exact fd
  · intro file
    rw [kind] at file
    cases file

theorem consistent_file {response : Response} {descriptor : Descriptor}
    (kind : response.bodyKind = .file) (body : response.body = none)
    (fd : response.fileFd = some descriptor) : response.Consistent := by
  constructor
  · intro none
    rw [kind] at none
    cases none
  · intro memory
    rw [kind] at memory
    cases memory
  · intro _
    exact ⟨by rw [fd, Option.isSome_some], body⟩

theorem httpResponseDestroy_change (response : Response) (process : Process) :
    BodyChange response process (httpResponseDestroy response process).1
      (httpResponseDestroy response process).2 [] :=
  .replaced (consistent_none rfl rfl rfl rfl) rfl
    (clearBody_closed response process)

theorem httpResponseAddHeader_change (response : Response)
    (name value : Bytes) (process : Process) :
    BodyChange response process
      (httpResponseAddHeader response name value process).1.2
      (httpResponseAddHeader response name value process).2 [] := by
  have closed := httpResponseAddHeader_closed response name value process
  rcases httpResponseAddHeader_cases response name value process with
    added | refused
  · rw [added]
    exact .kept rfl rfl rfl rfl closed
  · rw [refused]
    exact .kept rfl rfl rfl rfl closed

theorem httpResponseSetBodyOwned_change (response : Response)
    (body : Option Bytes) (length : Nat) (process : Process) :
    BodyChange response process
      (httpResponseSetBodyOwned response body length process).1.2
      (httpResponseSetBodyOwned response body length process).2 [] := by
  have closed := clearBody_closed response process
  unfold httpResponseSetBodyOwned
  simp only
  split_ifs
  · exact .replaced (consistent_none rfl rfl rfl rfl) rfl closed
  · exact .replaced (consistent_memory rfl rfl) rfl closed

theorem allocated_change {response : Response} {process : Process}
    {outcome : (Bool × Response) × Process}
    (change : BodyChange response process.malloc.2 outcome.1.2 outcome.2 []) :
    BodyChange response process
      (if !process.malloc.1 then ((false, response), process.malloc.2)
        else outcome).1.2
      (if !process.malloc.1 then ((false, response), process.malloc.2)
        else outcome).2 [] := by
  split_ifs
  · exact .kept rfl rfl rfl rfl rfl
  · cases change with
    | kept kind body length fd closed =>
        exact .kept kind body length fd closed
    | replaced consistent held closed =>
        exact .replaced consistent held closed

theorem httpResponseSetBodyText_change (response : Response)
    (text : Option Bytes) (process : Process) :
    BodyChange response process
      (httpResponseSetBodyText response text process).1.2
      (httpResponseSetBodyText response text process).2 [] := by
  cases text with
  | none => exact httpResponseSetBodyOwned_change response none 0 process
  | some text =>
      exact allocated_change
        (httpResponseSetBodyOwned_change response _ _ process.malloc.2)

theorem httpResponseSetBodyCopy_change (response : Response)
    (body : Option Bytes) (length : Nat) (process : Process) :
    BodyChange response process
      (httpResponseSetBodyCopy response body length process).1.2
      (httpResponseSetBodyCopy response body length process).2 [] := by
  unfold httpResponseSetBodyCopy
  split_ifs
  · exact httpResponseSetBodyOwned_change response none 0 process
  · cases body with
    | none => exact .kept rfl rfl rfl rfl rfl
    | some bytes =>
        exact allocated_change
          (httpResponseSetBodyOwned_change response _ _ process.malloc.2)

theorem buildWithType_change (contentType : Bytes) (response : Response)
    (statusCode : Int) (text : Option Bytes) (process : Process) :
    BodyChange response process
      (buildWithType contentType response statusCode text process).1.2
      (buildWithType contentType response statusCode text process).2 [] := by
  have destroyed := httpResponseDestroy_change response process
  have fresh : BodyChange (httpResponseDestroy response process).1
      (httpResponseDestroy response process).2
      (httpResponseSetStatus (httpResponseDestroy response process).1
        statusCode) (httpResponseDestroy response process).2 [] :=
    .kept rfl rfl rfl rfl rfl
  refine (destroyed.trans fresh).trans ?_
  unfold buildWithType
  cases text with
  | none => exact httpResponseAddHeader_change _ _ _ _
  | some text =>
      have stored := httpResponseSetBodyText_change
        (httpResponseSetStatus (httpResponseDestroy response process).1
          statusCode) (some text) (httpResponseDestroy response process).2
      refine stored.trans ?_
      simp only
      split_ifs
      · exact .kept rfl rfl rfl rfl rfl
      · exact httpResponseAddHeader_change _ _ _ _

theorem httpResponseSetFileBody_change (response : Response)
    (descriptor : Descriptor) (size : Int) (process : Process) :
    BodyChange response process
      (httpResponseSetFileBody response descriptor size process).1.2
      (httpResponseSetFileBody response descriptor size process).2
      (if (httpResponseSetFileBody response descriptor size process).1.1
        then [descriptor] else []) := by
  have closed := clearBody_closed response process
  unfold httpResponseSetFileBody
  by_cases negative : size < 0
  · rw [if_pos negative]
    exact .kept rfl rfl rfl rfl rfl
  rw [if_neg negative]
  by_cases large : size > sizeMax
  · rw [if_pos large]
    exact .kept rfl rfl rfl rfl rfl
  · rw [if_neg large]
    exact .replaced (consistent_file rfl rfl rfl) rfl closed

theorem ResponseOp.run_change (op : ResponseOp) (response : Response)
    (process : Process) :
    BodyChange response process (op.run response process).1.2
      (op.run response process).2
      (if (op.run response process).1.1 then op.offers else []) := by
  have unoffered : ∀ {success : Bool} {after : Response} {later : Process},
      BodyChange response process after later [] →
      BodyChange response process after later
        (if success then [] else []) := by
    intro success after later change
    rwa [ite_self]
  cases op with
  | setStatus statusCode => exact .kept rfl rfl rfl rfl rfl
  | addHeader name value =>
      exact unoffered (httpResponseAddHeader_change response name value process)
  | removeHeader name => exact .kept rfl rfl rfl rfl rfl
  | setHeader name value =>
      have removed : BodyChange response process
          (httpResponseRemoveHeader response name).2 process [] :=
        .kept rfl rfl rfl rfl rfl
      exact unoffered (removed.trans
        (httpResponseAddHeader_change _ name value process))
  | setBodyOwned body length =>
      exact unoffered
        (httpResponseSetBodyOwned_change response body length process)
  | setBodyText text =>
      exact unoffered (httpResponseSetBodyText_change response text process)
  | setBodyCopy body length =>
      exact unoffered
        (httpResponseSetBodyCopy_change response body length process)
  | setFileBody fd size =>
      cases fd with
      | none => exact .kept rfl rfl rfl rfl rfl
      | some descriptor =>
          exact httpResponseSetFileBody_change response descriptor size process
  | buildText statusCode text =>
      exact unoffered (buildWithType_change _ response statusCode text process)
  | buildJson statusCode text =>
      exact unoffered (buildWithType_change _ response statusCode text process)
  | destroy => exact httpResponseDestroy_change response process

theorem httpResponseSetBodyOwned_success (response : Response)
    (body : Option Bytes) (length : Nat) (process : Process) :
    (httpResponseSetBodyOwned response body length process).1.1 = true := by
  unfold httpResponseSetBodyOwned
  simp only
  split_ifs
  · rfl
  · rfl

/-- A body that could not be set leaves the response and its descriptor as
they were. -/
theorem ResponseOp.run_failed {op : ResponseOp} (atomic : op.atomic = true)
    {response : Response} {process : Process}
    (failed : (op.run response process).1.1 = false) :
    (op.run response process).1.2 = response ∧
      (op.run response process).2.closed = process.closed := by
  cases op with
  | setBodyText text =>
      cases text with
      | none =>
          rw [run, httpResponseSetBodyText,
            httpResponseSetBodyOwned_success] at failed
          cases failed
      | some text =>
          simp only [run, httpResponseSetBodyText] at failed ⊢
          split_ifs at failed ⊢
          · exact ⟨rfl, rfl⟩
          · rw [httpResponseSetBodyOwned_success] at failed
            cases failed
  | setBodyCopy body length =>
      simp only [run, httpResponseSetBodyCopy] at failed ⊢
      by_cases empty : length = 0
      · rw [if_pos empty, httpResponseSetBodyOwned_success] at failed
        cases failed
      rw [if_neg empty] at failed ⊢
      cases body with
      | none => exact ⟨rfl, rfl⟩
      | some bytes =>
          simp only at failed ⊢
          split_ifs at failed ⊢
          · exact ⟨rfl, rfl⟩
          · rw [httpResponseSetBodyOwned_success] at failed
            cases failed
  | setFileBody fd size =>
      cases fd with
      | none => exact ⟨rfl, rfl⟩
      | some descriptor =>
          simp only [run, httpResponseSetFileBody] at failed ⊢
          split_ifs at failed ⊢
          · exact ⟨rfl, rfl⟩
          · exact ⟨rfl, rfl⟩
  | _ => cases atomic

/-! ## Sequences of operations -/

/-- The response of a caller, the page that `static_files_build_not_found`
keeps beside it, and the descriptors that were taken over or refused. -/
structure Owning where
  response : Response
  page : Response
  process : Process
  attached : List Descriptor
  refused : List Descriptor

/-- One call on either response, or the move of the page into the response of
the caller. -/
inductive OwningStep where
  | onResponse (op : ResponseOp)
  | onPage (op : ResponseOp)
  | movePage

/-- The descriptors offered by a step. -/
def OwningStep.offers : OwningStep → List Descriptor
  | .onResponse op => op.offers
  | .onPage op => op.offers
  | .movePage => []

/-- The move of `static_files_build_not_found`: the response is destroyed
before it is overwritten, and the page is not used again before it is
initialised. -/
def Owning.move (state : Owning) : Owning :=
  { state with
    response := httpResponseSetStatus state.page 404
    page := httpResponseInit
    process := (httpResponseDestroy state.response state.process).2 }

def owningNext (state : Owning) : OwningStep → Owning
  | .onResponse op =>
      let result := op.run state.response state.process
      { response := result.1.2
        page := state.page
        process := result.2
        attached := state.attached ++ if result.1.1 then op.offers else []
        refused := state.refused ++ if result.1.1 then [] else op.offers }
  | .onPage op =>
      let result := op.run state.page state.process
      { response := state.response
        page := result.1.2
        process := result.2
        attached := state.attached ++ if result.1.1 then op.offers else []
        refused := state.refused ++ if result.1.1 then [] else op.offers }
  | .movePage => state.move

/-- The start behind `http_response_init`, with any allocation failures. -/
def owningMachine : Machine Owning OwningStep where
  Start state := ∃ allocs, state =
    { response := httpResponseInit
      page := httpResponseInit
      process := { allocs := allocs }
      attached := []
      refused := [] }
  next state step := some (owningNext state step)

/-- No descriptor is offered twice. -/
def Fresh (state : Owning) (step : OwningStep) : Prop :=
  (state.attached ++ state.refused ++ step.offers).Nodup

instance (state : Owning) (step : OwningStep) :
    Decidable (Fresh state step) :=
  inferInstanceAs (Decidable (List.Nodup _))

/-- The descriptors that are open in one of the responses. -/
def Owning.held (state : Owning) : List Descriptor :=
  state.response.held ++ state.page.held

/-- What every sequence of operations keeps. -/
structure Owning.Kept (state : Owning) : Prop where
  response : state.response.Consistent
  page : state.page.Consistent
  conserved : (state.process.closed ++ state.held).Perm state.attached
  distinct : (state.attached ++ state.refused).Nodup

theorem recorded_nodup {attached refused offered : List Descriptor}
    (fresh : (attached ++ refused ++ offered).Nodup) (success : Bool) :
    (attached ++ (if success then offered else []) ++
      (refused ++ if success then [] else offered)).Nodup := by
  refine (List.Perm.nodup_iff ?_).mpr fresh
  apply List.perm_iff_count.mpr
  intro descriptor
  cases success with
  | true =>
      simp only [if_true, List.append_nil, List.count_append]
      omega
  | false =>
      simp only [Bool.false_eq_true, if_false, List.append_nil,
        List.append_assoc]

namespace Owning.Kept

variable {state : Owning}

theorem custody (kept : state.Kept) :
    Custody state.process.closed state.held state.attached :=
  ⟨kept.conserved, (List.nodup_append.mp kept.distinct).1⟩

theorem next (kept : state.Kept) {step : OwningStep}
    (fresh : Fresh state step) : (owningNext state step).Kept := by
  cases step with
  | onResponse op =>
      have change := op.run_change state.response state.process
      exact ⟨change.consistent kept.response, kept.page,
        conserved_beside kept.conserved change.conserved,
        recorded_nodup fresh _⟩
  | onPage op =>
      have change := op.run_change state.page state.process
      refine ⟨kept.response, change.consistent kept.page, ?_,
        recorded_nodup fresh _⟩
      have swapped := (List.perm_append_comm.append_left _).trans
        kept.conserved
      exact (List.perm_append_comm.append_left _).trans
        (conserved_beside swapped change.conserved)
  | movePage =>
      have page : BodyChange state.page state.process
          (httpResponseSetStatus state.page 404) state.process [] :=
        .kept rfl rfl rfl rfl rfl
      refine ⟨page.consistent kept.page, consistent_none rfl rfl rfl rfl, ?_,
        kept.distinct⟩
      have closed := clearBody_closed state.response state.process
      have moved : (httpResponseSetStatus state.page 404).held =
          state.page.held := rfl
      have empty : httpResponseInit.held = [] := rfl
      have total := kept.conserved
      simp only [owningNext, Owning.move, Owning.held, httpResponseDestroy]
        at total ⊢
      rw [closed, moved, empty, List.append_nil, List.append_assoc]
      exact total

theorem of_reachable (reachable : owningMachine.ReachableBy Fresh state) :
    state.Kept := by
  apply reachable.invariant
  · rintro start ⟨allocs, rfl⟩
    exact ⟨consistent_none rfl rfl rfl rfl, consistent_none rfl rfl rfl rfl,
      .nil, List.nodup_nil⟩
  · rintro before step after kept fresh ⟨⟩
    exact kept.next fresh

end Owning.Kept

/-- What the operations guarantee in every state: both responses are
consistent; a descriptor that was taken over is open while it is held and has
been closed once when it is not, from the very step on that gives it up; and a
refused descriptor is left alone. -/
structure Owning.Exact (state : Owning) : Prop where
  response : state.response.Consistent
  page : state.page.Consistent
  once : ∀ descriptor ∈ state.attached,
    state.process.closed.count descriptor =
      if descriptor ∈ state.held then 0 else 1
  refused : ∀ descriptor ∈ state.refused,
    descriptor ∉ state.process.closed
  given : ∀ step, Fresh state step → ∀ descriptor ∈ state.held,
    (owningNext state step).process.closed.count descriptor =
      if descriptor ∈ (owningNext state step).held then 0 else 1
  destroyed : ∀ descriptor ∈ state.response.held,
    (owningNext state (.onResponse .destroy)).process.closed.count
      descriptor = 1

theorem owningNext_attached (state : Owning) (step : OwningStep) :
    state.attached ⊆ (owningNext state step).attached := by
  cases step with
  | onResponse op => exact List.subset_append_left _ _
  | onPage op => exact List.subset_append_left _ _
  | movePage => exact List.Subset.refl _

theorem Owning.Kept.exact {state : Owning} (kept : state.Kept) :
    state.Exact := by
  have given : ∀ step, Fresh state step → ∀ descriptor ∈ state.held,
      (owningNext state step).process.closed.count descriptor =
        if descriptor ∈ (owningNext state step).held then 0 else 1 := by
    intro step fresh descriptor held
    refine (kept.next fresh).custody.count_released ?_
    apply owningNext_attached
    exact kept.conserved.mem_iff.mp (List.mem_append_right _ held)
  refine ⟨kept.response, kept.page, ?_, ?_, given, ?_⟩
  · intro descriptor member
    exact kept.custody.count_released member
  · intro descriptor refused closed
    have member := kept.custody.mem_acquired closed
    exact (List.nodup_append.mp kept.distinct).2.2 descriptor member
      descriptor refused rfl
  · intro descriptor held
    have fresh : Fresh state (.onResponse .destroy) := by
      change (state.attached ++ state.refused ++ []).Nodup
      rw [List.append_nil]
      exact kept.distinct
    have elsewhere : descriptor ∉ state.page.held := by
      have all := kept.conserved.nodup_iff.mpr kept.custody.distinct
      have inUse := (List.nodup_append.mp all).2.1
      intro other
      exact (List.nodup_append.mp inUse).2.2 descriptor held descriptor other
        rfl
    have left : (owningNext state (.onResponse .destroy)).held =
        state.page.held := rfl
    have gone := given _ fresh descriptor (List.mem_append_left _ held)
    rwa [left, if_neg elsewhere] at gone

/-- Any sequence of operations on responses keeps their bodies consistent and
closes what they take over once.  The move of a page that was served is one of
these operations. -/
theorem httpResponse_ownership :
    (∀ state, owningMachine.ReachableBy Fresh state → state.Exact) ∧
    (∀ (op : ResponseOp) (response : Response) (process : Process),
      op.atomic = true → (op.run response process).1.1 = false →
        (op.run response process).1.2 = response ∧
          (op.run response process).2.closed = process.closed) ∧
    ∀ (fs : FileSystem) (root : Bytes) (state : Owning) (process : Process),
      staticFilesServe fs root notFoundRequest httpResponseInit process =
          ((.ok (), state.page), state.process) →
        staticFilesBuildNotFound fs root state.response process =
          ((true, (owningNext state .movePage).response),
            (owningNext state .movePage).process) := by
  refine ⟨?_, ?_, ?_⟩
  · intro state reachable
    exact (Owning.Kept.of_reachable reachable).exact
  · intro op response process atomic failed
    exact ResponseOp.run_failed atomic failed
  · intro fs root state process served
    unfold staticFilesBuildNotFound
    rw [served]
    rfl

/-- A file body is replaced although the first allocation fails, and the body
of a page is moved in and destroyed. -/
theorem httpResponse_ownership_moved :
    let file : OpenFile := ⟨[ascii "a"], ascii "a", .error .other⟩
    ∃ last, owningMachine.ReachableBy Fresh last ∧
      last.attached = [⟨0, file⟩, ⟨2, file⟩] ∧
      last.refused = [⟨1, file⟩] ∧
      last.process.closed = [⟨0, file⟩, ⟨2, file⟩] ∧ last.Exact := by
  intro file
  have start : owningMachine.ReachableBy Fresh
      ⟨httpResponseInit, httpResponseInit, { allocs := [false] }, [], []⟩ :=
    .start ⟨[false], rfl⟩
  have last := start.execute (show owningMachine.executeBy Fresh _
      [.onResponse (.setFileBody (some ⟨0, file⟩) 1),
        .onResponse (.setBodyText (some (ascii "x"))),
        .onResponse (.setFileBody (some ⟨1, file⟩) (-1)),
        .onResponse (.setBodyText (some (ascii "x"))),
        .onPage (.setFileBody (some ⟨2, file⟩) 1), .movePage,
        .onResponse .destroy] = some _ from rfl)
  exact ⟨_, last, rfl, rfl, rfl, httpResponse_ownership.1 _ last⟩

end CinderHTTP
