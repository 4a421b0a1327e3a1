import CinderHTTP.Config.Grammar
import CinderHTTP.Main.Startup

/-!
# Everything that is built up is taken down

For every script of failing calls the log of `main` obeys the rules of
lifetimes and ends with nothing held: every resource is given back once, the
threads before the queue and the counters that they use.  The exit code says
whether all calls have succeeded.
-/

namespace CinderHTTP

namespace Startup

/-- The resources held at the end of the log. -/
def Holds (state : Startup) (held : List Resource) : Prop :=
  settle Resource.layer [] state.log = some held

/-- The next calls all succeed. -/
def Grants (state : Startup) (calls : Nat) : Prop :=
  ∀ index < calls, state.answers[index]? ≠ some false

/-- A function that makes some calls and succeeds if they all do, with what is
held behind its failure and behind its success. -/
structure Builds (calls : Nat) (low full : List Resource) (state : Startup)
    (result : Bool × Startup) : Prop where
  succeeds : result.1 = true ↔ state.Grants calls
  holds : result.2.Holds (if result.1 then full else low)
  answers : result.1 = true → result.2.answers = state.answers.drop calls

variable {state next : Startup} {held low mid full fallen : List Resource}
  {calls more : Nat}

theorem grants_drop (dropped : next.answers = state.answers.drop calls) :
    state.Grants (calls + more) ↔ state.Grants calls ∧ next.Grants more := by
  constructor
  · intro all
    refine ⟨fun index early => all index (by omega), ?_⟩
    intro index early
    rw [dropped, List.getElem?_drop]
    exact all (calls + index) (by omega)
  · rintro ⟨first, rest⟩ index early
    by_cases before : index < calls
    · exact first index before
    · have later := rest (index - calls) (by omega)
      rw [dropped, List.getElem?_drop] at later
      rwa [Nat.add_sub_cancel' (Nat.le_of_not_lt before)] at later

theorem Builds.failure (built : Builds calls low full state (false, next)) :
    next.Holds low :=
  built.holds

theorem Builds.success (built : Builds calls low full state (true, next)) :
    next.Holds full :=
  built.holds

theorem Builds.last (built : Builds calls fallen full state (true, next)) :
    Builds calls low full state (true, next) :=
  ⟨built.succeeds, built.holds, built.answers⟩

theorem Builds.failed {first after : Startup}
    (built : Builds calls fallen mid state (false, first))
    (holds : after.Holds low) (more : Nat) :
    Builds (calls + more) low full state (false, after) := by
  constructor
  · constructor
    · intro absurdity
      cases absurdity
    · intro all
      exact built.succeeds.mpr fun index early => all index (by omega)
  · exact holds
  · intro absurdity
    cases absurdity

theorem Builds.continues {first : Startup} {result : Bool × Startup}
    (built : Builds calls fallen mid state (true, first)) (more : Nat)
    (rest : Builds more low full first result) :
    Builds (calls + more) low full state result := by
  have granted := built.succeeds.mp rfl
  have dropped := built.answers rfl
  constructor
  · rw [rest.succeeds, grants_drop dropped]
    exact ⟨fun later => ⟨granted, later⟩, fun both => both.2⟩
  · exact rest.holds
  · intro success
    rw [rest.answers success, dropped, List.drop_drop]

/-- A function that returns a record too: one behind its success, and another
behind its failure. -/
structure Delivers {Record : Type} (calls : Nat) (low full : List Resource)
    (record unbuilt : Record) (state : Startup)
    (result : (Bool × Record) × Startup) : Prop where
  builds : Builds calls low full state (result.1.1, result.2)
  record : result.1.2 = if result.1.1 then record else unbuilt

section

variable {Record : Type} {record unbuilt : Record}

theorem Builds.gaveUp {first after : Startup}
    (built : Builds calls fallen mid state (false, first))
    (holds : after.Holds low) (more : Nat) :
    Delivers (calls + more) low full record unbuilt state
      ((false, unbuilt), after) :=
  ⟨built.failed holds more, rfl⟩

theorem Builds.goesOn {first : Startup} {result : (Bool × Record) × Startup}
    (built : Builds calls fallen mid state (true, first)) (more : Nat)
    (rest : Delivers more low full record unbuilt first result) :
    Delivers (calls + more) low full record unbuilt state result :=
  ⟨built.continues more rest.builds, rest.record⟩

theorem Builds.delivers
    (built : Builds calls fallen full state (true, next)) :
    Delivers calls low full record unbuilt state ((true, record), next) :=
  ⟨built.last, rfl⟩

theorem Delivers.of_release {resource : Resource}
    {result : (Bool × Record) × Startup}
    (delivers : Delivers calls low full record unbuilt
      (state.release resource) result) :
    Delivers calls low full record unbuilt state result :=
  ⟨⟨delivers.builds.succeeds, delivers.builds.holds,
    delivers.builds.answers⟩, delivers.record⟩

end

theorem attempt_builds (holds : state.Holds held) :
    Builds 1 held held state state.attempt := by
  constructor
  · simp only [attempt, decide_eq_true_eq, Grants]
    constructor
    · intro first index early
      obtain rfl : index = 0 := by omega
      rwa [← List.head?_eq_getElem?]
    · intro all
      rw [List.head?_eq_getElem?]
      exact all 0 Nat.zero_lt_one
  · rw [ite_self]
    exact holds
  · intro _
    exact List.drop_one.symm

theorem acquire_builds (resource : Resource) (holds : state.Holds held)
    (absent : resource ∉ held) (top : OnTop Resource.layer held resource) :
    Builds 1 held (resource :: held) state (state.acquire resource) := by
  have asked := attempt_builds holds
  unfold acquire
  generalize state.attempt = outcome at asked ⊢
  obtain ⟨granted, next⟩ := outcome
  cases granted with
  | false => exact ⟨asked.succeeds, asked.holds, asked.answers⟩
  | true =>
      exact ⟨asked.succeeds, settle_acquire asked.holds absent top,
        asked.answers⟩

theorem Holds.release {resource : Resource}
    (holds : state.Holds (resource :: held))
    (top : OnTop Resource.layer held resource) :
    (state.release resource).Holds held := by
  have whole : OnTop Resource.layer (resource :: held) resource := by
    intro other member
    rcases List.mem_cons.mp member with rfl | below
    · exact Nat.le_refl _
    · exact top other below
  have released := settle_release holds List.mem_cons_self whole
  rwa [List.erase_cons_head] at released

end Startup

open Startup

/-! ## The listening socket -/

theorem serverCreateListeningSocket_builds {state : Startup}
    (holds : state.Holds []) :
    Builds 4 [] [.listenSocket] state (serverCreateListeningSocket state) := by
  have closes : ∀ {opened : Startup}, opened.Holds [.listenSocket] →
      (opened.release .listenSocket).Holds [] := fun opened =>
    opened.release (by decide)
  unfold serverCreateListeningSocket
  have socket := acquire_builds .listenSocket holds (by decide) (by decide)
  generalize state.acquire .listenSocket = outcome at socket ⊢
  obtain ⟨granted, opened⟩ := outcome
  cases granted with
  | false => exact socket.failed socket.failure 3
  | true =>
      refine socket.continues 3 ?_
      have reuse := attempt_builds socket.success
      dsimp only
      generalize opened.attempt = outcome at reuse ⊢
      obtain ⟨granted, reusing⟩ := outcome
      cases granted with
      | false => exact reuse.failed (closes reuse.failure) 2
      | true =>
          refine reuse.continues 2 ?_
          have bind := attempt_builds reuse.success
          dsimp only
          generalize reusing.attempt = outcome at bind ⊢
          obtain ⟨granted, bound⟩ := outcome
          cases granted with
          | false => exact bind.failed (closes bind.failure) 1
          | true =>
              refine bind.continues 1 ?_
              have listen := attempt_builds bind.success
              dsimp only
              generalize bound.attempt = outcome at listen ⊢
              obtain ⟨granted, listening⟩ := outcome
              cases granted with
              | false => exact listen.failed (closes listen.failure) 0
              | true => exact listen.last

/-! ## The queue and the pool -/

def queueResources : List Resource :=
  [.notFull, .notEmpty, .queueMutex, .queueItems, .statsMutex, .listenSocket]

def QueueObjects.complete : QueueObjects :=
  { items := true, mutexInitialized := true, notEmptyInitialized := true
    notFullInitialized := true }

theorem QueueObjects.destroy_holds {state : Startup}
    (holds : state.Holds queueResources) :
    (QueueObjects.complete.destroy state).Holds
      [.statsMutex, .listenSocket] :=
  (((holds.release (by decide)).release (by decide)).release
    (by decide)).release (by decide)

theorem QueueObjects.init_delivers {state : Startup} {capacity : Nat}
    (positive : capacity ≠ 0)
    (holds : state.Holds [.statsMutex, .listenSocket]) :
    Delivers 4 [.statsMutex, .listenSocket] queueResources
      QueueObjects.complete .zeroed state
      (QueueObjects.init capacity state) := by
  unfold QueueObjects.init
  rw [if_neg positive]
  have items := acquire_builds .queueItems holds (by decide) (by decide)
  generalize state.acquire .queueItems = outcome at items ⊢
  obtain ⟨granted, allocated⟩ := outcome
  cases granted with
  | false => exact items.gaveUp items.failure 3
  | true =>
      refine items.goesOn 3 ?_
      have mutex := acquire_builds .queueMutex items.success (by decide)
        (by decide)
      dsimp only
      generalize allocated.acquire .queueMutex = outcome at mutex ⊢
      obtain ⟨granted, locked⟩ := outcome
      cases granted with
      | false => exact mutex.gaveUp (mutex.failure.release (by decide)) 2
      | true =>
          refine mutex.goesOn 2 ?_
          have notEmpty := acquire_builds .notEmpty mutex.success (by decide)
            (by decide)
          dsimp only
          generalize locked.acquire .notEmpty = outcome at notEmpty ⊢
          obtain ⟨granted, signalling⟩ := outcome
          cases granted with
          | false =>
              exact notEmpty.gaveUp
                ((notEmpty.failure.release (by decide)).release
                  (by decide)) 1
          | true =>
              refine notEmpty.goesOn 1 ?_
              have notFull := acquire_builds .notFull notEmpty.success
                (by decide) (by decide)
              dsimp only
              generalize signalling.acquire .notFull = outcome at notFull ⊢
              obtain ⟨granted, complete⟩ := outcome
              cases granted with
              | false =>
                  exact notFull.gaveUp
                    (((notFull.failure.release (by decide)).release
                      (by decide)).release (by decide)) 0
              | true => exact notFull.delivers

def poolResources : List Resource :=
  .threadHandles :: queueResources

/-- A pool with the number of its threads. -/
def poolOf (workerCount startedCount : Nat) : ThreadPool :=
  { threads := true, workerCount := workerCount, startedCount := startedCount }

theorem threadPoolInit_delivers {state : Startup} {workerCount : Nat}
    (positive : workerCount ≠ 0) (holds : state.Holds queueResources) :
    Delivers 1 queueResources poolResources (poolOf workerCount 0) .zeroed
      state (threadPoolInit workerCount state) := by
  have handles := acquire_builds .threadHandles holds (by decide) (by decide)
  unfold threadPoolInit
  rw [if_neg positive]
  generalize state.acquire .threadHandles = outcome at handles ⊢
  obtain ⟨granted, allocated⟩ := outcome
  cases granted with
  | false => exact handles.gaveUp handles.failure 0
  | true => exact handles.delivers

/-! ## The threads -/

/-- The threads that were created, the last one first. -/
def createdThreads : Nat → List Resource
  | 0 => []
  | count + 1 => .thread count :: createdThreads count

theorem mem_createdThreads {count : Nat} {resource : Resource} :
    resource ∈ createdThreads count ↔
      ∃ index < count, resource = .thread index := by
  induction count with
  | zero => simp [createdThreads]
  | succ count induction =>
      rw [createdThreads, List.mem_cons, induction]
      constructor
      · rintro (rfl | ⟨index, early, rfl⟩)
        · exact ⟨count, Nat.lt_succ_self _, rfl⟩
        · exact ⟨index, Nat.lt_succ_of_lt early, rfl⟩
      · rintro ⟨index, early, rfl⟩
        rcases Nat.lt_succ_iff_lt_or_eq.mp early with before | rfl
        · exact .inr ⟨index, before, rfl⟩
        · exact .inl rfl

theorem perm_createdThreads (count : Nat) :
    ((List.range count).map Resource.thread).Perm (createdThreads count) := by
  induction count with
  | zero => exact .nil
  | succ count induction =>
      rw [List.range_succ, List.map_append, createdThreads]
      exact List.perm_append_singleton _ _ |>.trans (induction.cons _)

theorem layer_poolResources :
    ∀ resource ∈ poolResources, resource.layer ≤ 6 := by
  decide

theorem onTop_threads (count : Nat) {resource : Resource}
    (high : resource.layer = 7) :
    OnTop Resource.layer (createdThreads count ++ poolResources) resource := by
  intro other member
  rw [high]
  rcases List.mem_append.mp member with thread | below
  · obtain ⟨index, _, rfl⟩ := mem_createdThreads.mp thread
    exact Nat.le_refl 7
  · exact Nat.le_succ_of_le (layer_poolResources other below)

/-- Joining gives the threads back in the order of their creation. -/
theorem joinThreads_holds {state : Startup} {count : Nat}
    (holds : state.Holds (createdThreads count ++ poolResources)) :
    (joinThreads count state).Holds poolResources := by
  have level : ∀ item ∈ createdThreads count, item.layer = 7 := by
    intro item member
    obtain ⟨index, _, rfl⟩ := mem_createdThreads.mp member
    rfl
  have below : ∀ other ∈ poolResources, other.layer ≤ 7 := fun other member =>
    Nat.le_succ_of_le (layer_poolResources other member)
  have released := settle_releaseAll holds (perm_createdThreads count) level
    below
  rw [List.map_map] at released
  exact released

theorem workerArg_absent (index count : Nat) :
    Resource.workerArg index ∉ createdThreads count ++ poolResources := by
  intro member
  rcases List.mem_append.mp member with thread | below
  · obtain ⟨_, _, same⟩ := mem_createdThreads.mp thread
    cases same
  · have low : 7 ≤ 6 := layer_poolResources _ below
    exact absurd low (by decide)

theorem thread_absent (count : Nat) :
    Resource.thread count ∉ .workerArg count ::
      (createdThreads count ++ poolResources) := by
  intro member
  rcases List.mem_cons.mp member with same | inside
  · cases same
  · rcases List.mem_append.mp inside with thread | below
    · obtain ⟨index, early, same⟩ := mem_createdThreads.mp thread
      cases same
      exact absurd early (Nat.lt_irrefl _)
    · have low : 7 ≤ 6 := layer_poolResources _ below
      exact absurd low (by decide)

theorem Startup.Holds.hands_over {state : Startup} {count : Nat}
    (holds : state.Holds (.thread count :: .workerArg count ::
      (createdThreads count ++ poolResources))) :
    (state.release (.workerArg count)).Holds
      (createdThreads (count + 1) ++ poolResources) := by
  have top : OnTop Resource.layer (.thread count :: .workerArg count ::
      (createdThreads count ++ poolResources)) (.workerArg count) := by
    intro other member
    rcases List.mem_cons.mp member with rfl | rest
    · exact Nat.le_refl 7
    · rcases List.mem_cons.mp rest with rfl | inside
      · exact Nat.le_refl 7
      · exact onTop_threads count rfl other inside
  have released := settle_release holds (by simp) top
  rw [List.erase_cons_tail (by simp), List.erase_cons_head]
    at released
  exact released

theorem startThreads_delivers (remaining : Nat) {state : Startup}
    {started : Nat}
    (holds : state.Holds (createdThreads started ++ poolResources)) :
    Delivers (2 * remaining) poolResources
      (createdThreads (started + remaining) ++ poolResources)
      (started + remaining) 0 state
      (startThreads started remaining state) := by
  induction remaining generalizing state started with
  | zero =>
      refine ⟨⟨?_, holds, fun _ => rfl⟩, rfl⟩
      exact ⟨fun _ index early => absurd early (Nat.not_lt_zero _),
        fun _ => rfl⟩
  | succ remaining induction =>
      have calls : 2 * (remaining + 1) = 1 + (1 + 2 * remaining) := by omega
      have total : started + (remaining + 1) = started + 1 + remaining := by
        omega
      have argument := acquire_builds (.workerArg started) holds
        (workerArg_absent started started) (onTop_threads started rfl)
      rw [calls, total]
      unfold startThreads
      generalize state.acquire (.workerArg started) = outcome at argument ⊢
      obtain ⟨granted, allocated⟩ := outcome
      cases granted with
      | false => exact argument.gaveUp (joinThreads_holds argument.failure) _
      | true =>
          refine argument.goesOn _ ?_
          have thread := acquire_builds (.thread started) argument.success
            (thread_absent started) (by
              intro other member
              rcases List.mem_cons.mp member with rfl | inside
              · exact Nat.le_refl 7
              · exact onTop_threads started rfl other inside)
          dsimp only
          generalize allocated.acquire (.thread started) = outcome
            at thread ⊢
          obtain ⟨granted, created⟩ := outcome
          cases granted with
          | false =>
              apply thread.gaveUp
              apply joinThreads_holds
              exact thread.failure.release (onTop_threads started rfl)
          | true =>
              refine thread.goesOn _ ?_
              exact (induction thread.success.hands_over).of_release

/-! ## `server_run` -/

/-- How far `server_run` has come, with what it holds then. -/
inductive Stage (workerCount : Nat) : Subsystems → List Resource → Prop
  | nothing : Stage workerCount .none [.listenSocket]
  | stats :
      Stage workerCount { Subsystems.none with statsReady := true }
        [.statsMutex, .listenSocket]
  | queue :
      Stage workerCount
        { Subsystems.none with
          statsReady := true, queueReady := true, queue := .complete }
        queueResources
  | pool :
      Stage workerCount
        { statsReady := true, queueReady := true, poolReady := true
          workersRunning := false, queue := .complete
          pool := poolOf workerCount 0 } poolResources
  | running :
      Stage workerCount
        { statsReady := true, queueReady := true, poolReady := true
          workersRunning := true, queue := .complete
          pool := poolOf workerCount workerCount }
        (createdThreads workerCount ++ poolResources)

theorem threadPoolStart_delivers {state : Startup} {workerCount : Nat}
    (holds : state.Holds poolResources) :
    Delivers (2 * workerCount) poolResources
      (createdThreads workerCount ++ poolResources)
      (poolOf workerCount workerCount) (poolOf workerCount 0) state
      (threadPoolStart (poolOf workerCount 0) state) := by
  have started : Delivers (2 * workerCount) poolResources
      (createdThreads (0 + workerCount) ++ poolResources) (0 + workerCount) 0
      state (startThreads 0 workerCount state) :=
    startThreads_delivers workerCount holds
  rw [Nat.zero_add] at started
  have present : (poolOf workerCount 0).threads = true := rfl
  have size : (poolOf workerCount 0).workerCount = workerCount := rfl
  unfold threadPoolStart
  rw [if_pos present, size]
  generalize startThreads 0 workerCount state = outcome at started ⊢
  obtain ⟨⟨success, count⟩, after⟩ := outcome
  refine ⟨started.builds, ?_⟩
  have counted : count = if success then workerCount else 0 := started.record
  rw [counted]
  cases success <;> rfl

/-- The end of the startup: a stage, and the last one if all calls have
succeeded. -/
structure Arrives (workerCount calls : Nat) (state : Startup)
    (result : Subsystems × Startup) : Prop where
  stage : ∃ held, Stage workerCount result.1 held ∧ result.2.Holds held
  running : result.1.workersRunning = true ↔ state.Grants calls

section

variable {workerCount calls : Nat} {state first after : Startup}
  {fallen mid held : List Resource}

theorem Startup.Builds.stops {ready : Subsystems}
    (built : Builds calls fallen mid state (false, first))
    (stage : Stage workerCount ready held) (holds : after.Holds held)
    (idle : ready.workersRunning = false) (more : Nat) :
    Arrives workerCount (calls + more) state (ready, after) := by
  refine ⟨⟨held, stage, holds⟩, ?_⟩
  constructor
  · intro runs
    rw [idle] at runs
    cases runs
  · intro all
    have granted := built.succeeds.mpr fun index early =>
      all index (by omega)
    cases granted

theorem Startup.Builds.arrives {result : Subsystems × Startup}
    (built : Builds calls fallen mid state (true, first)) (more : Nat)
    (rest : Arrives workerCount more first result) :
    Arrives workerCount (calls + more) state result := by
  refine ⟨rest.stage, ?_⟩
  rw [rest.running, grants_drop (built.answers rfl)]
  exact ⟨fun later => ⟨built.succeeds.mp rfl, later⟩, fun both => both.2⟩

end

theorem startSubsystems_arrives {workerCount queueCapacity : Nat}
    {state : Startup} (workers : workerCount ≠ 0)
    (capacity : queueCapacity ≠ 0) (holds : state.Holds [.listenSocket]) :
    Arrives workerCount (6 + 2 * workerCount) state
      (startSubsystems workerCount queueCapacity state) := by
  have calls : 6 + 2 * workerCount = 1 + (4 + (1 + 2 * workerCount)) := by
    omega
  rw [calls]
  unfold startSubsystems
  have stats := acquire_builds .statsMutex holds (by decide) (by decide)
  generalize state.acquire .statsMutex = outcome at stats ⊢
  obtain ⟨granted, counting⟩ := outcome
  cases granted with
  | false => exact stats.stops .nothing stats.failure rfl _
  | true =>
      refine stats.arrives _ ?_
      have queue := QueueObjects.init_delivers capacity stats.success
      dsimp only
      generalize QueueObjects.init queueCapacity counting = outcome
        at queue ⊢
      obtain ⟨⟨granted, objects⟩, queued⟩ := outcome
      have built := queue.builds
      cases granted with
      | false =>
          obtain rfl : objects = .zeroed := queue.record
          exact built.stops .stats built.failure rfl _
      | true =>
          obtain rfl : objects = .complete := queue.record
          refine built.arrives _ ?_
          have pool := threadPoolInit_delivers workers built.success
          dsimp only
          generalize threadPoolInit workerCount queued = outcome at pool ⊢
          obtain ⟨⟨granted, handles⟩, pooled⟩ := outcome
          have allocated := pool.builds
          cases granted with
          | false =>
              obtain rfl : handles = .zeroed := pool.record
              exact allocated.stops .queue allocated.failure rfl _
          | true =>
              obtain rfl : handles = poolOf workerCount 0 := pool.record
              refine allocated.arrives _ ?_
              have threads : Delivers (2 * workerCount) poolResources _ _ _
                  pooled _ := threadPoolStart_delivers allocated.success
              dsimp only
              generalize threadPoolStart (poolOf workerCount 0) pooled =
                outcome at threads ⊢
              obtain ⟨⟨granted, started⟩, created⟩ := outcome
              have running := threads.builds
              cases granted with
              | false =>
                  obtain rfl : started = poolOf workerCount 0 :=
                    threads.record
                  exact running.stops .pool running.failure rfl 0
              | true =>
                  obtain rfl : started = poolOf workerCount workerCount :=
                    threads.record
                  exact ⟨⟨_, .running, running.success⟩, running.succeeds⟩

/-- The label `cleanup` takes down what was built up. -/
theorem cleanup_holds {workerCount : Nat} {ready : Subsystems}
    {state : Startup} {held : List Resource}
    (stage : Stage workerCount ready held) (holds : state.Holds held) :
    (cleanup ready state).Holds [.listenSocket] := by
  have unpooled : ∀ {pooled : Startup}, pooled.Holds poolResources →
      ((QueueObjects.complete.destroy (pooled.release
        .threadHandles)).release .statsMutex).Holds [.listenSocket] := by
    intro pooled holds
    have queued : (pooled.release .threadHandles).Holds queueResources :=
      holds.release (by decide)
    exact (QueueObjects.destroy_holds queued).release (by decide)
  cases stage with
  | nothing => exact holds
  | stats => exact holds.release (by decide)
  | queue => exact (QueueObjects.destroy_holds holds).release (by decide)
  | pool =>
      -- no thread is left to join
      have joined : (joinThreads 0 state).Holds poolResources :=
        joinThreads_holds holds
      exact unpooled joined
  | running =>
      have joined : (joinThreads workerCount state).Holds poolResources :=
        joinThreads_holds holds
      exact unpooled joined

theorem serverRun_returns_held {workerCount queueCapacity : Nat}
    {state : Startup} (workers : workerCount ≠ 0)
    (capacity : queueCapacity ≠ 0) (holds : state.Holds [.listenSocket]) :
    (serverRun workerCount queueCapacity state).2.Holds [.listenSocket] ∧
      ((serverRun workerCount queueCapacity state).1 = 0 ↔
        state.Grants (6 + 2 * workerCount)) := by
  have arrives := startSubsystems_arrives workers capacity holds
  unfold serverRun
  generalize startSubsystems workerCount queueCapacity state = outcome
    at arrives ⊢
  obtain ⟨ready, started⟩ := outcome
  obtain ⟨held, stage, holding⟩ := arrives.stage
  refine ⟨cleanup_holds stage holding, ?_⟩
  rw [← arrives.running]
  cases runs : ready.workersRunning <;> simp [runs]

/-! ## `main` -/

/-- Whatever fails, `main` gives back all that it has obtained, each resource
once and none before those that rest on it.  It succeeds if help was asked
for, or if the command line is accepted and every call succeeds. -/
theorem main_releases {arguments : List Bytes}
    (strings : ∀ argument ∈ arguments, nul ∉ argument)
    (answers : List Bool) :
    (mainProcess arguments { answers := answers, log := [] }).2.Holds [] ∧
      ((mainProcess arguments { answers := answers, log := [] }).1 = 0 ↔
        (configParseArgs configSetDefaults arguments).result = .help ∨
          (configParseArgs configSetDefaults arguments).result = .ok ∧
            Grants { answers := answers, log := [] }
              (10 + 2 * (configParseArgs configSetDefaults
                arguments).config.workerCount.toNat)) := by
  have nothing : Startup.Holds { answers := answers, log := [] } [] := rfl
  have valid : (configParseArgs configSetDefaults arguments).result = .ok →
      (configParseArgs configSetDefaults arguments).config.Valid := by
    intro ok
    obtain ⟨settings, line⟩ := commandLine_of_ok ok
    rw [configParseArgs_accepts line]
    exact configSetDefaults_valid.commandLine line strings
  unfold mainProcess
  dsimp only
  generalize configParseArgs configSetDefaults arguments = parsed at valid ⊢
  cases ended : parsed.result with
  | help => exact ⟨nothing, by simp⟩
  | error => exact ⟨nothing, by simp⟩
  | ok =>
      have accepted := valid ended
      have workers : parsed.config.workerCount.toNat ≠ 0 := by
        have least : 1 ≤ parsed.config.workerCount :=
          (accepted.numeric .workers).1
        omega
      have capacity : parsed.config.queueCapacity.toNat ≠ 0 := by
        have least : 1 ≤ parsed.config.queueCapacity :=
          (accepted.numeric .queueSize).1
        omega
      have socket := serverCreateListeningSocket_builds nothing
      dsimp only
      generalize serverCreateListeningSocket
        { answers := answers, log := [] } = outcome at socket ⊢
      obtain ⟨granted, listening⟩ := outcome
      have calls : 10 + 2 * parsed.config.workerCount.toNat =
          4 + (6 + 2 * parsed.config.workerCount.toNat) := by
        omega
      cases granted with
      | false =>
          refine ⟨socket.failure, ?_⟩
          have failed : Builds _ [] [] _ _ := socket.failed socket.failure
            (6 + 2 * parsed.config.workerCount.toNat)
          rw [calls, ← failed.succeeds]
          simp
      | true =>
          obtain ⟨held, result⟩ :=
            serverRun_returns_held workers capacity socket.success
          refine ⟨held.release (by decide), ?_⟩
          rw [calls, grants_drop (socket.answers rfl), ← result]
          simp [socket.succeeds.mp rfl]

/-- The second of two threads cannot be created. -/
theorem main_releases_second :
    (mainProcess [ascii "--workers", ascii "2"]
        { answers := List.replicate 13 true ++ [false], log := [] }).1 = 1 ∧
      (mainProcess [ascii "--workers", ascii "2"]
        { answers := List.replicate 13 true ++ [false]
          log := [] }).2.Holds [] :=
  ⟨by decide +kernel, (main_releases (by decide) _).1⟩

end CinderHTTP
