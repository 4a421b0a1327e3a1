import CinderHTTP.Reader.Loop

/-!
# The deadline of a request

The request timeout starts when the first byte is there.  Every pass of the
read loop computes the time that is left anew, rounded down to milliseconds,
so a poll that is issued at that moment ends before the deadline.  A poll that
a signal interrupts is issued again with the same timeout: it ends before the
deadline only if no further millisecond of the remaining time has gone by.
-/

namespace CinderHTTP

/-! ## Times -/

namespace Timespec

/-- A time in nanoseconds. -/
def nanoseconds (time : Timespec) : Int :=
  time.sec * 1000000000 + time.nsec

/-- The form in which the clock is read. -/
def Normal (time : Timespec) : Prop :=
  0 ≤ time.nsec ∧ time.nsec < 1000000000

instance (time : Timespec) : Decidable time.Normal :=
  inferInstanceAs (Decidable (_ ∧ _))

theorem Normal.addSeconds {time : Timespec} (normal : time.Normal)
    (seconds : Int) : (time.addSeconds seconds).Normal :=
  normal

/-- The nanoseconds from a time to a deadline. -/
def left (deadline time : Timespec) : Int :=
  deadline.nanoseconds - time.nanoseconds

end Timespec

theorem timespecBefore_iff {time deadline : Timespec}
    (timeNormal : time.Normal) (deadlineNormal : deadline.Normal) :
    timespecBefore time deadline = true ↔ 0 < deadline.left time := by
  unfold Timespec.Normal at timeNormal deadlineNormal
  unfold timespecBefore Timespec.left Timespec.nanoseconds
  split_ifs with different
  · rw [decide_eq_true_iff]
    omega
  · rw [decide_eq_true_iff]
    omega

/-- The remaining time is rounded down to milliseconds, and cut to 1000
seconds when more than a second above that is left. -/
theorem remainingTimeoutMs_eq {deadline now : Timespec}
    (deadlineNormal : deadline.Normal) (nowNormal : now.Normal) :
    remainingTimeoutMs deadline (some now) =
      if deadline.left now ≤ 0 then 0
      else if 1001000000000 ≤ deadline.left now then 1000000
      else deadline.left now / 1000000 := by
  have before := timespecBefore_iff nowNormal deadlineNormal
  unfold Timespec.Normal at deadlineNormal nowNormal
  unfold remainingTimeoutMs
  simp only
  by_cases passed : deadline.left now ≤ 0
  · have reached : timespecBefore now deadline = false := by
      rw [Bool.eq_false_iff, ne_eq, before]
      omega
    rw [if_pos passed, reached]
    rfl
  · have ahead : timespecBefore now deadline = true := before.mpr (by omega)
    rw [if_neg passed, ahead]
    simp only [Bool.not_true, Bool.false_eq_true, if_false]
    unfold Timespec.left Timespec.nanoseconds at passed ⊢
    by_cases borrow : deadline.nsec - now.nsec < 0
    · simp only [borrow, if_true]
      rw [Int.tdiv_eq_ediv_of_nonneg (by omega)]
      split_ifs <;> omega
    · simp only [borrow, if_false]
      rw [Int.tdiv_eq_ediv_of_nonneg (by omega)]
      split_ifs <;> omega

/-- What the rounding takes off the remaining time. -/
def Timespec.slack (deadline reading : Timespec) : Int :=
  if 1001000000000 ≤ deadline.left reading then
    deadline.left reading - 1000000000000
  else deadline.left reading % 1000000

/-- A poll is issued before the rounding of the remaining time is used up. -/
def Prompt (deadline reading issued : Timespec) : Prop :=
  issued.left reading ≤ deadline.slack reading

instance (deadline reading issued : Timespec) :
    Decidable (Prompt deadline reading issued) :=
  inferInstanceAs (Decidable (_ ≤ _))

theorem prompt_self (deadline reading : Timespec) :
    Prompt deadline reading reading := by
  unfold Prompt Timespec.slack
  have still : reading.left reading = 0 := Int.sub_self _
  split_ifs <;> omega

/-- A poll with the remaining time as its timeout ends before the deadline
exactly when it is issued promptly. -/
theorem ends_by_deadline_iff {deadline reading : Timespec}
    (deadlineNormal : deadline.Normal) (readingNormal : reading.Normal)
    (remains : remainingTimeoutMs deadline (some reading) ≠ 0)
    (issued : Timespec) :
    issued.nanoseconds +
        remainingTimeoutMs deadline (some reading) * 1000000 ≤
          deadline.nanoseconds ↔
      Prompt deadline reading issued := by
  rw [remainingTimeoutMs_eq deadlineNormal readingNormal] at remains ⊢
  have delay : issued.left reading =
      issued.nanoseconds - reading.nanoseconds := rfl
  have ahead : deadline.left reading =
      deadline.nanoseconds - reading.nanoseconds := rfl
  unfold Prompt Timespec.slack
  split_ifs at remains ⊢ <;> omega

/-! ## The polls of a pass -/

theorem waitReadable_timeoutMs {timeoutMs : Int} {issuedAt : Timespec}
    {answers : List PollAnswer} :
    ∀ poll ∈ (waitReadable timeoutMs issuedAt answers).2,
      poll.timeoutMs = timeoutMs := by
  fun_induction waitReadable timeoutMs issuedAt answers with
  | case2 issuedAt reissuedAt answers resumed induction =>
      intro poll member
      rcases List.mem_cons.mp member with rfl | later
      · rfl
      · exact induction poll later
  | _ =>
      intro poll member
      rw [List.mem_singleton.mp member]

/-- The times at which a wait issues its polls: at once, and again behind
every interruption. -/
def issueTimes (issuedAt : Timespec) : List PollAnswer → List Timespec
  | .interrupted reissuedAt :: answers =>
      issuedAt :: issueTimes reissuedAt answers
  | _ => [issuedAt]

theorem waitReadable_issueTimes (timeoutMs : Int) (issuedAt : Timespec)
    (answers : List PollAnswer) :
    (waitReadable timeoutMs issuedAt answers).2.map PollIssue.issuedAt =
      issueTimes issuedAt answers := by
  fun_induction waitReadable timeoutMs issuedAt answers with
  | case2 issuedAt reissuedAt answers resumed induction =>
      rw [issueTimes, List.map_cons, induction]
  | _ => rfl

theorem issueTimes_uninterrupted {issuedAt : Timespec}
    {answers : List PollAnswer}
    (calm : ∀ reissuedAt, .interrupted reissuedAt ∉ answers) :
    issueTimes issuedAt answers = [issuedAt] := by
  unfold issueTimes
  split
  · exact absurd List.mem_cons_self (calm _)
  · rfl

/-- A pass waits at most once, and under a deadline only for a time that is
not zero. -/
def Waits (timeouts : ReadTimeouts) (deadline : Option Timespec)
    (turn : Turn) (polls : List PollIssue) : Prop :=
  polls = [] ∨
    polls = (waitReadable (pollTimeoutMs timeouts deadline turn) turn.pollAt
      turn.polls).2 ∧
    (deadline.isSome = true → pollTimeoutMs timeouts deadline turn ≠ 0)

theorem awaitBytes_waits (timeouts : ReadTimeouts)
    (deadline : Option Timespec) (turn : Turn) :
    Waits timeouts deadline turn (awaitBytes timeouts deadline turn).2 := by
  unfold awaitBytes
  simp only
  split_ifs with passed
  · exact .inl rfl
  · right
    constructor
    · rcases waitReadable (pollTimeoutMs timeouts deadline turn) turn.pollAt
        turn.polls with ⟨_ | _ | _, polls⟩ <;> rfl
    · intro active
      simpa [active] using passed

theorem receiveBytes_polls (timeouts : ReadTimeouts) (state : ReadState)
    (turn : Turn) (polls : List PollIssue) :
    (receiveBytes timeouts state turn polls).polls = polls := by
  unfold receiveBytes
  cases turn.recv with
  | interrupted => rfl
  | wouldBlock => rfl
  | failed => rfl
  | delivered size =>
      simp only
      split_ifs
      · rfl
      · cases state.deadline with
        | some deadline => rfl
        | none => cases turn.arrivalClock <;> rfl

/-- The buffer behind `ensure_capacity`, in a pass that gets there. -/
def grownReader (state : ReadState) (turn : Turn) : Option Reader :=
  match tryExtractLength state.reader turn.allocs with
  | (.ok _, _) => none
  | (.error failure, allocs) =>
      if failure ≠ .ioError then none
      else
        match bytesNeeded state.reader allocs with
        | (.error _, _) => none
        | (.ok need, later) =>
            match ensureCapacity state.reader need later with
            | ((false, _), _) => none
            | ((true, grown), _) => some grown

/-- The rest of a pass, from the enlarged buffer on. -/
def fillGrown (timeouts : ReadTimeouts) (state : ReadState) (grown : Reader)
    (turn : Turn) : ReadPass :=
  if grown.space = 0 then
    { state with reader := grown }.discard .noSpace []
  else
    match awaitBytes timeouts state.deadline turn with
    | (some exit, polls) => { state with reader := grown }.leave exit polls
    | (none, polls) =>
        receiveBytes timeouts { state with reader := grown } turn polls

/-- What a pass does with the enlarged buffer. -/
theorem readPass_grown (timeouts : ReadTimeouts) {state : ReadState}
    {turn : Turn} {grown : Reader}
    (reached : grownReader state turn = some grown) :
    readPass timeouts state turn = fillGrown timeouts state grown turn := by
  unfold grownReader at reached
  unfold readPass
  rcases extracted : tryExtractLength state.reader turn.allocs with
    ⟨failure | length, allocs⟩
  · simp only [extracted] at reached ⊢
    by_cases refused : failure ≠ .ioError
    · simp [refused] at reached
    rw [if_neg refused] at reached ⊢
    rcases needed : bytesNeeded state.reader allocs with ⟨exit | need, later⟩
    · simp [needed] at reached
    · simp only [needed] at reached ⊢
      unfold fillBuffer
      rcases enlarged : ensureCapacity state.reader need later with
        ⟨⟨_ | _, reader⟩, rest⟩
      · simp [enlarged] at reached
      · simp only [enlarged, Option.some.injEq] at reached ⊢
        subst reached
        rfl
  · simp [extracted] at reached

/-- A pass that does not get there does not wait, and receives nothing. -/
theorem readPass_ungrown (timeouts : ReadTimeouts) {state : ReadState}
    {turn : Turn} (left : grownReader state turn = none) :
    (readPass timeouts state turn).polls = [] ∧
      (readPass timeouts state turn).state.pending = state.pending := by
  unfold grownReader at left
  unfold readPass
  rcases extracted : tryExtractLength state.reader turn.allocs with
    ⟨failure | length, allocs⟩
  · simp only [extracted] at left ⊢
    by_cases refused : failure ≠ .ioError
    · rw [if_pos refused]
      exact ⟨rfl, rfl⟩
    rw [if_neg refused] at left ⊢
    rcases needed : bytesNeeded state.reader allocs with ⟨exit | need, later⟩
    · exact ⟨rfl, rfl⟩
    · simp only [needed] at left ⊢
      unfold fillBuffer
      rcases enlarged : ensureCapacity state.reader need later with
        ⟨⟨_ | _, reader⟩, rest⟩
      · simp only
        split_ifs
        · exact ⟨rfl, rfl⟩
        · exact ⟨rfl, rfl⟩
      · simp [enlarged] at left
  · simp only
    rcases takeMessage state.reader length allocs with ⟨_ | message, reader⟩
    · exact ⟨rfl, rfl⟩
    · exact ⟨rfl, rfl⟩

theorem fillGrown_polls (timeouts : ReadTimeouts) (state : ReadState)
    (grown : Reader) (turn : Turn) :
    (fillGrown timeouts state grown turn).polls =
      if grown.space = 0 then []
      else (awaitBytes timeouts state.deadline turn).2 := by
  unfold fillGrown
  split_ifs
  · rfl
  · generalize awaitBytes timeouts state.deadline turn = result
    obtain ⟨_ | exit, polls⟩ := result
    · exact receiveBytes_polls _ _ _ _
    · rfl

theorem readPass_waits (timeouts : ReadTimeouts) (state : ReadState)
    (turn : Turn) :
    Waits timeouts state.deadline turn
      (readPass timeouts state turn).polls := by
  cases reached : grownReader state turn with
  | none => exact .inl (readPass_ungrown timeouts reached).1
  | some grown =>
      rw [readPass_grown timeouts reached, fillGrown_polls]
      split_ifs
      · exact .inl rfl
      · exact awaitBytes_waits timeouts state.deadline turn

/-- A pass under a deadline gets to its wait: the message in the buffer is not
complete, the buffer has or gets room for more of it, and at the reading the
deadline is a millisecond away or more. -/
def Awaits (state : ReadState) (turn : Turn) (deadline reading : Timespec) :
    Prop :=
  (∃ grown ∈ grownReader state turn, grown.space ≠ 0) ∧
    1000000 ≤ deadline.left reading

instance (state : ReadState) (turn : Turn) (deadline reading : Timespec) :
    Decidable (Awaits state turn deadline reading) :=
  inferInstanceAs (Decidable (_ ∧ _))

theorem awaitBytes_polls_iff (timeouts : ReadTimeouts) (deadline : Timespec)
    (turn : Turn) :
    (awaitBytes timeouts (some deadline) turn).2 ≠ [] ↔
      remainingTimeoutMs deadline turn.clock ≠ 0 := by
  have times := waitReadable_issueTimes
    (remainingTimeoutMs deadline turn.clock) turn.pollAt turn.polls
  have issued : issueTimes turn.pollAt turn.polls ≠ [] := by
    unfold issueTimes
    split <;> exact List.cons_ne_nil _ _
  rw [← times, ne_eq, List.map_eq_nil_iff] at issued
  unfold awaitBytes
  simp only [pollTimeoutMs, Option.isSome_some, Bool.true_and, beq_iff_eq]
  split_ifs with passed
  · simp [passed]
  · rcases waited : waitReadable (remainingTimeoutMs deadline turn.clock)
      turn.pollAt turn.polls with ⟨_ | _ | _, polls⟩
    all_goals
      rw [waited] at issued
      exact iff_of_true issued passed

/-- Whether a pass polls is decided by the state before it and its reading. -/
theorem readPass_polls_iff (timeouts : ReadTimeouts) {state : ReadState}
    {turn : Turn} {deadline reading : Timespec}
    (active : state.deadline = some deadline)
    (read : turn.clock = some reading) (deadlineNormal : deadline.Normal)
    (readingNormal : reading.Normal) :
    (readPass timeouts state turn).polls ≠ [] ↔
      Awaits state turn deadline reading := by
  have remains : remainingTimeoutMs deadline (some reading) ≠ 0 ↔
      1000000 ≤ deadline.left reading := by
    rw [remainingTimeoutMs_eq deadlineNormal readingNormal]
    split_ifs <;> omega
  unfold Awaits
  cases reached : grownReader state turn with
  | none => simp [(readPass_ungrown timeouts reached).1]
  | some grown =>
      rw [readPass_grown timeouts reached, fillGrown_polls, active]
      by_cases full : grown.space = 0
      · simp [full]
      · rw [if_neg full, awaitBytes_polls_iff, read, remains]
        simp [full]

/-! ## The passes of a call -/

/-- The passes of a loop: the variables before each of them, and the answers
of the kernel in it. -/
def readPasses (timeouts : ReadTimeouts) (state : ReadState)
    (turns : List Turn) : List (ReadState × Turn) :=
  let pass := readPass timeouts state (turns.headD {})
  match _left : pass.exit with
  | some _ => [(state, turns.headD {})]
  | none =>
      (state, turns.headD {}) :: readPasses timeouts pass.state turns.tail
termination_by turns.length + state.pending.length
decreasing_by
  have progress := readPass_progress _left
  rcases progress.arrival with ⟨interrupted, same⟩ | arrived
  · cases turns with
    | nil => simp at interrupted
    | cons turn later =>
        rw [same]
        simp
  · rw [List.length_tail]
    omega

theorem readLoop_polls (timeouts : ReadTimeouts) (state : ReadState)
    (turns : List Turn) :
    (readLoop timeouts state turns).polls =
      (readPasses timeouts state turns).flatMap fun pass =>
        (readPass timeouts pass.1 pass.2).polls := by
  fun_induction readPasses timeouts state turns with
  | case1 state turns pass exit left =>
      rw [readLoop_left left, List.flatMap_singleton]
  | case2 state turns pass left induction =>
      rw [readLoop_continued left, List.flatMap_cons, ← induction]

/-! ## The start of a request -/

/-- A pass that goes on keeps a deadline.  Without one it was interrupted, or
bytes have arrived and set it. -/
inductive DeadlineStep (timeouts : ReadTimeouts) (turn : Turn) :
    Option Timespec → Option Timespec → Prop
  | kept (deadline : Timespec) :
      DeadlineStep timeouts turn (some deadline) (some deadline)
  | waiting (interrupted : turn.recv = .interrupted) :
      DeadlineStep timeouts turn none none
  | started {size : Nat} {now : Timespec}
      (delivered : turn.recv = .delivered size)
      (reading : turn.arrivalClock = some now) :
      DeadlineStep timeouts turn none
        (some (now.addSeconds timeouts.requestTimeoutSec))

theorem receiveBytes_deadline {timeouts : ReadTimeouts} {state : ReadState}
    {turn : Turn} {polls : List PollIssue}
    (continued : (receiveBytes timeouts state turn polls).exit = none) :
    DeadlineStep timeouts turn state.deadline
      (receiveBytes timeouts state turn polls).state.deadline := by
  unfold receiveBytes at continued ⊢
  cases answer : turn.recv with
  | interrupted =>
      cases before : state.deadline with
      | none => exact .waiting answer
      | some deadline => exact .kept deadline
  | wouldBlock => simp [answer, ReadState.leave] at continued
  | failed => simp [answer, ReadState.leave] at continued
  | delivered size =>
      by_cases drained : state.pending = []
      · simp [answer, drained, ReadState.discard, ReadState.leave]
          at continued
      simp only [answer, drained, if_false] at continued ⊢
      cases before : state.deadline with
      | some deadline => exact .kept deadline
      | none =>
          simp only [before] at continued ⊢
          cases arrival : turn.arrivalClock with
          | none => simp [arrival, ReadState.leave] at continued
          | some now =>
              simp only
              exact .started answer arrival

theorem fillBuffer_deadline {timeouts : ReadTimeouts} {state : ReadState}
    {need : Nat} {turn : Turn} {allocs : Allocs}
    (continued : (fillBuffer timeouts state need turn allocs).exit = none) :
    DeadlineStep timeouts turn state.deadline
      (fillBuffer timeouts state need turn allocs).state.deadline := by
  unfold fillBuffer at continued ⊢
  generalize ensureCapacity state.reader need allocs = grown
    at continued ⊢
  obtain ⟨⟨_ | _, reader⟩, later⟩ := grown
  · simp only at continued
    split_ifs at continued
    all_goals cases continued
  · simp only at continued ⊢
    split_ifs at continued ⊢
    · cases continued
    · generalize awaitBytes timeouts state.deadline turn = result
        at continued ⊢
      obtain ⟨_ | exit, polls⟩ := result
      · exact receiveBytes_deadline continued
      · cases continued

theorem readPass_deadline {timeouts : ReadTimeouts} {state : ReadState}
    {turn : Turn} (continued : (readPass timeouts state turn).exit = none) :
    DeadlineStep timeouts turn state.deadline
      (readPass timeouts state turn).state.deadline := by
  unfold readPass at continued ⊢
  generalize tryExtractLength state.reader turn.allocs = extracted
    at continued ⊢
  obtain ⟨failure | length, allocs⟩ := extracted
  · simp only at continued ⊢
    split_ifs at continued ⊢
    · cases continued
    · generalize bytesNeeded state.reader allocs = needed at continued ⊢
      obtain ⟨exit | need, later⟩ := needed
      · cases continued
      · exact fillBuffer_deadline continued
  · simp only at continued
    generalize takeMessage state.reader length allocs = copied at continued
    obtain ⟨_ | message, reader⟩ := copied
    all_goals cases continued

def RecvAnswer.isDelivery : RecvAnswer → Bool
  | .delivered _ => true
  | _ => false

/-- The reading behind the first delivery. -/
def arrivalReading (passes : List (ReadState × Turn)) : Option Timespec :=
  (passes.find? fun pass => pass.2.recv.isDelivery).bind fun pass =>
    pass.2.arrivalClock

theorem readPasses_kept {timeouts : ReadTimeouts} {state : ReadState}
    {turns : List Turn} {deadline : Timespec}
    (active : state.deadline = some deadline) :
    ∀ pass ∈ readPasses timeouts state turns,
      pass.1.deadline = some deadline := by
  fun_induction readPasses timeouts state turns with
  | case1 state turns pass exit left =>
      intro only member
      rw [List.mem_singleton.mp member]
      exact active
  | case2 state turns pass left induction =>
      have step := readPass_deadline left
      rw [active] at step
      intro other member
      rcases List.mem_cons.mp member with rfl | later
      · exact active
      · generalize after : pass.state.deadline = next at step
        cases step
        exact induction after other later

/-- A loop that starts without a deadline sets it at the first delivery. -/
theorem readPasses_started {timeouts : ReadTimeouts} {state : ReadState}
    {turns : List Turn} (idle : state.deadline = none) :
    ∀ pass ∈ readPasses timeouts state turns, ∀ deadline,
      pass.1.deadline = some deadline →
      ∃ start, arrivalReading (readPasses timeouts state turns) =
          some start ∧
        deadline = start.addSeconds timeouts.requestTimeoutSec := by
  fun_induction readPasses timeouts state turns with
  | case1 state turns pass exit left =>
      intro only member deadline active
      rw [List.mem_singleton.mp member, idle] at active
      cases active
  | case2 state turns pass left induction =>
      have step := readPass_deadline left
      rw [idle] at step
      intro other member deadline active
      rcases List.mem_cons.mp member with rfl | later
      · rw [idle] at active
        cases active
      generalize after : pass.state.deadline = next at step
      cases step with
      | waiting interrupted =>
          obtain ⟨start, found, same⟩ :=
            induction after other later deadline active
          refine ⟨start, ?_, same⟩
          rw [arrivalReading, List.find?_cons_of_neg]
          · exact found
          · rw [interrupted]
            decide
      | started delivered reading =>
          rename_i size now
          rw [readPasses_kept after other later, Option.some.injEq]
            at active
          refine ⟨now, ?_, active.symm⟩
          rw [arrivalReading, List.find?_cons_of_pos]
          · exact reading
          · rw [delivered]
            rfl

/-! ## Whole calls -/

def callPasses (timeouts : ReadTimeouts) (reader : Reader)
    (pending : Bytes) (env : ReadEnv) : List (ReadState × Turn) :=
  if reader.data.length > 0 then
    match env.entryClock with
    | none => []
    | some now =>
        readPasses timeouts.clamp
          { reader := reader, pending := pending
            deadline :=
              some (now.addSeconds timeouts.clamp.requestTimeoutSec) }
          env.turns
  else
    readPasses timeouts.clamp
      { reader := reader, pending := pending, deadline := none } env.turns

theorem httpReaderNextRequest_polls (timeouts : ReadTimeouts)
    (reader : Reader) (pending : Bytes) (env : ReadEnv) :
    (httpReaderNextRequest timeouts reader pending env).polls =
      (callPasses timeouts reader pending env).flatMap fun pass =>
        (readPass timeouts.clamp pass.1 pass.2).polls := by
  unfold httpReaderNextRequest callPasses
  simp only
  split_ifs
  · cases env.entryClock with
    | none => rfl
    | some now => exact readLoop_polls _ _ _
  · exact readLoop_polls _ _ _

/-- The reading that starts a request: at the entry of the call when bytes
are buffered, otherwise behind the first delivery. -/
def requestStart (timeouts : ReadTimeouts) (reader : Reader)
    (pending : Bytes) (env : ReadEnv) : Option Timespec :=
  if reader.data.length > 0 then env.entryClock
  else arrivalReading (callPasses timeouts reader pending env)

/-- There is one deadline in a call. -/
theorem callPasses_deadline (timeouts : ReadTimeouts) (reader : Reader)
    (pending : Bytes) (env : ReadEnv) :
    ∀ pass ∈ callPasses timeouts reader pending env, ∀ deadline,
      pass.1.deadline = some deadline →
      ∃ start, requestStart timeouts reader pending env = some start ∧
        deadline = start.addSeconds timeouts.clamp.requestTimeoutSec := by
  intro pass member deadline active
  unfold requestStart
  unfold callPasses at member ⊢
  split_ifs at member ⊢ with buffered
  · cases entry : env.entryClock with
    | none => simp [entry] at member
    | some now =>
        simp only [entry] at member
        rw [readPasses_kept rfl pass member, Option.some.injEq] at active
        exact ⟨now, rfl, active.symm⟩
  · exact readPasses_started rfl pass member deadline active

/-- All readings of the clock succeed. -/
structure Turn.Clocked (turn : Turn) : Prop where
  reading : ∃ now, turn.clock = some now ∧ now.Normal
  arrival : ∃ now, turn.arrivalClock = some now ∧ now.Normal

structure ReadEnv.Clocked (env : ReadEnv) : Prop where
  entry : ∃ now, env.entryClock = some now ∧ now.Normal
  turns : ∀ turn ∈ env.turns, turn.Clocked

theorem Turn.clocked_default : ({} : Turn).Clocked :=
  ⟨⟨_, rfl, by decide⟩, ⟨_, rfl, by decide⟩⟩

theorem readPasses_turn {timeouts : ReadTimeouts} {state : ReadState}
    {turns : List Turn} :
    ∀ pass ∈ readPasses timeouts state turns,
      pass.2 ∈ turns ∨ pass.2 = {} := by
  have first : ∀ turns : List Turn,
      turns.headD {} ∈ turns ∨ turns.headD {} = {} := by
    intro turns
    cases turns with
    | nil => exact .inr rfl
    | cons turn turns => exact .inl List.mem_cons_self
  fun_induction readPasses timeouts state turns with
  | case1 state turns pass exit left =>
      intro only member
      rw [List.mem_singleton.mp member]
      exact first turns
  | case2 state turns pass left induction =>
      intro other member
      rcases List.mem_cons.mp member with rfl | later
      · exact first turns
      · exact (induction other later).imp_left List.mem_of_mem_tail

theorem callPasses_turn {timeouts : ReadTimeouts} {reader : Reader}
    {pending : Bytes} {env : ReadEnv} :
    ∀ pass ∈ callPasses timeouts reader pending env,
      pass.2 ∈ env.turns ∨ pass.2 = {} := by
  unfold callPasses
  split_ifs
  · cases env.entryClock with
    | none => simp
    | some now => exact readPasses_turn
  · exact readPasses_turn

theorem callPasses_clocked {timeouts : ReadTimeouts} {reader : Reader}
    {pending : Bytes} {env : ReadEnv} (clocked : env.Clocked) :
    ∀ pass ∈ callPasses timeouts reader pending env, pass.2.Clocked := by
  intro pass member
  rcases callPasses_turn pass member with scripted | same
  · exact clocked.turns _ scripted
  · rw [same]
    exact Turn.clocked_default

/-- The times of a call in the order in which they are read. -/
def Turn.times (turn : Turn) : List Timespec :=
  turn.clock.toList ++ issueTimes turn.pollAt turn.polls ++
    turn.arrivalClock.toList

def ReadEnv.times (env : ReadEnv) : List Timespec :=
  env.entryClock.toList ++ env.turns.flatMap Turn.times

/-- Every poll under the deadline ends before it. -/
def KeepsDeadline (timeouts : ReadTimeouts) (reader : Reader)
    (pending : Bytes) (env : ReadEnv) : Prop :=
  ∀ pass ∈ callPasses timeouts reader pending env,
    ∀ deadline ∈ pass.1.deadline,
    ∀ poll ∈ (readPass timeouts.clamp pass.1 pass.2).polls,
      poll.issuedAt.nanoseconds + poll.timeoutMs * 1000000 ≤
        deadline.nanoseconds

instance (timeouts : ReadTimeouts) (reader : Reader) (pending : Bytes)
    (env : ReadEnv) : Decidable (KeepsDeadline timeouts reader pending env) :=
  inferInstanceAs (Decidable (∀ _ ∈ _, _))

/-- In every pass that gets to its wait under the deadline, the kernel lets
the call issue its polls promptly behind the reading of the pass, also those
that are issued again. -/
def PollsPromptly (timeouts : ReadTimeouts) (reader : Reader)
    (pending : Bytes) (env : ReadEnv) : Prop :=
  ∀ pass ∈ callPasses timeouts reader pending env,
    ∀ deadline ∈ pass.1.deadline, ∀ reading ∈ pass.2.clock,
    Awaits pass.1 pass.2 deadline reading →
    ∀ issued ∈ issueTimes pass.2.pollAt pass.2.polls,
      Prompt deadline reading issued

instance (timeouts : ReadTimeouts) (reader : Reader) (pending : Bytes)
    (env : ReadEnv) : Decidable (PollsPromptly timeouts reader pending env) :=
  inferInstanceAs (Decidable (∀ _ ∈ _, _))

theorem requestStart_normal {timeouts : ReadTimeouts} {reader : Reader}
    {pending : Bytes} {env : ReadEnv} (clocked : env.Clocked)
    {start : Timespec}
    (started : requestStart timeouts reader pending env = some start) :
    start.Normal := by
  unfold requestStart arrivalReading at started
  split_ifs at started
  · obtain ⟨now, entry, normal⟩ := clocked.entry
    rw [entry, Option.some.injEq] at started
    rw [← started]
    exact normal
  · obtain ⟨pass, found, reading⟩ := Option.bind_eq_some_iff.mp started
    obtain ⟨now, arrival, normal⟩ := (callPasses_clocked clocked pass
      (List.mem_of_find?_eq_some found)).arrival
    rw [arrival, Option.some.injEq] at reading
    rw [← reading]
    exact normal

theorem readPass_keeps_iff {timeouts : ReadTimeouts} {state : ReadState}
    {turn : Turn} {deadline reading : Timespec}
    (active : state.deadline = some deadline)
    (read : turn.clock = some reading) (deadlineNormal : deadline.Normal)
    (readingNormal : reading.Normal) :
    (∀ poll ∈ (readPass timeouts state turn).polls,
      poll.issuedAt.nanoseconds + poll.timeoutMs * 1000000 ≤
        deadline.nanoseconds) ↔
    (Awaits state turn deadline reading →
      ∀ issued ∈ issueTimes turn.pollAt turn.polls,
        Prompt deadline reading issued) := by
  have timeout : pollTimeoutMs timeouts state.deadline turn =
      remainingTimeoutMs deadline (some reading) := by
    simp only [pollTimeoutMs, active, read]
  rw [← readPass_polls_iff timeouts active read deadlineNormal readingNormal]
  rcases readPass_waits timeouts state turn with silent | ⟨waited, positive⟩
  · simp [silent]
  rw [timeout] at waited positive
  have remains := positive (by rw [active]; rfl)
  have times := waitReadable_issueTimes
    (remainingTimeoutMs deadline (some reading)) turn.pollAt turn.polls
  rw [← waited] at times
  have each : ∀ poll ∈ (readPass timeouts state turn).polls,
      (poll.issuedAt.nanoseconds + poll.timeoutMs * 1000000 ≤
          deadline.nanoseconds ↔
        Prompt deadline reading poll.issuedAt) := by
    intro poll member
    rw [waited] at member
    rw [waitReadable_timeoutMs poll member]
    exact ends_by_deadline_iff deadlineNormal readingNormal remains _
  rw [← times]
  constructor
  · intro keeps _ issued member
    obtain ⟨poll, issuedPoll, rfl⟩ := List.mem_map.mp member
    exact (each poll issuedPoll).mp (keeps poll issuedPoll)
  · intro prompt poll member
    exact (each poll member).mpr
      (prompt (List.ne_nil_of_mem member) _ (List.mem_map_of_mem member))

theorem callPasses_keeps_iff {timeouts : ReadTimeouts} {reader : Reader}
    {pending : Bytes} {env : ReadEnv} (clocked : env.Clocked)
    {pass : ReadState × Turn}
    (member : pass ∈ callPasses timeouts reader pending env)
    {deadline reading : Timespec} (active : pass.1.deadline = some deadline)
    (read : pass.2.clock = some reading) :
    (∀ poll ∈ (readPass timeouts.clamp pass.1 pass.2).polls,
      poll.issuedAt.nanoseconds + poll.timeoutMs * 1000000 ≤
        deadline.nanoseconds) ↔
    (Awaits pass.1 pass.2 deadline reading →
      ∀ issued ∈ issueTimes pass.2.pollAt pass.2.polls,
        Prompt deadline reading issued) := by
  obtain ⟨start, started, same⟩ := callPasses_deadline timeouts reader
    pending env pass member deadline active
  have readingNormal : reading.Normal := by
    obtain ⟨now, found, normal⟩ :=
      (callPasses_clocked clocked pass member).reading
    rw [read, Option.some.injEq] at found
    rw [found]
    exact normal
  have deadlineNormal : deadline.Normal := by
    rw [same]
    exact (requestStart_normal clocked started).addSeconds _
  exact readPass_keeps_iff active read deadlineNormal readingNormal

/-- The only deadline of a call is the request timeout behind its start, and
the polls end before it exactly when all of them are issued promptly. -/
theorem keepsDeadline_iff (timeouts : ReadTimeouts) (reader : Reader)
    (pending : Bytes) (env : ReadEnv) (clocked : env.Clocked) :
    (httpReaderNextRequest timeouts reader pending env).polls =
      ((callPasses timeouts reader pending env).flatMap fun pass =>
        (readPass timeouts.clamp pass.1 pass.2).polls) ∧
    (∀ pass ∈ callPasses timeouts reader pending env, ∀ deadline,
      pass.1.deadline = some deadline →
      ∃ start, requestStart timeouts reader pending env = some start ∧
        deadline = start.addSeconds timeouts.clamp.requestTimeoutSec) ∧
    (KeepsDeadline timeouts reader pending env ↔
      PollsPromptly timeouts reader pending env) := by
  refine ⟨httpReaderNextRequest_polls timeouts reader pending env,
    callPasses_deadline timeouts reader pending env, ?_, ?_⟩
  · intro keeps pass member deadline active reading read
    exact (callPasses_keeps_iff clocked member active read).mp
      (keeps pass member deadline active)
  · intro prompt pass member deadline active
    obtain ⟨reading, read, _⟩ :=
      (callPasses_clocked clocked pass member).reading
    exact (callPasses_keeps_iff clocked member active read).mpr
      (prompt pass member deadline active reading read)

/-- Polls that are issued at their readings, and only once each, keep the
deadline. -/
theorem keepsDeadline_uninterrupted {timeouts : ReadTimeouts}
    {reader : Reader} {pending : Bytes} {env : ReadEnv}
    (clocked : env.Clocked)
    (calm : ∀ turn ∈ env.turns, turn.clock = some turn.pollAt ∧
      ∀ reissuedAt, .interrupted reissuedAt ∉ turn.polls) :
    KeepsDeadline timeouts reader pending env := by
  intro pass member deadline active
  have quiet : pass.2.clock = some pass.2.pollAt ∧
      ∀ reissuedAt, .interrupted reissuedAt ∉ pass.2.polls := by
    rcases callPasses_turn pass member with scripted | same
    · exact calm _ scripted
    · rw [same]
      exact ⟨rfl, fun _ => List.not_mem_nil⟩
  refine (callPasses_keeps_iff clocked member active quiet.1).mpr ?_
  intro _ issued issuedAt
  rw [issueTimes_uninterrupted quiet.2] at issuedAt
  rw [List.mem_singleton.mp issuedAt]
  exact prompt_self deadline _

/-- The first byte arrives two seconds after the entry, and the rest does not
arrive in time. -/
def slowEnv : ReadEnv :=
  { turns := [
      { recv := .delivered 1, arrivalClock := some ⟨2, 500⟩ },
      { clock := some ⟨3, 0⟩, pollAt := ⟨3, 400⟩,
        polls := [.interrupted ⟨3, 450⟩, .expired] }] }

theorem slowEnv_clocked : slowEnv.Clocked := by
  refine ⟨⟨_, rfl, by decide⟩, ?_⟩
  simp only [slowEnv, List.forall_mem_cons]
  exact ⟨⟨⟨_, rfl, by decide⟩, ⟨_, rfl, by decide⟩⟩,
    ⟨⟨_, rfl, by decide⟩, ⟨_, rfl, by decide⟩⟩, by simp⟩

theorem keepsDeadline_iff_slow :
    slowEnv.Clocked ∧
    requestStart ⟨5, 10⟩ httpReaderInit (ascii "G") slowEnv = some ⟨2, 500⟩ ∧
    KeepsDeadline ⟨5, 10⟩ httpReaderInit (ascii "G") slowEnv :=
  ⟨slowEnv_clocked, by decide +kernel,
    (keepsDeadline_iff ⟨5, 10⟩ httpReaderInit (ascii "G") slowEnv
      slowEnv_clocked).2.2.mpr (by decide +kernel)⟩

/-- A signal after half a second starts the wait of one second again. -/
def interruptedEnv : ReadEnv :=
  { turns := [
      { polls := [.interrupted ⟨0, 500000000⟩, .expired]
        arrivalClock := some ⟨1, 500000000⟩ }] }

def firstByteReader : Reader :=
  { data := ascii "G", capacity := 8192, fits := by decide
    bounded := by decide }

theorem interruptedEnv_late :
    interruptedEnv.Clocked ∧
    interruptedEnv.times.Pairwise (fun earlier later =>
      earlier.nanoseconds ≤ later.nanoseconds) ∧
    (httpReaderNextRequest ⟨5, 1⟩ firstByteReader [] interruptedEnv).polls =
      [⟨⟨0, 0⟩, 1000⟩, ⟨⟨0, 500000000⟩, 1000⟩] ∧
    ¬ KeepsDeadline ⟨5, 1⟩ firstByteReader [] interruptedEnv := by
  refine ⟨⟨⟨_, rfl, by decide⟩, ?_⟩, by decide, by decide +kernel,
    by decide +kernel⟩
  simp only [interruptedEnv, List.forall_mem_singleton]
  exact ⟨⟨_, rfl, by decide⟩, ⟨_, rfl, by decide⟩⟩

end CinderHTTP
