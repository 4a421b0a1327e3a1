import CinderHTTP.Base.Transition
import CinderHTTP.Reader.Deadline
import CinderHTTP.Reader.Segmentation

/-!
# The buffer over a whole connection

The calls of `http_reader_next_request` on one connection are the runs of a
machine.  In all its states the buffer has the sizes that the doubling loop
gives it.  No unsigned subtraction of a call wraps around, every `recv` has
room, the checks that repeat those of `try_extract_length` are never taken,
and a message is only too large when its own bytes are.
-/

namespace CinderHTTP

/-! ## The doubling loop -/

/-- Turns of the doubling loop of `ensure_capacity`, from a capacity to the
one it stops at. -/
inductive GrowLoop (needed : Nat) : Nat → Nat → Nat → Prop where
  | enough {capacity : Nat} :
      needed ≤ capacity → GrowLoop needed capacity capacity 0
  | clamped {capacity : Nat} :
      capacity < needed → httpMaxMessageBytes / 2 < capacity →
      GrowLoop needed capacity httpMaxMessageBytes 1
  | doubled {capacity result turns : Nat} :
      capacity < needed → capacity ≤ httpMaxMessageBytes / 2 →
      GrowLoop needed (capacity * 2) result turns →
      GrowLoop needed capacity result (turns + 1)

theorem growCapacity_loop (needed : Nat) {capacity : Nat}
    (positive : 0 < capacity) :
    ∃ turns, GrowLoop needed capacity
      (growCapacity needed capacity positive) turns := by
  fun_induction growCapacity needed capacity positive with
  | case1 capacity positive small late => exact ⟨1, .clamped small late⟩
  | case2 capacity positive small early induction =>
      obtain ⟨turns, loop⟩ := induction
      exact ⟨turns + 1, .doubled small (Nat.le_of_not_lt early) loop⟩
  | case3 capacity positive enough =>
      exact ⟨0, .enough (Nat.le_of_not_lt enough)⟩

theorem GrowLoop.turns_bound {needed capacity result turns : Nat}
    (loop : GrowLoop needed capacity result turns)
    (bounded : capacity ≤ httpMaxMessageBytes) :
    capacity * 2 ^ turns ≤ 2 * httpMaxMessageBytes := by
  induction loop with
  | enough => omega
  | clamped => omega
  | doubled small early _ induction =>
      have rest := induction (by omega)
      rwa [Nat.mul_assoc, ← Nat.pow_succ'] at rest

/-- The capacities that occur: no buffer yet, or one of at least the initial
size. -/
def Reader.Sized (reader : Reader) : Prop :=
  reader.capacity = 0 ∨ httpReaderInitialCapacity ≤ reader.capacity

theorem Reader.Sized.start {reader : Reader} (sized : reader.Sized) :
    httpReaderInitialCapacity ≤ startCapacity reader.capacity := by
  rw [startCapacity]
  split_ifs with unused
  · exact Nat.le_refl _
  · exact sized.resolve_left unused

theorem Reader.Enlarged.sized {before after : Reader}
    (enlarged : before.Enlarged after) (sized : before.Sized) :
    after.Sized := by
  rcases enlarged.capacity with same | larger
  · rw [Reader.Sized, same]
    exact sized
  · exact .inr (Nat.le_trans sized.start larger)

/-- The capacity at which the doubling loop stops. -/
def grownCapacity (capacity needed : Nat) : Nat :=
  growCapacity needed (startCapacity capacity) (startCapacity_pos capacity)

theorem Reader.Sized.growLoop {reader : Reader} (sized : reader.Sized)
    (needed : Nat) :
    ∃ turns, turns ≤ 9 ∧
      GrowLoop needed (startCapacity reader.capacity)
        (grownCapacity reader.capacity needed) turns := by
  obtain ⟨turns, loop⟩ := growCapacity_loop needed
    (startCapacity_pos reader.capacity)
  refine ⟨turns, ?_, loop⟩
  have bound := loop.turns_bound (startCapacity_le reader.bounded)
  by_contra many
  have power : 2 ^ 10 ≤ 2 ^ turns :=
    Nat.pow_le_pow_right (by decide) (by omega)
  have product := Nat.mul_le_mul sized.start power
  simp only [httpReaderInitialCapacity, httpMaxMessageBytes,
    httpMaxHeaderBytes, httpMaxBodySize] at bound product
  omega

/-! ## The arithmetic of a pass -/

/-- The operands of `HTTP_MAX_MESSAGE_BYTES - header_bytes` where
`try_extract_length` evaluates it. -/
def extractSubtractions (reader : Reader) (allocs : Allocs) :
    List (Nat × Nat) :=
  match httpFindHeaderTerminator reader.data with
  | none => []
  | some headerEnd =>
      if headerEnd + 4 > httpMaxHeaderBytes then []
      else
        match httpInspectMessageFraming (reader.data.take (headerEnd + 4))
            allocs with
        | (.error _, _) => []
        | (.ok _, _) => [(httpMaxMessageBytes, headerEnd + 4)]

/-- The operands where `http_reader_next_request` evaluates it again, without
a check of the header section before it. -/
def needSubtractions (reader : Reader) (allocs : Allocs) :
    List (Nat × Nat) :=
  match httpFindHeaderTerminator reader.data with
  | none => []
  | some headerEnd =>
      match httpInspectMessageFraming (reader.data.take (headerEnd + 4))
          allocs with
      | (.error _, _) => []
      | (.ok _, _) => [(httpMaxMessageBytes, headerEnd + 4)]

/-- The operands of all unsigned subtractions that a pass evaluates. -/
def passSubtractions (state : ReadState) (turn : Turn) :
    List (Nat × Nat) :=
  extractSubtractions state.reader turn.allocs ++
    (match tryExtractLength state.reader turn.allocs with
    | (.ok messageLength, allocs) =>
        if (malloc allocs).1 then
          [(state.reader.data.length, messageLength)]
        else []
    | (.error failure, allocs) =>
        if failure ≠ .ioError then []
        else needSubtractions state.reader allocs) ++
    (grownReader state turn).toList.map fun grown =>
      (grown.capacity, grown.data.length)

/-- The size with which a pass calls `recv`. -/
def recvSpace (timeouts : ReadTimeouts) (state : ReadState) (turn : Turn) :
    Option Nat :=
  match grownReader state turn with
  | none => none
  | some grown =>
      if grown.space = 0 then none
      else
        match awaitBytes timeouts state.deadline turn with
        | (some _, _) => none
        | (none, _) => some grown.space

theorem extractSubtractions_sound (reader : Reader) (allocs : Allocs) :
    ∀ operands ∈ extractSubtractions reader allocs,
      operands.2 ≤ operands.1 := by
  intro operands member
  unfold extractSubtractions at member
  cases found : httpFindHeaderTerminator reader.data with
  | none => simp [found] at member
  | some headerEnd =>
      simp only [found] at member
      split_ifs at member with long
      · cases member
      rcases inspected : httpInspectMessageFraming
        (reader.data.take (headerEnd + 4)) allocs with
          ⟨failure | bodyLength, later⟩
      · simp [inspected] at member
      · simp only [inspected, List.mem_singleton] at member
        subst member
        exact Nat.le_trans (Nat.le_of_not_lt long) (Nat.le_add_right _ _)

/-- Behind an unfinished verdict the header section is within its limit. -/
theorem needSubtractions_sound {reader : Reader}
    (incomplete : frameHead reader.data = .error .clientClosed)
    (allocs : Allocs) :
    ∀ operands ∈ needSubtractions reader allocs,
      operands.2 ≤ operands.1 := by
  intro operands member
  unfold needSubtractions at member
  rcases frameHead_incomplete incomplete with
    ⟨found, -⟩ | ⟨headerEnd, bodyLength, found, small, -⟩
  · simp [found] at member
  · simp only [found] at member
    rcases inspected : httpInspectMessageFraming
      (reader.data.take (headerEnd + 4)) allocs with
        ⟨failure | announced, later⟩
    · simp [inspected] at member
    · simp only [inspected, List.mem_singleton] at member
      subst member
      exact Nat.le_trans small (Nat.le_add_right _ _)

theorem passSubtractions_sound (state : ReadState) (turn : Turn) :
    ∀ operands ∈ passSubtractions state turn, operands.2 ≤ operands.1 := by
  intro operands member
  have verdict := tryExtractLength_verdict state.reader turn.allocs
  rw [passSubtractions, List.mem_append, List.mem_append] at member
  rcases member with (extracting | between) | offering
  · exact extractSubtractions_sound _ _ operands extracting
  · rcases extracted : tryExtractLength state.reader turn.allocs with
      ⟨failure | length, allocs⟩
    · simp only [extracted] at between verdict
      split_ifs at between with refused
      · cases between
      rw [not_not.mp refused] at verdict
      rcases verdict with ⟨_, exhausted⟩ | settled
      · cases exhausted
      · exact needSubtractions_sound
          (bufferVerdict_eq_ioError settled.symm) allocs operands between
    · simp only [extracted] at between verdict
      split_ifs at between with copied
      · rw [List.mem_singleton.mp between]
        rcases verdict with ⟨_, exhausted⟩ | settled
        · cases exhausted
        · exact (frameHead_pos (bufferVerdict_eq_ok settled.symm)).2
      · cases between
  · obtain ⟨grown, -, rfl⟩ := List.mem_map.mp offering
    exact grown.fits

theorem recvSpace_pos {timeouts : ReadTimeouts} {state : ReadState}
    {turn : Turn} {space : Nat}
    (issued : recvSpace timeouts state turn = some space) : 1 ≤ space := by
  unfold recvSpace at issued
  cases reached : grownReader state turn with
  | none => simp [reached] at issued
  | some grown =>
      simp only [reached] at issued
      split_ifs at issued with full
      rcases waited : awaitBytes timeouts state.deadline turn with
        ⟨_ | exit, polls⟩
      · simp only [waited, Option.some.injEq] at issued
        omega
      · simp [waited] at issued

theorem readPass_untouched {timeouts : ReadTimeouts} {state : ReadState}
    {turn : Turn} (unissued : recvSpace timeouts state turn = none) :
    (readPass timeouts state turn).state.pending = state.pending := by
  unfold recvSpace at unissued
  cases reached : grownReader state turn with
  | none => exact (readPass_ungrown timeouts reached).2
  | some grown =>
      rw [readPass_grown timeouts reached, fillGrown]
      simp only [reached] at unissued
      split_ifs at unissued ⊢
      · rfl
      rcases waited : awaitBytes timeouts state.deadline turn with
        ⟨_ | exit, polls⟩
      · simp [waited] at unissued
      · rfl

/-! ## Repeated checks -/

/-- The exits at checks that repeat those of `try_extract_length`. -/
def ReadExit.repeated : ReadExit → Bool
  | .secondLengthCheck | .needCovered | .secondFraming _ | .bodyTooLarge
  | .needOverMaximum | .noSpace => true
  | _ => false

theorem awaitBytes_not_repeated {timeouts : ReadTimeouts}
    {deadline : Option Timespec} {turn : Turn} {exit : ReadExit}
    {polls : List PollIssue}
    (left : awaitBytes timeouts deadline turn = (some exit, polls)) :
    exit.repeated = false := by
  unfold awaitBytes at left
  simp only at left
  split_ifs at left
  · cases left
    rfl
  · rcases waited : waitReadable (pollTimeoutMs timeouts deadline turn)
      turn.pollAt turn.polls with ⟨_ | _ | _, issued⟩
    · simp [waited] at left
    · simp only [waited] at left
      cases left
      rfl
    · simp only [waited] at left
      cases left
      rfl

theorem receiveBytes_not_repeated {timeouts : ReadTimeouts}
    {state : ReadState} {turn : Turn} {polls : List PollIssue}
    {exit : ReadExit}
    (left : (receiveBytes timeouts state turn polls).exit = some exit) :
    exit.repeated = false := by
  unfold receiveBytes at left
  cases answer : turn.recv with
  | interrupted => simp [answer] at left
  | wouldBlock =>
      simp only [answer] at left
      cases left
      rfl
  | failed =>
      simp only [answer] at left
      cases left
      rfl
  | delivered size =>
      simp only [answer] at left
      split_ifs at left
      · cases left
        rfl
      · cases started : state.deadline with
        | some deadline => simp [started] at left
        | none =>
            cases arrival : turn.arrivalClock with
            | some now => simp [started, arrival] at left
            | none =>
                simp only [started, arrival] at left
                cases left
                rfl

theorem readPass_not_repeated {timeouts : ReadTimeouts} {state : ReadState}
    {turn : Turn} (granted : turn.allocs = []) {exit : ReadExit}
    (left : (readPass timeouts state turn).exit = some exit) :
    exit.repeated = false := by
  have course := readPass_course timeouts state turn
  generalize readPass timeouts state turn = pass at left course
  cases course with
  | notCopied | taken | exhausted | refused | notGrown =>
      cases left
      rfl
  | notInspected _ answered => exact absurd granted answered
  | notReady _ _ _ waited =>
      cases left
      exact awaitBytes_not_repeated waited
  | received => exact receiveBytes_not_repeated left

/-! ## Passes of a loop -/

/-- What every pass keeps holds before each pass of a loop and behind the
last one. -/
theorem readLoop_invariant {timeouts : ReadTimeouts}
    {holds : ReadState → Prop}
    (kept : ∀ state turn, holds state →
      holds (readPass timeouts state turn).state)
    (state : ReadState) (turns : List Turn) (initial : holds state) :
    (∀ pass ∈ readPasses timeouts state turns, holds pass.1) ∧
      ∃ deadline, holds
        { reader := (readLoop timeouts state turns).reader
          pending := (readLoop timeouts state turns).pending
          deadline := deadline } := by
  fun_induction readPasses timeouts state turns with
  | case1 state turns pass exit left =>
      refine ⟨?_, pass.state.deadline, ?_⟩
      · intro pass member
        rw [List.mem_singleton.mp member]
        exact initial
      · rw [readLoop_left left]
        exact kept _ _ initial
  | case2 state turns pass left induction =>
      obtain ⟨passes, deadline, behind⟩ := induction (kept _ _ initial)
      refine ⟨?_, deadline, ?_⟩
      · intro other member
        rcases List.mem_cons.mp member with rfl | later
        · exact initial
        · exact passes other later
      · rw [readLoop_continued left]
        exact behind

theorem readLoop_exit (timeouts : ReadTimeouts) (state : ReadState)
    (turns : List Turn) :
    ∃ pass ∈ readPasses timeouts state turns,
      (readPass timeouts pass.1 pass.2).exit =
        some (readLoop timeouts state turns).exit := by
  fun_induction readPasses timeouts state turns with
  | case1 state turns pass exit left =>
      refine ⟨_, List.mem_singleton_self _, ?_⟩
      rw [readLoop_left left]
      exact left
  | case2 state turns pass left induction =>
      obtain ⟨last, member, leaving⟩ := induction
      refine ⟨last, List.mem_cons_of_mem _ member, ?_⟩
      rw [leaving, readLoop_continued left]

/-! ## Messages over a limit -/

/-- The first message of a stream is over a limit: its header section does
not end within the largest size, or a line of the section announces a body
over the limit. -/
def OverLimit (stream : Bytes) : Prop :=
  (httpMaxHeaderBytes ≤ stream.length ∧
    ¬blankLine <:+: stream.take httpMaxHeaderBytes) ∨
  ∃ terminator start earlier line rest,
    httpFindHeaderTerminator stream = some terminator ∧
    terminator + 4 ≤ httpMaxHeaderBytes ∧
    stream.take (terminator + 4) =
      joinLines (start :: earlier) ++ line ++ crlf ++ rest ∧
    OversizeLine line

theorem not_blankLine_infix_take {stream : Bytes} {length : Nat}
    (late : ∀ terminator, httpFindHeaderTerminator stream =
      some terminator → length < terminator + 4) :
    ¬blankLine <:+: stream.take length := by
  rintro ⟨before, after, whole⟩
  have occurs : blankLine <+: (stream.take length).drop before.length := by
    rw [← whole, List.append_assoc, List.drop_left]
    exact List.prefix_append _ _
  have inside : before.length ≤ (stream.take length).length := by
    rw [← whole]
    simp
  obtain ⟨terminator, -, found⟩ := findInfix_of_occurs occurs inside
  have bound := findInfix_bound found
  have extended := findInfix_append found (stream.drop length)
  rw [List.take_append_drop] at extended
  have beyond := late terminator extended
  rw [List.length_take] at bound
  change terminator + 4 ≤ _ at bound
  omega

theorem mapFramingError_eq_tooLarge {failure : ParseError}
    (large : mapFramingError failure = .tooLarge) : failure = .tooLarge := by
  cases failure with
  | tooLarge => rfl
  | _ => cases large

theorem overLimit_of_frameHead {stream : Bytes}
    (refused : frameHead stream = .error .tooLarge) : OverLimit stream := by
  unfold frameHead at refused
  cases found : httpFindHeaderTerminator stream with
  | none =>
      simp only [found] at refused
      split_ifs at refused with long
      · refine .inl ⟨long, not_blankLine_infix_take ?_⟩
        intro terminator other
        rw [found] at other
        cases other
      · cases refused
  | some terminator =>
      simp only [found] at refused
      split_ifs at refused with long
      · have covered : terminator + 4 ≤ stream.length :=
          findInfix_bound found
        refine .inl ⟨by omega, not_blankLine_infix_take ?_⟩
        intro other same
        rw [found] at same
        cases same
        exact long
      · rcases framing : httpInspectMessageFraming
          (stream.take (terminator + 4)) [] with
            ⟨failure | bodyLength, later⟩
        · simp only [framing, Except.error.injEq] at refused
          rw [mapFramingError_eq_tooLarge refused] at framing
          obtain ⟨start, earlier, line, rest, whole, oversize⟩ :=
            httpInspectMessageFraming_tooLarge framing
          exact .inr ⟨terminator, start, earlier, line, rest, found,
            Nat.le_of_not_lt long, whole, oversize⟩
        · simp only [framing] at refused
          split_ifs at refused
          cases refused

/-! ## Connections -/

/-- The reader of a connection with the bytes not yet received.  Every step
is a call, under any timeouts and any answers of the kernel. -/
def readerMachine (stream : Bytes) :
    Machine (Reader × Bytes) (ReadTimeouts × ReadEnv) where
  Start connection := connection = (httpReaderInit, stream)
  next connection call :=
    let outcome := httpReaderNextRequest call.1 connection.1 connection.2
      call.2
    some (outcome.reader, outcome.pending)

/-- What a pass keeps: the buffer holds bytes only under a deadline, and with
those not yet received it holds the end of the stream. -/
structure ReadState.Consistent (stream : Bytes) (state : ReadState) :
    Prop where
  idle : state.deadline = none → state.reader.data = []
  suffix : state.reader.data ++ state.pending <:+ stream
  sized : state.reader.Sized

theorem ReadState.Consistent.discard {stream : Bytes} {state : ReadState}
    (consistent : state.Consistent stream) (exit : ReadExit)
    (polls : List PollIssue) :
    (state.discard exit polls).state.Consistent stream := by
  refine ⟨fun _ => rfl, ?_, consistent.sized⟩
  exact (List.suffix_append _ _).trans consistent.suffix

theorem ReadState.Consistent.running {stream : Bytes} {state : ReadState}
    {deadline : Timespec} (started : state.deadline = some deadline)
    (suffix : state.reader.data ++ state.pending <:+ stream)
    (sized : state.reader.Sized) : state.Consistent stream := by
  refine ⟨?_, suffix, sized⟩
  intro idle
  rw [started] at idle
  cases idle

theorem ReadState.Consistent.enlarge {stream : Bytes} {state : ReadState}
    (consistent : state.Consistent stream) {reader : Reader}
    (enlarged : state.reader.Enlarged reader) :
    { state with reader := reader }.Consistent stream := by
  refine ⟨?_, ?_, enlarged.sized consistent.sized⟩
  · intro idle
    rw [enlarged.data]
    exact consistent.idle idle
  · rw [enlarged.data]
    exact consistent.suffix

theorem receiveBytes_consistent {timeouts : ReadTimeouts} {stream : Bytes}
    {state : ReadState} (consistent : state.Consistent stream) (turn : Turn)
    (polls : List PollIssue) :
    (receiveBytes timeouts state turn polls).state.Consistent stream := by
  unfold receiveBytes
  cases turn.recv with
  | interrupted => exact consistent
  | wouldBlock => exact consistent
  | failed => exact consistent
  | delivered size =>
      simp only
      split_ifs with drained
      · exact consistent.discard _ _
      have stored : state.reader.data ++
          delivery state.reader state.pending size ++
            state.pending.drop (delivery state.reader state.pending
              size).length <:+ stream := by
        rw [List.append_assoc, delivery_append_drop]
        exact consistent.suffix
      cases started : state.deadline with
      | some deadline => exact .running rfl stored consistent.sized
      | none =>
          cases turn.arrivalClock with
          | some now => exact .running rfl stored consistent.sized
          | none =>
              -- the bytes are lost, but none were stored before them
              have empty := consistent.idle started
              have waiting := consistent.suffix
              rw [empty, List.nil_append] at waiting
              refine ⟨fun _ => empty, ?_, consistent.sized⟩
              change state.reader.data ++ _ <:+ stream
              rw [empty, List.nil_append]
              exact (List.drop_suffix _ _).trans waiting

theorem readPass_consistent {timeouts : ReadTimeouts} {stream : Bytes}
    (state : ReadState) (turn : Turn)
    (consistent : state.Consistent stream) :
    (readPass timeouts state turn).state.Consistent stream := by
  have course := readPass_course timeouts state turn
  generalize readPass timeouts state turn = pass at course ⊢
  cases course with
  | notCopied | notGrown => exact consistent
  | exhausted | refused | notInspected => exact consistent.discard _ _
  | taken framed =>
      refine ⟨?_, ?_, consistent.sized⟩
      · intro idle
        change state.reader.data.drop _ = []
        rw [consistent.idle idle, List.drop_nil]
      · change state.reader.data.drop _ ++ state.pending <:+ stream
        apply List.IsSuffix.trans _ consistent.suffix
        exact ⟨state.reader.data.take _, by
          rw [← List.append_assoc, List.take_append_drop]⟩
  | notReady _ enlarged => exact consistent.enlarge enlarged
  | received _ enlarged =>
      exact receiveBytes_consistent (consistent.enlarge enlarged) _ _

theorem httpReaderNextRequest_consistent {stream : Bytes} {reader : Reader}
    {pending : Bytes} (suffix : reader.data ++ pending <:+ stream)
    (sized : reader.Sized) (timeouts : ReadTimeouts) (env : ReadEnv) :
    (∀ pass ∈ callPasses timeouts reader pending env,
      pass.1.Consistent stream) ∧
    ∃ deadline, ReadState.Consistent stream
      { reader := (httpReaderNextRequest timeouts reader pending env).reader
        pending :=
          (httpReaderNextRequest timeouts reader pending env).pending
        deadline := deadline } := by
  unfold httpReaderNextRequest callPasses
  simp only
  split_ifs with buffered
  · cases env.entryClock with
    | none =>
        exact ⟨by simp, some ⟨0, 0⟩, .running rfl suffix sized⟩
    | some now =>
        exact readLoop_invariant readPass_consistent _ _
          (.running rfl suffix sized)
  · have empty : reader.data = [] :=
      List.length_eq_zero_iff.mp (Nat.eq_zero_of_not_pos buffered)
    exact readLoop_invariant readPass_consistent _ _
      ⟨fun _ => empty, suffix, sized⟩

theorem readerMachine_consistent {stream : Bytes}
    {connection : Reader × Bytes}
    (reachable : (readerMachine stream).Reachable connection) :
    connection.1.data ++ connection.2 <:+ stream ∧ connection.1.Sized := by
  apply reachable.invariant
  · rintro start rfl
    exact ⟨List.suffix_refl _, .inl rfl⟩
  · rintro before ⟨timeouts, env⟩ after ⟨suffix, sized⟩ stepped
    cases stepped
    obtain ⟨-, deadline, behind⟩ :=
      httpReaderNextRequest_consistent suffix sized timeouts env
    exact ⟨behind.suffix, behind.sized⟩

/-- A call leaves at a repeated check only when an allocation fails. -/
theorem httpReaderNextRequest_not_repeated {timeouts : ReadTimeouts}
    {reader : Reader} {pending : Bytes} {env : ReadEnv}
    (granted : ∀ turn ∈ env.turns, turn.allocs = []) :
    (httpReaderNextRequest timeouts reader pending
      env).exit.repeated = false := by
  have passing : ∀ state, (readLoop timeouts.clamp state
      env.turns).exit.repeated = false := by
    intro state
    obtain ⟨pass, member, left⟩ :=
      readLoop_exit timeouts.clamp state env.turns
    apply readPass_not_repeated _ left
    rcases readPasses_turn pass member with scripted | default
    · exact granted _ scripted
    · rw [default]
  unfold httpReaderNextRequest
  simp only
  split_ifs
  · cases env.entryClock with
    | none => rfl
    | some now => exact passing _
  · exact passing _

/-! ## The invariant of the buffer -/

/-- The sizes of a buffer are as they should be, and it can grow to any size
that a message may need. -/
structure Reader.Safe (reader : Reader) : Prop where
  stored : reader.data.length ≤ reader.capacity
  bounded : reader.capacity ≤ httpMaxMessageBytes
  terminates : ∀ needed, ∃ turns, turns ≤ 9 ∧
    GrowLoop needed (startCapacity reader.capacity)
      (grownCapacity reader.capacity needed) turns
  grows : ∀ needed ≤ httpMaxMessageBytes,
    needed ≤ grownCapacity reader.capacity needed ∧
      grownCapacity reader.capacity needed ≤ httpMaxMessageBytes

/-- The arithmetic of a pass is exact and its `recv` has room. -/
structure PassSafe (timeouts : ReadTimeouts) (state : ReadState)
    (turn : Turn) : Prop where
  buffer : state.reader.Safe
  exact : ∀ operands ∈ passSubtractions state turn,
    operands.2 ≤ operands.1
  room : ∀ space ∈ recvSpace timeouts state turn, 1 ≤ space
  /-- The buffer that the pass receives into is the enlarged one. -/
  receives : ∀ grown ∈ grownReader state turn,
    readPass timeouts state turn = fillGrown timeouts state grown turn
  /-- Without a `recv` no byte is taken off the socket. -/
  untouched : recvSpace timeouts state turn = none →
    (readPass timeouts state turn).state.pending = state.pending
  guards : turn.allocs = [] →
    ∀ exit ∈ (readPass timeouts state turn).exit, exit.repeated = false

/-- A call on the bytes of a connection. -/
structure CallSafe (timeouts : ReadTimeouts) (reader : Reader)
    (pending : Bytes) (env : ReadEnv) : Prop where
  passes : ∀ pass ∈ callPasses timeouts reader pending env,
    PassSafe timeouts.clamp pass.1 pass.2
  behind : (httpReaderNextRequest timeouts reader pending env).reader.Safe
  guards : (∀ turn ∈ env.turns, turn.allocs = []) →
    (httpReaderNextRequest timeouts reader pending
      env).exit.repeated = false
  tooLarge : (httpReaderNextRequest timeouts reader pending
      env).exit.result = .error .tooLarge →
    OverLimit (reader.data ++ pending)
  message : ∀ message, (httpReaderNextRequest timeouts reader pending
      env).exit.result = .ok message →
    reader.data ++ pending = message ++
      ((httpReaderNextRequest timeouts reader pending env).reader.data ++
        (httpReaderNextRequest timeouts reader pending env).pending)

theorem Reader.Sized.safe {reader : Reader} (sized : reader.Sized) :
    reader.Safe := by
  refine ⟨reader.fits, reader.bounded, sized.growLoop, ?_⟩
  intro needed fits
  exact growCapacity_sized (startCapacity_pos reader.capacity) fits
    (startCapacity_le reader.bounded)

/-- In every state of every connection the buffer is safe and every call on
it is.  The buffer and the bytes to come are what earlier calls have left of
the stream, and a message that is refused as too large is over a limit by
itself. -/
theorem httpReader_safe (stream : Bytes) {connection : Reader × Bytes}
    (reachable : (readerMachine stream).Reachable connection) :
    connection.1.Safe ∧ connection.1.data ++ connection.2 <:+ stream ∧
      ∀ timeouts env, CallSafe timeouts connection.1 connection.2 env := by
  obtain ⟨suffix, sized⟩ := readerMachine_consistent reachable
  refine ⟨sized.safe, suffix, ?_⟩
  intro timeouts env
  obtain ⟨passes, deadline, behind⟩ :=
    httpReaderNextRequest_consistent suffix sized timeouts env
  constructor
  · intro pass member
    exact
      { buffer := (passes pass member).sized.safe
        exact := passSubtractions_sound pass.1 pass.2
        room := fun space issued => recvSpace_pos issued
        receives := fun grown reached => readPass_grown _ reached
        untouched := readPass_untouched
        guards := fun granted exit left =>
          readPass_not_repeated granted left }
  · exact behind.sized.safe
  · exact httpReaderNextRequest_not_repeated
  · intro refused
    apply overLimit_of_frameHead
    rcases httpReaderNextRequest_failure refused with
      framed | late | ⟨external, -⟩
    · exact framed
    · cases late
    · rcases external with input | memory
      · cases input
      · cases memory
  · intro message success
    exact (httpReaderNextRequest_message success).2

/-- Two requests that arrive together. -/
def pipelinedPair : Bytes :=
  ascii "GET / HTTP/1.1\r\n\r\nGET / HTTP/1.0\r\n\r\n"

/-- The connection behind the first of them. -/
def pipelinedConnection : Reader × Bytes :=
  let outcome := httpReaderNextRequest ⟨15, 30⟩ httpReaderInit pipelinedPair
    {}
  (outcome.reader, outcome.pending)

theorem httpReader_safe_pipelined :
    pipelinedConnection.1.data = ascii "GET / HTTP/1.0\r\n\r\n" ∧
      pipelinedConnection.1.Safe := by
  have stepped : (readerMachine pipelinedPair).next
      (httpReaderInit, pipelinedPair) (⟨15, 30⟩, {}) =
        some pipelinedConnection := rfl
  have reachable : (readerMachine pipelinedPair).Reachable
      pipelinedConnection := Machine.Reachable.step (.start rfl) stepped
  exact ⟨by decide +kernel, (httpReader_safe pipelinedPair reachable).1⟩

end CinderHTTP
