import CinderHTTP.Reader.Buffer
import CinderHTTP.Reader.Wait

/-!
# Reading the next request

`http_reader_next_request` on a connection whose peer sends a fixed stream of
bytes and then closes its side.  The part of the stream that has not been
received yet is `pending`.  Everything the kernel answers during one pass of
the loop is a `Turn`; a call takes its turns from a script, and when the
script is exhausted the socket is readable and delivers what there is room
for.  One pass is `readPass` and the loop is `readLoop`.
-/

namespace CinderHTTP

structure ReadTimeouts where
  keepAliveTimeoutSec : Int
  requestTimeoutSec : Int
  deriving DecidableEq, Repr

/-- Timeouts below one second are raised to one second. -/
def ReadTimeouts.clamp (timeouts : ReadTimeouts) : ReadTimeouts :=
  { keepAliveTimeoutSec :=
      if timeouts.keepAliveTimeoutSec < 1 then 1
      else timeouts.keepAliveTimeoutSec
    requestTimeoutSec :=
      if timeouts.requestTimeoutSec < 1 then 1
      else timeouts.requestTimeoutSec }

/-- One answer of `recv`.  A delivery asks for a size, of which at least one
byte and at most the room in the buffer is delivered. -/
inductive RecvAnswer where
  | interrupted
  | wouldBlock
  | failed
  | delivered (size : Nat)
  deriving DecidableEq, Repr

/-- The answers of the kernel in one pass of the read loop. -/
structure Turn where
  allocs : Allocs := []
  clock : Option Timespec := some { sec := 0, nsec := 0 }
  pollAt : Timespec := { sec := 0, nsec := 0 }
  polls : List PollAnswer := []
  recv : RecvAnswer := .delivered httpMaxMessageBytes
  arrivalClock : Option Timespec := some { sec := 0, nsec := 0 }
  deriving DecidableEq, Repr

/-- The `return` statements of `http_reader_next_request`, in source order;
the last two of `taken` are those of `take_message`. -/
inductive ReadExit where
  | entryClock
  | takeAllocation
  | taken (message : Bytes)
  | extract (failure : ReadError)
  | secondLengthCheck
  | needCovered
  | secondFraming (failure : ReadError)
  | bodyTooLarge
  | needOverMaximum
  | growAllocation
  | noSpace
  | deadlinePassed
  | waitTimeout
  | waitError
  | recvWouldBlock
  | recvFailed
  | closed
  | arrivalClock
  deriving DecidableEq, Repr

/-- The result code returned at each exit, with the message. -/
def ReadExit.result : ReadExit → Except ReadError Bytes
  | .entryClock => .error .ioError
  | .takeAllocation => .error .outOfMemory
  | .taken message => .ok message
  | .extract failure => .error failure
  | .secondLengthCheck => .error .tooLarge
  | .needCovered => .error .tooLarge
  | .secondFraming failure => .error failure
  | .bodyTooLarge => .error .tooLarge
  | .needOverMaximum => .error .tooLarge
  | .growAllocation => .error .outOfMemory
  | .noSpace => .error .tooLarge
  | .deadlinePassed => .error .timeout
  | .waitTimeout => .error .timeout
  | .waitError => .error .ioError
  | .recvWouldBlock => .error .timeout
  | .recvFailed => .error .ioError
  | .closed => .error .clientClosed
  | .arrivalClock => .error .ioError

/-- The variables of the loop, with the bytes still to be received. -/
structure ReadState where
  reader : Reader
  pending : Bytes
  deadline : Option Timespec
  deriving DecidableEq

/-- A pass of the loop: how it leaves the loop, if it does, the variables
after it and the polls that it issued. -/
structure ReadPass where
  exit : Option ReadExit
  state : ReadState
  polls : List PollIssue
  deriving DecidableEq

def ReadState.leave (state : ReadState) (exit : ReadExit)
    (polls : List PollIssue) : ReadPass :=
  { exit := some exit, state := state, polls := polls }

/-- Leaving the loop with `reader->length = 0`. -/
def ReadState.discard (state : ReadState) (exit : ReadExit)
    (polls : List PollIssue) : ReadPass :=
  { state with reader := state.reader.clear }.leave exit polls

/-! ## One pass -/

/-- The buffer size asked for when the first message is incomplete. -/
def bytesNeeded (reader : Reader) (allocs : Allocs) :
    Except ReadExit Nat × Allocs :=
  let need := reader.data.length + httpReaderRecvChunk
  match httpFindHeaderTerminator reader.data with
  | none =>
      if reader.data.length ≥ httpMaxHeaderBytes then
        (.error .secondLengthCheck, allocs)
      else
        let capped :=
          if need > httpMaxHeaderBytes then httpMaxHeaderBytes else need
        if capped ≤ reader.data.length then (.error .needCovered, allocs)
        else (.ok capped, allocs)
  | some headerEnd =>
      let headerBytes := headerEnd + 4
      match httpInspectMessageFraming (reader.data.take headerBytes)
          allocs with
      | (.error failure, later) =>
          (.error (.secondFraming (mapFramingError failure)), later)
      | (.ok bodyLength, later) =>
          if bodyLength > httpMaxMessageBytes - headerBytes then
            (.error .bodyTooLarge, later)
          else (.ok (headerBytes + bodyLength), later)

/-- The timeout of the next `poll`. -/
def pollTimeoutMs (timeouts : ReadTimeouts) (deadline : Option Timespec)
    (turn : Turn) : Int :=
  match deadline with
  | none => idleTimeoutMs timeouts.keepAliveTimeoutSec
  | some deadline => remainingTimeoutMs deadline turn.clock

/-- Waiting until the socket is readable. -/
def awaitBytes (timeouts : ReadTimeouts) (deadline : Option Timespec)
    (turn : Turn) : Option ReadExit × List PollIssue :=
  let timeoutMs := pollTimeoutMs timeouts deadline turn
  if deadline.isSome && timeoutMs == 0 then (some .deadlinePassed, [])
  else
    match waitReadable timeoutMs turn.pollAt turn.polls with
    | (.timeout, polls) => (some .waitTimeout, polls)
    | (.error, polls) => (some .waitError, polls)
    | (.readable, polls) => (none, polls)

/-- The bytes of one delivery. -/
def delivery (reader : Reader) (pending : Bytes) (size : Nat) : Bytes :=
  pending.take (min (max size 1) reader.space)

theorem delivery_room (reader : Reader) (pending : Bytes) (size : Nat) :
    (delivery reader pending size).length ≤ reader.space := by
  rw [delivery, List.length_take]
  exact Nat.le_trans (Nat.min_le_left _ _) (Nat.min_le_right _ _)

/-- Storing what one `recv` delivers. -/
def receiveBytes (timeouts : ReadTimeouts) (state : ReadState) (turn : Turn)
    (polls : List PollIssue) : ReadPass :=
  match turn.recv with
  | .interrupted => { exit := none, state := state, polls := polls }
  | .wouldBlock => state.leave .recvWouldBlock polls
  | .failed => state.leave .recvFailed polls
  | .delivered size =>
      if state.pending = [] then state.discard .closed polls
      else
        let received := delivery state.reader state.pending size
        let stored : ReadState :=
          { reader := state.reader.store received (delivery_room _ _ _)
            pending := state.pending.drop received.length
            deadline := state.deadline }
        match state.deadline with
        | some _ => { exit := none, state := stored, polls := polls }
        | none =>
            match turn.arrivalClock with
            | none =>
                -- the received bytes are not counted
                { stored with reader := state.reader }.leave .arrivalClock
                  polls
            | some now =>
                { exit := none
                  state := { stored with
                    deadline :=
                      some (now.addSeconds timeouts.requestTimeoutSec) }
                  polls := polls }

/-- The part of a pass behind the computation of `need`. -/
def fillBuffer (timeouts : ReadTimeouts) (state : ReadState) (need : Nat)
    (turn : Turn) (allocs : Allocs) : ReadPass :=
  match ensureCapacity state.reader need allocs with
  | ((false, reader), _) =>
      if need > httpMaxMessageBytes then
        { state with reader := reader }.discard .needOverMaximum []
      else { state with reader := reader }.leave .growAllocation []
  | ((true, reader), _) =>
      if reader.space = 0 then
        { state with reader := reader }.discard .noSpace []
      else
        match awaitBytes timeouts state.deadline turn with
        | (some exit, polls) =>
            { state with reader := reader }.leave exit polls
        | (none, polls) =>
            receiveBytes timeouts { state with reader := reader } turn polls

def readPass (timeouts : ReadTimeouts) (state : ReadState) (turn : Turn) :
    ReadPass :=
  match tryExtractLength state.reader turn.allocs with
  | (.ok messageLength, allocs) =>
      match takeMessage state.reader messageLength allocs with
      | (none, _) => state.leave .takeAllocation []
      | (some message, reader) =>
          { state with reader := reader }.leave (.taken message) []
  | (.error failure, allocs) =>
      if failure ≠ .ioError then state.discard (.extract failure) []
      else
        match bytesNeeded state.reader allocs with
        | (.error exit, _) => state.discard exit []
        | (.ok need, later) => fillBuffer timeouts state need turn later

/-! ## Passes that continue -/

/-- Between two states of one loop no byte is lost or reordered, and unless
the call was interrupted a byte has arrived. -/
structure Progress (turn : Turn) (before after : ReadState) : Prop where
  conserved : after.reader.data ++ after.pending =
    before.reader.data ++ before.pending
  arrival : (turn.recv = .interrupted ∧ after.pending = before.pending) ∨
    after.pending.length < before.pending.length

theorem delivery_append_drop (reader : Reader) (pending : Bytes)
    (size : Nat) :
    delivery reader pending size ++
      pending.drop (delivery reader pending size).length = pending := by
  rw [delivery, List.length_take]
  rcases Nat.le_total (min (max size 1) reader.space) pending.length with
    within | beyond
  · rw [Nat.min_eq_left within, List.take_append_drop]
  · rw [Nat.min_eq_right beyond, List.take_of_length_le beyond,
      List.drop_length, List.append_nil]

theorem delivery_length_pos {reader : Reader} {pending : Bytes} {size : Nat}
    (room : reader.space ≠ 0) (waiting : pending ≠ []) :
    0 < (delivery reader pending size).length := by
  have positive := List.length_pos_iff.mpr waiting
  rw [delivery, List.length_take]
  omega

theorem receiveBytes_progress {timeouts : ReadTimeouts} {state : ReadState}
    {turn : Turn} {polls : List PollIssue}
    (room : state.reader.space ≠ 0)
    (continued : (receiveBytes timeouts state turn polls).exit = none) :
    Progress turn state (receiveBytes timeouts state turn polls).state := by
  unfold receiveBytes at continued ⊢
  cases answer : turn.recv with
  | interrupted =>
      exact ⟨by simp, .inl ⟨answer, by simp⟩⟩
  | wouldBlock => simp [answer, ReadState.leave] at continued
  | failed => simp [answer, ReadState.leave] at continued
  | delivered size =>
      by_cases drained : state.pending = []
      · simp [answer, drained, ReadState.discard, ReadState.leave]
          at continued
      have whole := delivery_append_drop state.reader state.pending size
      have arrived : 0 < (delivery state.reader state.pending size).length :=
        delivery_length_pos room drained
      have waiting := List.length_pos_iff.mpr drained
      have progress : Progress turn state
          { reader := state.reader.store
              (delivery state.reader state.pending size)
              (delivery_room _ _ _)
            pending := state.pending.drop
              (delivery state.reader state.pending size).length
            deadline := state.deadline } := by
        constructor
        · simp only [Reader.store, List.append_assoc, whole]
        · right
          simp only [List.length_drop]
          omega
      simp only [answer, drained, if_false] at continued ⊢
      cases started : state.deadline with
      | some deadline => simpa [started] using progress
      | none =>
          simp only [started] at continued ⊢
          cases arrival : turn.arrivalClock with
          | none => simp [arrival, ReadState.leave] at continued
          | some now => exact ⟨progress.conserved, progress.arrival⟩

theorem fillBuffer_progress {timeouts : ReadTimeouts} {state : ReadState}
    {need : Nat} {turn : Turn} {allocs : Allocs}
    (continued : (fillBuffer timeouts state need turn allocs).exit = none) :
    Progress turn state (fillBuffer timeouts state need turn allocs).state := by
  unfold fillBuffer at continued ⊢
  rcases grown : ensureCapacity state.reader need allocs with
    ⟨⟨granted, reader⟩, later⟩
  have sameData : reader.data = state.reader.data := by
    rw [← ensureCapacity_data state.reader need allocs, grown]
  cases granted with
  | false =>
      simp only [grown] at continued
      split_ifs at continued
      all_goals simp [ReadState.discard, ReadState.leave] at continued
  | true =>
      simp only [grown] at continued ⊢
      by_cases room : reader.space = 0
      · simp [room, ReadState.discard, ReadState.leave] at continued
      simp only [room, if_false] at continued ⊢
      rcases waited : awaitBytes timeouts state.deadline turn with
        ⟨_ | exit, polls⟩
      · simp only [waited] at continued ⊢
        obtain ⟨conserved, arrival⟩ := receiveBytes_progress room continued
        exact ⟨by rw [conserved, sameData], arrival⟩
      · simp [waited, ReadState.leave] at continued

theorem readPass_progress {timeouts : ReadTimeouts} {state : ReadState}
    {turn : Turn} (continued : (readPass timeouts state turn).exit = none) :
    Progress turn state (readPass timeouts state turn).state := by
  unfold readPass at continued ⊢
  rcases extracted : tryExtractLength state.reader turn.allocs with
    ⟨failure | length, allocs⟩
  · simp only [extracted] at continued ⊢
    by_cases refused : failure ≠ .ioError
    · simp [refused, ReadState.discard, ReadState.leave] at continued
    rw [if_neg refused] at continued ⊢
    rcases needed : bytesNeeded state.reader allocs with ⟨exit | need, later⟩
    · simp [needed, ReadState.discard, ReadState.leave] at continued
    · simp only [needed] at continued ⊢
      exact fillBuffer_progress continued
  · simp only [extracted] at continued
    rcases copied : takeMessage state.reader length allocs with
      ⟨_ | message, reader⟩
    all_goals simp [copied, ReadState.leave] at continued

/-! ## The loop -/

/-- What a call leaves behind. -/
structure ReadOutcome where
  exit : ReadExit
  reader : Reader
  pending : Bytes
  polls : List PollIssue
  deriving DecidableEq

def readLoop (timeouts : ReadTimeouts) (state : ReadState)
    (turns : List Turn) : ReadOutcome :=
  let pass := readPass timeouts state (turns.headD {})
  match _left : pass.exit with
  | some exit =>
      { exit := exit, reader := pass.state.reader
        pending := pass.state.pending, polls := pass.polls }
  | none =>
      let outcome := readLoop timeouts pass.state turns.tail
      { outcome with polls := pass.polls ++ outcome.polls }
termination_by turns.length + state.pending.length
decreasing_by
  have progress := readPass_progress _left
  rcases progress.arrival with ⟨interrupted, same⟩ | arrived
  · cases turns with
    | nil => simp at interrupted
    | cons turn later =>
        rw [same]
        simp
  · rw [List.length_tail]
    omega

theorem readLoop_left {timeouts : ReadTimeouts} {state : ReadState}
    {turns : List Turn} {exit : ReadExit}
    (left : (readPass timeouts state (turns.headD {})).exit = some exit) :
    readLoop timeouts state turns =
      { exit := exit
        reader := (readPass timeouts state (turns.headD {})).state.reader
        pending := (readPass timeouts state (turns.headD {})).state.pending
        polls := (readPass timeouts state (turns.headD {})).polls } := by
  rw [readLoop]
  simp only
  split
  · rename_i other same
    rw [left] at same
    cases same
    rfl
  · rename_i continued
    rw [left] at continued
    cases continued

theorem readLoop_continued {timeouts : ReadTimeouts} {state : ReadState}
    {turns : List Turn}
    (continued : (readPass timeouts state (turns.headD {})).exit = none) :
    readLoop timeouts state turns =
      { readLoop timeouts (readPass timeouts state (turns.headD {})).state
          turns.tail with
        polls := (readPass timeouts state (turns.headD {})).polls ++
          (readLoop timeouts (readPass timeouts state (turns.headD {})).state
            turns.tail).polls } := by
  rw [readLoop]
  simp only
  split
  · rename_i exit left
    rw [continued] at left
    cases left
  · rfl

/-- The answers of the kernel during one call. -/
structure ReadEnv where
  entryClock : Option Timespec := some { sec := 0, nsec := 0 }
  turns : List Turn := []
  deriving DecidableEq, Repr

def httpReaderNextRequest (timeouts : ReadTimeouts) (reader : Reader)
    (pending : Bytes) (env : ReadEnv) : ReadOutcome :=
  let clamped := timeouts.clamp
  if reader.data.length > 0 then
    match env.entryClock with
    | none =>
        { exit := .entryClock, reader := reader, pending := pending
          polls := [] }
    | some now =>
        readLoop clamped
          { reader := reader, pending := pending
            deadline := some (now.addSeconds clamped.requestTimeoutSec) }
          env.turns
  else
    readLoop clamped
      { reader := reader, pending := pending, deadline := none } env.turns

/-! ## Timeouts -/

theorem mapFramingError_ne_timeout (failure : ParseError) :
    mapFramingError failure ≠ .timeout := by
  cases failure <;> simp [mapFramingError]

theorem tryExtractLength_ne_timeout (reader : Reader) (allocs : Allocs) :
    (tryExtractLength reader allocs).1 ≠ .error .timeout := by
  unfold tryExtractLength
  simp only
  repeat' split
  all_goals simp [mapFramingError_ne_timeout]

theorem bytesNeeded_ne_timeout {reader : Reader} {allocs later : Allocs}
    {exit : ReadExit} (left : bytesNeeded reader allocs = (.error exit, later)) :
    exit.result ≠ .error .timeout := by
  unfold bytesNeeded at left
  simp only at left
  repeat' split at left
  all_goals
    simp only [Prod.mk.injEq, Except.error.injEq, reduceCtorEq,
      false_and] at left
  all_goals
    rw [← left.1]
    simp [ReadExit.result, mapFramingError_ne_timeout]

theorem receiveBytes_timeout {timeouts : ReadTimeouts} {state : ReadState}
    {turn : Turn} {polls : List PollIssue} {exit : ReadExit}
    (left : (receiveBytes timeouts state turn polls).exit = some exit)
    (expired : exit.result = .error .timeout) :
    (receiveBytes timeouts state turn polls).state.reader.data =
      state.reader.data := by
  unfold receiveBytes at left ⊢
  cases answer : turn.recv with
  | interrupted => simp [answer] at left
  | wouldBlock => rfl
  | failed => rfl
  | delivered size =>
      by_cases drained : state.pending = []
      · simp only [answer, drained, if_true, ReadState.discard,
          ReadState.leave, Option.some.injEq] at left
        rw [← left] at expired
        simp [ReadExit.result] at expired
      · cases started : state.deadline with
        | some deadline => simp [answer, drained, started] at left
        | none =>
            cases arrival : turn.arrivalClock with
            | none => simp [drained, ReadState.leave]
            | some now => simp [answer, drained, started, arrival] at left

theorem fillBuffer_timeout {timeouts : ReadTimeouts} {state : ReadState}
    {need : Nat} {turn : Turn} {allocs : Allocs} {exit : ReadExit}
    (left : (fillBuffer timeouts state need turn allocs).exit = some exit)
    (expired : exit.result = .error .timeout) :
    (fillBuffer timeouts state need turn allocs).state.reader.data =
      state.reader.data := by
  have sameData := ensureCapacity_data state.reader need allocs
  unfold fillBuffer at left ⊢
  rcases grown : ensureCapacity state.reader need allocs with
    ⟨⟨_ | _, reader⟩, later⟩
  · simp only [grown] at left sameData ⊢
    split_ifs at left ⊢ with large
    · simp only [ReadState.discard, ReadState.leave,
        Option.some.injEq] at left
      rw [← left] at expired
      simp [ReadExit.result] at expired
    · exact sameData
  · simp only [grown] at left sameData ⊢
    split_ifs at left ⊢ with full
    · simp only [ReadState.discard, ReadState.leave,
        Option.some.injEq] at left
      rw [← left] at expired
      simp [ReadExit.result] at expired
    · rcases waited : awaitBytes timeouts state.deadline turn with
        ⟨_ | early, polls⟩
      · simp only [waited] at left ⊢
        rw [receiveBytes_timeout left expired, sameData]
      · exact sameData

theorem readPass_timeout {timeouts : ReadTimeouts} {state : ReadState}
    {turn : Turn} {exit : ReadExit}
    (left : (readPass timeouts state turn).exit = some exit)
    (expired : exit.result = .error .timeout) :
    (readPass timeouts state turn).state.reader.data =
      state.reader.data := by
  have extraction := tryExtractLength_ne_timeout state.reader turn.allocs
  unfold readPass at left ⊢
  rcases extracted : tryExtractLength state.reader turn.allocs with
    ⟨failure | length, allocs⟩
  · simp only [extracted] at left extraction ⊢
    by_cases refused : failure ≠ .ioError
    · rw [if_pos refused] at left
      simp only [ReadState.discard, ReadState.leave,
        Option.some.injEq] at left
      rw [← left] at expired
      exact absurd expired (by simpa [ReadExit.result] using extraction)
    rw [if_neg refused] at left ⊢
    rcases needed : bytesNeeded state.reader allocs with ⟨early | need, later⟩
    · simp only [needed, ReadState.discard, ReadState.leave,
        Option.some.injEq] at left
      rw [← left] at expired
      exact absurd expired (bytesNeeded_ne_timeout needed)
    · simp only [needed] at left ⊢
      exact fillBuffer_timeout left expired
  · simp only [extracted] at left ⊢
    rcases copied : takeMessage state.reader length allocs with
      ⟨_ | message, reader⟩
    · rfl
    · simp only [copied, ReadState.leave, Option.some.injEq] at left
      rw [← left] at expired
      simp [ReadExit.result] at expired

/-- Over a whole loop the buffer only grows until the timeout. -/
theorem readLoop_timeout {timeouts : ReadTimeouts} {state : ReadState}
    {turns : List Turn}
    (expired : (readLoop timeouts state turns).exit.result =
      .error .timeout) :
    state.reader.data.length ≤
      (readLoop timeouts state turns).reader.data.length := by
  fun_induction readLoop timeouts state turns with
  | case1 state turns pass exit left =>
      rw [readPass_timeout left expired]
  | case2 state turns pass left outcome induction =>
      apply Nat.le_trans _ (induction expired)
      have progress : Progress (turns.headD {}) state pass.state :=
        readPass_progress left
      have conserved := congrArg List.length progress.conserved
      rw [List.length_append, List.length_append] at conserved
      rcases progress.arrival with ⟨_, same⟩ | arrived
      · rw [same] at conserved
        exact Nat.le_of_eq (Nat.add_right_cancel conserved).symm
      · omega

theorem readLoop_timeout_drained {timeouts : ReadTimeouts}
    {state : ReadState} {turns : List Turn}
    (expired : (readLoop timeouts state turns).exit.result =
      .error .timeout)
    (drained : state.reader.data ++ state.pending = []) :
    (readLoop timeouts state turns).reader.data = [] := by
  fun_induction readLoop timeouts state turns with
  | case1 state turns pass exit left =>
      rw [readPass_timeout left expired]
      exact (List.append_eq_nil_iff.mp drained).1
  | case2 state turns pass left outcome induction =>
      apply induction expired
      rw [(readPass_progress left).conserved]
      exact drained

theorem httpReaderNextRequest_timeout {timeouts : ReadTimeouts}
    {reader : Reader} {pending : Bytes} {env : ReadEnv}
    (expired : (httpReaderNextRequest timeouts reader pending
      env).exit.result = .error .timeout) :
    reader.data.length ≤
      (httpReaderNextRequest timeouts reader pending
        env).reader.data.length := by
  unfold httpReaderNextRequest at expired ⊢
  simp only at expired ⊢
  split_ifs at expired ⊢ with buffered
  · cases entry : env.entryClock with
    | none => exact Nat.le_refl _
    | some now =>
        simp only [entry] at expired ⊢
        exact readLoop_timeout expired
  · exact readLoop_timeout expired

theorem httpReaderNextRequest_timeout_drained {timeouts : ReadTimeouts}
    {reader : Reader} {pending : Bytes} {env : ReadEnv}
    (expired : (httpReaderNextRequest timeouts reader pending
      env).exit.result = .error .timeout)
    (drained : reader.data ++ pending = []) :
    (httpReaderNextRequest timeouts reader pending env).reader.data = [] := by
  have empty := (List.append_eq_nil_iff.mp drained).1
  unfold httpReaderNextRequest at expired ⊢
  simp only [empty, List.length_nil, Nat.lt_irrefl, gt_iff_lt,
    if_false] at expired ⊢
  exact readLoop_timeout_drained expired drained

end CinderHTTP
