import CinderHTTP.Reader.OneShot

/-!
# Reading is independent of segmentation

Every pass of the read loop either continues, losing no byte, or leaves the
loop for a reason that is accounted for by the whole stream or by a failure
of the environment.  Hence a sequence of calls returns what `frameStream`
returns, however the bytes arrive.
-/

namespace CinderHTTP

/-! ## The verdict on the buffer -/

/-- The reader's verdict on its buffer: an unfinished message needs data. -/
def bufferVerdict (buffer : Bytes) : Except ReadError Nat :=
  if frameHead buffer = .error .clientClosed then .error .ioError
  else frameHead buffer

theorem tryExtractLength_verdict (reader : Reader) (allocs : Allocs) :
    (allocs ≠ [] ∧
      (tryExtractLength reader allocs).1 = .error .outOfMemory) ∨
      (tryExtractLength reader allocs).1 = bufferVerdict reader.data := by
  unfold tryExtractLength bufferVerdict
  by_cases empty : reader.data.length = 0
  · have nothing : reader.data = [] := List.length_eq_zero_iff.mp empty
    right
    rw [if_pos empty, nothing]
    rfl
  rw [if_neg empty]
  cases found : httpFindHeaderTerminator reader.data with
  | none =>
      right
      by_cases long : reader.data.length ≥ httpMaxHeaderBytes
      · simp [frameHead, found, long]
      · simp [frameHead, found, long]
  | some terminator =>
      simp only
      by_cases long : terminator + 4 > httpMaxHeaderBytes
      · right
        simp [frameHead, found, long]
      have announced := httpInspectMessageFraming_allocs
        (reader.data.take (terminator + 4)) allocs
      rw [if_neg long]
      rcases under : httpInspectMessageFraming
        (reader.data.take (terminator + 4)) allocs with
          ⟨failure | bodyLength, later⟩
      · rw [under] at announced
        rcases announced with ⟨answered, exhausted⟩ | plain
        · left
          simp only [Except.error.injEq] at exhausted
          rw [exhausted]
          exact ⟨answered, rfl⟩
        · right
          have verdict : frameHead reader.data =
              .error (mapFramingError failure) := by
            simp only [frameHead, found, if_neg long, ← plain]
          rw [verdict, if_neg (by
            simpa using mapFramingError_ne_clientClosed failure)]
      · rw [under] at announced
        rcases announced with exhausted | plain
        · simp at exhausted
        · right
          have small := httpInspectMessageFraming_bounded under
          have withinMessage :
              ¬bodyLength > httpMaxMessageBytes - (terminator + 4) := by
            simp only [httpMaxMessageBytes]
            omega
          simp only [frameHead, found, if_neg long, ← plain,
            if_neg withinMessage]
          split_ifs with short
          · rfl
          · simp_all
          · simp_all
          · rfl

theorem frameHead_ne_ioError (stream : Bytes) :
    frameHead stream ≠ .error .ioError := by
  unfold frameHead
  cases httpFindHeaderTerminator stream with
  | none =>
      simp only
      split_ifs <;> simp
  | some terminator =>
      simp only
      cases (httpInspectMessageFraming (stream.take (terminator + 4))
          []).1 with
      | error failure =>
          simp only
          split_ifs
          · simp
          · simpa using mapFramingError_ne_ioError failure
      | ok bodyLength =>
          simp only
          split_ifs <;> simp

theorem bufferVerdict_eq_ok {buffer : Bytes} {length : Nat}
    (verdict : bufferVerdict buffer = .ok length) :
    frameHead buffer = .ok length := by
  unfold bufferVerdict at verdict
  split_ifs at verdict
  exact verdict

theorem bufferVerdict_eq_ioError {buffer : Bytes}
    (verdict : bufferVerdict buffer = .error .ioError) :
    frameHead buffer = .error .clientClosed := by
  unfold bufferVerdict at verdict
  split_ifs at verdict with incomplete
  · exact incomplete
  · exact absurd verdict (frameHead_ne_ioError buffer)

theorem bufferVerdict_refused {buffer : Bytes} {failure : ReadError}
    (verdict : bufferVerdict buffer = .error failure)
    (refused : failure ≠ .ioError) :
    frameHead buffer = .error failure ∧
      frameHead buffer ≠ .error .clientClosed := by
  unfold bufferVerdict at verdict
  split_ifs at verdict with incomplete
  · simp only [Except.error.injEq] at verdict
    exact absurd verdict.symm refused
  · exact ⟨verdict, incomplete⟩

/-- The checks behind `try_extract_length` repeat what it has established:
they only fail when an allocation does, and there is room to ask for. -/
theorem bytesNeeded_incomplete {reader : Reader}
    (incomplete : frameHead reader.data = .error .clientClosed)
    (allocs : Allocs) :
    (allocs ≠ [] ∧ (bytesNeeded reader allocs).1 =
      .error (.secondFraming .outOfMemory)) ∨
      ∃ need, (bytesNeeded reader allocs).1 = .ok need ∧
        reader.data.length < need ∧ need ≤ httpMaxMessageBytes := by
  rcases frameHead_incomplete incomplete with
    ⟨found, short⟩ | ⟨terminator, bodyLength, found, small, framing, short⟩
  · right
    have chunk : 0 < httpReaderRecvChunk := by decide
    have header : httpMaxHeaderBytes ≤ httpMaxMessageBytes :=
      Nat.le_add_right _ _
    simp only [bytesNeeded, found]
    rw [if_neg (by omega)]
    generalize capped : (if reader.data.length + httpReaderRecvChunk >
      httpMaxHeaderBytes then httpMaxHeaderBytes
      else reader.data.length + httpReaderRecvChunk) = need
    have room : reader.data.length < need ∧ need ≤ httpMaxHeaderBytes := by
      split_ifs at capped <;> omega
    exact ⟨need, by rw [if_neg (by omega)], room.1, by omega⟩
  · have announced := httpInspectMessageFraming_allocs
      (reader.data.take (terminator + 4)) allocs
    simp only [bytesNeeded, found]
    rcases under : httpInspectMessageFraming
      (reader.data.take (terminator + 4)) allocs with
        ⟨failure | length, later⟩
    · rw [under, framing] at announced
      rcases announced with ⟨answered, exhausted⟩ | impossible
      · left
        simp only [Except.error.injEq] at exhausted
        rw [exhausted]
        exact ⟨answered, rfl⟩
      · simp at impossible
    · rw [under, framing] at announced
      have same : length = bodyLength := by simpa using announced
      have limit := httpInspectMessageFraming_bounded under
      have withinMessage :
          ¬length > httpMaxMessageBytes - (terminator + 4) ∧
            terminator + 4 + length ≤ httpMaxMessageBytes := by
        simp only [httpMaxMessageBytes]
        omega
      right
      subst same
      exact ⟨terminator + 4 + length, by simp only [withinMessage.1, if_false],
        short, withinMessage.2⟩

theorem tryExtractLength_nil (reader : Reader) :
    (tryExtractLength reader []).2 = [] := by
  unfold tryExtractLength
  by_cases empty : reader.data.length = 0
  · rw [if_pos empty]
  rw [if_neg empty]
  cases httpFindHeaderTerminator reader.data with
  | none =>
      simp only
      split_ifs <;> rfl
  | some terminator =>
      have framing := httpInspectMessageFraming_nil
        (reader.data.take (terminator + 4))
      simp only
      generalize httpInspectMessageFraming
        (reader.data.take (terminator + 4)) [] = walk at framing ⊢
      obtain ⟨failure | bodyLength, later⟩ := walk
      · simp only
        split_ifs
        · rfl
        · exact framing
      · simp only
        split_ifs
        · rfl
        all_goals exact framing

theorem bytesNeeded_nil (reader : Reader) :
    (bytesNeeded reader []).2 = [] := by
  unfold bytesNeeded
  cases httpFindHeaderTerminator reader.data with
  | none =>
      simp only
      split_ifs <;> rfl
  | some terminator =>
      have framing := httpInspectMessageFraming_nil
        (reader.data.take (terminator + 4))
      simp only
      generalize httpInspectMessageFraming
        (reader.data.take (terminator + 4)) [] = walk at framing ⊢
      obtain ⟨failure | bodyLength, later⟩ := walk
      · exact framing
      · simp only
        split_ifs <;> exact framing

/-! ## The course of a pass -/

/-- How a pass goes, by the verdict on the buffer.  The checks that repeat
those of `try_extract_length` fail only when an allocation does. -/
inductive Course (timeouts : ReadTimeouts) (state : ReadState)
    (turn : Turn) : ReadPass → Prop where
  | notCopied {length : Nat} :
      frameHead state.reader.data = .ok length → turn.allocs ≠ [] →
      Course timeouts state turn (state.leave .takeAllocation [])
  | taken {length : Nat} :
      frameHead state.reader.data = .ok length →
      Course timeouts state turn
        ({ state with reader := state.reader.dropFront length }.leave
          (.taken (state.reader.data.take length)) [])
  | exhausted :
      turn.allocs ≠ [] →
      Course timeouts state turn (state.discard (.extract .outOfMemory) [])
  | refused {failure : ReadError} :
      frameHead state.reader.data = .error failure →
      failure ≠ .clientClosed →
      Course timeouts state turn (state.discard (.extract failure) [])
  | notInspected :
      frameHead state.reader.data = .error .clientClosed →
      turn.allocs ≠ [] →
      Course timeouts state turn
        (state.discard (.secondFraming .outOfMemory) [])
  | notGrown :
      frameHead state.reader.data = .error .clientClosed →
      turn.allocs ≠ [] →
      Course timeouts state turn (state.leave .growAllocation [])
  | notReady {reader : Reader} {exit : ReadExit} {polls : List PollIssue} :
      frameHead state.reader.data = .error .clientClosed →
      state.reader.Enlarged reader → reader.space ≠ 0 →
      awaitBytes timeouts state.deadline turn = (some exit, polls) →
      Course timeouts state turn
        ({ state with reader := reader }.leave exit polls)
  | received {reader : Reader} {polls : List PollIssue} :
      frameHead state.reader.data = .error .clientClosed →
      state.reader.Enlarged reader → reader.space ≠ 0 →
      awaitBytes timeouts state.deadline turn = (none, polls) →
      Course timeouts state turn
        (receiveBytes timeouts { state with reader := reader } turn polls)

theorem fillBuffer_course {timeouts : ReadTimeouts} {state : ReadState}
    {need : Nat} {turn : Turn} {allocs : Allocs}
    (incomplete : frameHead state.reader.data = .error .clientClosed)
    (larger : state.reader.data.length < need)
    (fits : need ≤ httpMaxMessageBytes)
    (granted : turn.allocs = [] → allocs = []) :
    Course timeouts state turn
      (fillBuffer timeouts state need turn allocs) := by
  unfold fillBuffer
  rcases grown : ensureCapacity state.reader need allocs with
    ⟨⟨_ | _, reader⟩, later⟩
  · have same := ensureCapacity_false grown
    subst same
    simp only
    rw [if_neg (by omega)]
    refine .notGrown incomplete fun answered => ?_
    rw [granted answered] at grown
    have sized := ensureCapacity_granted state.reader fits
    rw [grown] at sized
    cases sized
  · obtain ⟨enlarged, sized⟩ := ensureCapacity_true grown
    have room : reader.space ≠ 0 := by
      rw [Reader.space, enlarged.data]
      omega
    simp only [if_neg room]
    rcases waited : awaitBytes timeouts state.deadline turn with
      ⟨_ | exit, polls⟩
    · exact .received incomplete enlarged room waited
    · exact .notReady incomplete enlarged room waited

theorem readPass_course (timeouts : ReadTimeouts) (state : ReadState)
    (turn : Turn) :
    Course timeouts state turn (readPass timeouts state turn) := by
  have verdict := tryExtractLength_verdict state.reader turn.allocs
  have granted : turn.allocs = [] →
      (tryExtractLength state.reader turn.allocs).2 = [] := by
    intro answered
    rw [answered]
    exact tryExtractLength_nil state.reader
  unfold readPass
  rcases extracted : tryExtractLength state.reader turn.allocs with
    ⟨failure | length, allocs⟩
  · simp only [extracted] at verdict granted ⊢
    by_cases refused : failure ≠ .ioError
    · rw [if_pos refused]
      rcases verdict with ⟨answered, exhausted⟩ | settled
      · cases exhausted
        exact .exhausted answered
      · obtain ⟨framed, final⟩ := bufferVerdict_refused settled.symm refused
        refine .refused framed fun closed => final ?_
        rw [framed, closed]
    · rw [if_neg refused]
      have waiting : failure = .ioError := not_not.mp refused
      subst waiting
      have incomplete : frameHead state.reader.data =
          .error .clientClosed := by
        rcases verdict with ⟨_, exhausted⟩ | settled
        · cases exhausted
        · exact bufferVerdict_eq_ioError settled.symm
      have requested := bytesNeeded_incomplete incomplete allocs
      rcases needed : bytesNeeded state.reader allocs with
        ⟨early | need, later⟩
      · simp only [needed] at requested ⊢
        rcases requested with ⟨answered, exhausted⟩ | ⟨_, impossible, _⟩
        · cases exhausted
          exact .notInspected incomplete fun none => answered (granted none)
        · cases impossible
      · simp only [needed] at requested ⊢
        rcases requested with ⟨_, impossible⟩ | ⟨_, same, larger, fits⟩
        · cases impossible
        · cases same
          apply fillBuffer_course incomplete larger fits
          intro none
          have rest := bytesNeeded_nil state.reader
          rw [← granted none, needed] at rest
          exact rest.trans (granted none)
  · simp only [extracted] at verdict granted ⊢
    have framed : frameHead state.reader.data = .ok length := by
      rcases verdict with ⟨_, exhausted⟩ | settled
      · cases exhausted
      · exact bufferVerdict_eq_ok settled.symm
    unfold takeMessage
    by_cases copied : (malloc allocs).1 = true
    · simp only [copied, Bool.not_true, Bool.false_eq_true, if_false]
      exact .taken framed
    · simp only [copied, Bool.not_false, if_true]
      refine .notCopied framed fun none => copied ?_
      rw [granted none]
      rfl

/-! ## Undisturbed environments -/

/-- Answers on which `wait_readable` does not report an error. -/
def PollAnswer.Sound : PollAnswer → Prop
  | .ready revents =>
      (revents.pollin || revents.pollerr || revents.pollhup ||
        revents.pollnval) = true
  | .expired => True
  | .interrupted _ => True
  | .failed => False

/-- No allocation, clock reading, `poll` or `recv` fails in this pass.
Interruptions, expiries and any sizes of deliveries are allowed. -/
structure Turn.Undisturbed (turn : Turn) : Prop where
  allocs : turn.allocs = []
  polls : ∀ answer ∈ turn.polls, answer.Sound
  recv : turn.recv ≠ .failed
  arrivalClock : turn.arrivalClock ≠ none

structure ReadEnv.Undisturbed (env : ReadEnv) : Prop where
  entryClock : env.entryClock ≠ none
  turns : ∀ turn ∈ env.turns, turn.Undisturbed

theorem Turn.undisturbed_default : ({} : Turn).Undisturbed :=
  { allocs := rfl
    polls := by simp
    recv := by simp
    arrivalClock := by simp }

theorem Turn.undisturbed_headD {turns : List Turn}
    (calm : ∀ turn ∈ turns, turn.Undisturbed) :
    (turns.headD {}).Undisturbed := by
  cases turns with
  | nil => exact undisturbed_default
  | cons turn later => exact calm turn List.mem_cons_self

theorem waitReadable_ne_error {timeoutMs : Int} {issuedAt : Timespec}
    {answers : List PollAnswer} (sound : ∀ answer ∈ answers, answer.Sound) :
    (waitReadable timeoutMs issuedAt answers).1 ≠ .error := by
  fun_induction waitReadable timeoutMs issuedAt answers with
  | case1 => simp
  | case2 issuedAt reissuedAt answers resumed induction =>
      exact induction fun answer member =>
        sound answer (List.mem_cons_of_mem _ member)
  | case3 => exact (sound .failed List.mem_cons_self).elim
  | case4 => simp
  | case5 issuedAt revents answers result =>
      have flagged := sound (.ready revents) List.mem_cons_self
      simp only [PollAnswer.Sound, Bool.or_eq_true] at flagged
      simp only [result]
      split_ifs with hangup readable
      · simp
      · simp
      · simp_all

/-! ## Leaving the loop -/

/-- How an exit is accounted for by the stream that was left to read and
what is left of it afterwards.  Only a disturbed environment causes an I/O
error or an allocation failure. -/
inductive Accounted (undisturbed : Prop) (stream : Bytes) (exit : ReadExit)
    (rest : Bytes) : Prop where
  | message {bytes : Bytes} :
      exit.result = .ok bytes →
      frameHead stream = .ok bytes.length →
      stream = bytes ++ rest →
      Accounted undisturbed stream exit rest
  | refused {failure : ReadError} :
      exit.result = .error failure →
      frameHead stream = .error failure →
      Accounted undisturbed stream exit rest
  | timeout :
      exit.result = .error .timeout →
      Accounted undisturbed stream exit rest
  | disturbed {failure : ReadError} :
      exit.result = .error failure →
      failure = .ioError ∨ failure = .outOfMemory →
      ¬undisturbed →
      Accounted undisturbed stream exit rest

theorem awaitBytes_accounted {timeouts : ReadTimeouts}
    {deadline : Option Timespec} {turn : Turn} {exit : ReadExit}
    (left : (awaitBytes timeouts deadline turn).1 = some exit)
    (stream rest : Bytes) :
    Accounted turn.Undisturbed stream exit rest := by
  unfold awaitBytes at left
  simp only at left
  split at left
  · cases left
    exact .timeout rfl
  · split at left
    · cases left
      exact .timeout rfl
    · rename_i polls waited
      cases left
      refine .disturbed rfl (.inl rfl) fun calm => ?_
      exact waitReadable_ne_error calm.polls (congrArg Prod.fst waited)
    · simp at left

theorem receiveBytes_accounted {timeouts : ReadTimeouts} {state : ReadState}
    {turn : Turn} {polls : List PollIssue} {exit : ReadExit}
    (incomplete : frameHead state.reader.data = .error .clientClosed)
    (left : (receiveBytes timeouts state turn polls).exit = some exit)
    (rest : Bytes) :
    Accounted turn.Undisturbed (state.reader.data ++ state.pending) exit
      rest := by
  unfold receiveBytes at left
  cases answer : turn.recv with
  | interrupted => simp [answer] at left
  | wouldBlock =>
      simp only [answer, ReadState.leave, Option.some.injEq] at left
      subst left
      exact .timeout rfl
  | failed =>
      simp only [answer, ReadState.leave, Option.some.injEq] at left
      subst left
      exact .disturbed rfl (.inl rfl) fun calm => calm.recv answer
  | delivered size =>
      simp only [answer] at left
      by_cases drained : state.pending = []
      · simp only [drained, if_true, ReadState.discard, ReadState.leave,
          Option.some.injEq] at left
        subst left
        rw [drained, List.append_nil]
        exact .refused rfl incomplete
      · simp only [drained, if_false] at left
        cases started : state.deadline with
        | some deadline => simp [started] at left
        | none =>
            cases arrival : turn.arrivalClock with
            | some now => simp [started, arrival] at left
            | none =>
                simp only [started, arrival, ReadState.leave,
                  Option.some.injEq] at left
                subst left
                exact .disturbed rfl (.inl rfl) fun calm =>
                  calm.arrivalClock arrival

/-- Every pass that leaves the loop does so for a reason that the stream or
the environment accounts for. -/
theorem readPass_accounted {timeouts : ReadTimeouts} {state : ReadState}
    {turn : Turn} {exit : ReadExit}
    (left : (readPass timeouts state turn).exit = some exit) :
    Accounted turn.Undisturbed (state.reader.data ++ state.pending) exit
      ((readPass timeouts state turn).state.reader.data ++
        (readPass timeouts state turn).state.pending) := by
  have course := readPass_course timeouts state turn
  generalize readPass timeouts state turn = pass at left course ⊢
  cases course with
  | notCopied framed answered | notInspected framed answered
  | notGrown framed answered =>
      cases left
      exact .disturbed rfl (.inr rfl) fun calm => answered calm.allocs
  | exhausted answered =>
      cases left
      exact .disturbed rfl (.inr rfl) fun calm => answered calm.allocs
  | taken framed =>
      cases left
      refine .message rfl ?_ ?_
      · rw [frameHead_append (by simp [framed]), framed, List.length_take,
          Nat.min_eq_left (frameHead_pos framed).2]
      · simp only [ReadState.leave, Reader.dropFront]
        rw [← List.append_assoc, List.take_append_drop]
  | refused framed final =>
      cases left
      refine .refused rfl ?_
      rw [frameHead_append (by simpa [framed] using final), framed]
  | notReady incomplete enlarged room waited =>
      cases left
      exact awaitBytes_accounted (congrArg Prod.fst waited) _ _
  | received incomplete enlarged room waited =>
      rw [← enlarged.data] at incomplete ⊢
      exact receiveBytes_accounted incomplete left _

theorem Accounted.weaken {calm calmer : Prop} {stream rest : Bytes}
    {exit : ReadExit} (accounted : Accounted calm stream exit rest)
    (implies : calmer → calm) : Accounted calmer stream exit rest := by
  cases accounted with
  | message result framed whole => exact .message result framed whole
  | refused result framed => exact .refused result framed
  | timeout result => exact .timeout result
  | disturbed result external broken =>
      exact .disturbed result external fun assumed =>
        broken (implies assumed)

/-- A whole loop, by induction over its passes: each one that continues
keeps the stream that is left. -/
theorem readLoop_accounted (timeouts : ReadTimeouts) (state : ReadState)
    (turns : List Turn) :
    Accounted (∀ turn ∈ turns, turn.Undisturbed)
      (state.reader.data ++ state.pending)
      (readLoop timeouts state turns).exit
      ((readLoop timeouts state turns).reader.data ++
        (readLoop timeouts state turns).pending) := by
  fun_induction readLoop timeouts state turns with
  | case1 state turns pass exit left =>
      exact (readPass_accounted left).weaken Turn.undisturbed_headD
  | case2 state turns pass left outcome induction =>
      have conserved := (readPass_progress left).conserved
      rw [← conserved]
      refine induction.weaken fun calm turn member => ?_
      exact calm turn (List.mem_of_mem_tail member)

/-- What one call returns and leaves is accounted for by the bytes buffered
before it followed by those not yet received. -/
theorem httpReaderNextRequest_accounted (timeouts : ReadTimeouts)
    (reader : Reader) (pending : Bytes) (env : ReadEnv) :
    Accounted env.Undisturbed (reader.data ++ pending)
      (httpReaderNextRequest timeouts reader pending env).exit
      ((httpReaderNextRequest timeouts reader pending env).reader.data ++
        (httpReaderNextRequest timeouts reader pending env).pending) := by
  have loop : ∀ deadline, Accounted env.Undisturbed (reader.data ++ pending)
      (readLoop timeouts.clamp ⟨reader, pending, deadline⟩ env.turns).exit
      ((readLoop timeouts.clamp ⟨reader, pending, deadline⟩
          env.turns).reader.data ++
        (readLoop timeouts.clamp ⟨reader, pending, deadline⟩
          env.turns).pending) := fun deadline =>
    (readLoop_accounted timeouts.clamp ⟨reader, pending, deadline⟩
      env.turns).weaken ReadEnv.Undisturbed.turns
  unfold httpReaderNextRequest
  simp only
  split_ifs with buffered
  · cases entry : env.entryClock with
    | none =>
        exact .disturbed rfl (.inl rfl) fun calm => calm.entryClock entry
    | some now => exact loop _
  · exact loop none

/-- A returned message is framed by the stream, under any answers of the
kernel. -/
theorem httpReaderNextRequest_message {timeouts : ReadTimeouts}
    {reader : Reader} {pending : Bytes} {env : ReadEnv} {message : Bytes}
    (success : (httpReaderNextRequest timeouts reader pending
      env).exit.result = .ok message) :
    frameHead (reader.data ++ pending) = .ok message.length ∧
      reader.data ++ pending = message ++
        ((httpReaderNextRequest timeouts reader pending env).reader.data ++
          (httpReaderNextRequest timeouts reader pending env).pending) := by
  have accounted := httpReaderNextRequest_accounted timeouts reader pending
    env
  cases accounted with
  | message result framed whole =>
      rw [success] at result
      cases result
      exact ⟨framed, whole⟩
  | refused result | timeout result | disturbed result =>
      rw [success] at result
      simp at result

/-- A returned error is the verdict on the stream, a timeout, or a failure
of the environment. -/
theorem httpReaderNextRequest_failure {timeouts : ReadTimeouts}
    {reader : Reader} {pending : Bytes} {env : ReadEnv}
    {failure : ReadError}
    (failed : (httpReaderNextRequest timeouts reader pending
      env).exit.result = .error failure) :
    frameHead (reader.data ++ pending) = .error failure ∨
      failure = .timeout ∨
      ((failure = .ioError ∨ failure = .outOfMemory) ∧
        ¬env.Undisturbed) := by
  have accounted := httpReaderNextRequest_accounted timeouts reader pending
    env
  cases accounted with
  | message result =>
      rw [failed] at result
      simp at result
  | refused result framed =>
      rw [failed] at result
      cases result
      exact .inl framed
  | timeout result =>
      rw [failed] at result
      cases result
      exact .inr (.inl rfl)
  | disturbed result external broken =>
      rw [failed] at result
      cases result
      exact .inr (.inr ⟨external, broken⟩)

theorem httpReaderNextRequest_length {timeouts : ReadTimeouts}
    {reader : Reader} {pending : Bytes} {env : ReadEnv} {message : Bytes}
    (success : (httpReaderNextRequest timeouts reader pending
      env).exit.result = .ok message) :
    (httpReaderNextRequest timeouts reader pending env).reader.data.length +
        (httpReaderNextRequest timeouts reader pending env).pending.length <
      reader.data.length + pending.length := by
  obtain ⟨framed, whole⟩ := httpReaderNextRequest_message success
  have lengths := congrArg List.length whole
  have positive := (frameHead_pos framed).1
  simp only [List.length_append] at lengths
  omega

/-! ## Sequences of calls -/

/-- Calls on one connection up to the first that returns no message; `env`
gives the answers of the kernel during each of them. -/
def readCalls (timeouts : ReadTimeouts) (env : Nat → ReadEnv)
    (reader : Reader) (pending : Bytes) : List ReadOutcome :=
  let outcome := httpReaderNextRequest timeouts reader pending (env 0)
  match _result : outcome.exit.result with
  | .error _ => [outcome]
  | .ok _ =>
      outcome :: readCalls timeouts (fun call => env (call + 1))
        outcome.reader outcome.pending
termination_by reader.data.length + pending.length
decreasing_by exact httpReaderNextRequest_length _result

/-- The messages among the results of some calls. -/
def messagesOf (outcomes : List ReadOutcome) : List Bytes :=
  outcomes.filterMap fun outcome => outcome.exit.result.toOption

theorem readCalls_error {timeouts : ReadTimeouts} {env : Nat → ReadEnv}
    {reader : Reader} {pending : Bytes} {failure : ReadError}
    (result : (httpReaderNextRequest timeouts reader pending
      (env 0)).exit.result = .error failure) :
    readCalls timeouts env reader pending =
      [httpReaderNextRequest timeouts reader pending (env 0)] := by
  rw [readCalls]
  split
  · rfl
  · simp_all

theorem readCalls_ok {timeouts : ReadTimeouts} {env : Nat → ReadEnv}
    {reader : Reader} {pending : Bytes} {message : Bytes}
    (result : (httpReaderNextRequest timeouts reader pending
      (env 0)).exit.result = .ok message) :
    readCalls timeouts env reader pending =
      httpReaderNextRequest timeouts reader pending (env 0) ::
        readCalls timeouts (fun call => env (call + 1))
          (httpReaderNextRequest timeouts reader pending (env 0)).reader
          (httpReaderNextRequest timeouts reader pending (env 0)).pending := by
  rw [readCalls]
  split
  · simp_all
  · rfl

theorem frameStream_error {stream : Bytes} {failure : ReadError}
    (framed : frameHead stream = .error failure) :
    frameStream stream = [.error failure] := by
  rw [frameStream]
  split <;> simp_all

theorem frameStream_message {message rest : Bytes}
    (framed : frameHead (message ++ rest) = .ok message.length) :
    frameStream (message ++ rest) = .ok message :: frameStream rest := by
  rw [frameStream]
  split
  · simp_all
  · rename_i length same
    rw [framed] at same
    cases same
    rw [List.take_left, List.drop_left]

theorem readCalls_results {timeouts : ReadTimeouts} {env : Nat → ReadEnv}
    {reader : Reader} {pending : Bytes}
    (undisturbed : ∀ call, (env call).Undisturbed)
    (noTimeout : ∀ outcome ∈ readCalls timeouts env reader pending,
      outcome.exit.result ≠ .error .timeout) :
    (readCalls timeouts env reader pending).map
        (fun outcome => outcome.exit.result) =
      frameStream (reader.data ++ pending) := by
  fun_induction readCalls timeouts env reader pending with
  | case1 env reader pending outcome failure result =>
      have expected : frameHead (reader.data ++ pending) =
          .error failure := by
        rcases httpReaderNextRequest_failure result with
          framed | late | ⟨_, broken⟩
        · exact framed
        · subst late
          exact absurd result (noTimeout outcome List.mem_cons_self)
        · exact absurd (undisturbed 0) broken
      rw [frameStream_error expected]
      simp [result]
  | case2 env reader pending outcome message result induction =>
      obtain ⟨framed, whole⟩ := httpReaderNextRequest_message result
      rw [whole] at framed ⊢
      rw [frameStream_message framed, List.map_cons, result]
      rw [induction (fun call => undisturbed (call + 1))
        (fun later member => noTimeout later
          (List.mem_cons_of_mem _ member))]

/-- At every message returned, the bytes returned so far and the bytes left
in the reader are the bytes received so far. -/
theorem readCalls_conserved {timeouts : ReadTimeouts} {env : Nat → ReadEnv}
    {reader : Reader} {pending : Bytes} {earlier later : List ReadOutcome}
    {outcome : ReadOutcome} {message : Bytes}
    (calls : readCalls timeouts env reader pending =
      earlier ++ outcome :: later)
    (result : outcome.exit.result = .ok message) :
    reader.data ++ pending =
      (messagesOf (earlier ++ [outcome])).flatten ++ outcome.reader.data ++
        outcome.pending := by
  induction earlier generalizing env reader pending with
  | nil =>
      have first : httpReaderNextRequest timeouts reader pending (env 0) =
          outcome := by
        rcases firstResult : (httpReaderNextRequest timeouts reader pending
          (env 0)).exit.result with failure | bytes
        · rw [readCalls_error firstResult] at calls
          exact (List.cons.inj calls).1
        · rw [readCalls_ok firstResult] at calls
          exact (List.cons.inj calls).1
      subst first
      obtain ⟨_, whole⟩ := httpReaderNextRequest_message result
      simp only [messagesOf, List.nil_append, List.filterMap_cons, result,
        Except.toOption, List.filterMap_nil, List.flatten_cons,
        List.flatten_nil, List.append_nil, List.append_assoc]
      exact whole
  | cons first earlier induction =>
      rcases firstResult : (httpReaderNextRequest timeouts reader pending
        (env 0)).exit.result with failure | bytes
      · rw [readCalls_error firstResult] at calls
        simp at calls
      · rw [readCalls_ok firstResult] at calls
        obtain ⟨same, rest⟩ := List.cons.inj calls
        obtain ⟨_, whole⟩ := httpReaderNextRequest_message firstResult
        rw [whole, induction rest, ← same]
        simp only [messagesOf, List.cons_append, List.filterMap_cons,
          firstResult, Except.toOption, List.flatten_cons,
          List.append_assoc]

/-- Reading a stream is independent of its segmentation: undisturbed calls
that do not time out return the messages and the final result of
`frameStream`, which does not depend on the answers of the kernel.  After
each message the received bytes are the returned messages followed by the
bytes in the reader. -/
theorem readCalls_segmentation (timeouts : ReadTimeouts)
    (env : Nat → ReadEnv) (stream : Bytes)
    (undisturbed : ∀ call, (env call).Undisturbed)
    (noTimeout : ∀ outcome ∈ readCalls timeouts env httpReaderInit stream,
      outcome.exit.result ≠ .error .timeout) :
    (readCalls timeouts env httpReaderInit stream).map
        (fun outcome => outcome.exit.result) = frameStream stream ∧
      ∀ earlier outcome later,
        readCalls timeouts env httpReaderInit stream =
          earlier ++ outcome :: later →
        ∀ message, outcome.exit.result = .ok message →
          ∃ received, stream = received ++ outcome.pending ∧
            received = (messagesOf (earlier ++ [outcome])).flatten ++
              outcome.reader.data := by
  constructor
  · exact readCalls_results undisturbed noTimeout
  · intro earlier outcome later calls message result
    exact ⟨_, readCalls_conserved calls result, rfl⟩

/-- A request arriving in three pieces, one of them cut inside the blank
line, with an interrupted call in between. -/
def trickledArrival : ReadEnv :=
  { turns := [{ recv := .delivered 5 }, { recv := .interrupted },
      { recv := .delivered 12 }, { recv := .delivered 3 }] }

theorem trickledArrival_undisturbed : trickledArrival.Undisturbed := by
  constructor
  · simp [trickledArrival]
  · intro turn member
    simp only [trickledArrival, List.mem_cons, List.not_mem_nil,
      or_false] at member
    rcases member with rfl | rfl | rfl | rfl <;> constructor <;> simp

theorem readCalls_segmentation_trickled :
    (readCalls ⟨15, 30⟩ (fun _ => trickledArrival) httpReaderInit
        (ascii "GET / HTTP/1.1\r\n\r\nGET")).map
          (fun outcome => outcome.exit.result) =
      frameStream (ascii "GET / HTTP/1.1\r\n\r\nGET") :=
  (readCalls_segmentation ⟨15, 30⟩ (fun _ => trickledArrival)
    (ascii "GET / HTTP/1.1\r\n\r\nGET")
    (fun _ => trickledArrival_undisturbed) (by decide +kernel)).1

end CinderHTTP
