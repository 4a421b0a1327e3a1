import CinderHTTP.Base.Credit
import CinderHTTP.Client.Statuses
import CinderHTTP.Server.Statistics

/-!
# The steps of a connection that are counted

A pass of `client_handle` calls the counters when it has read a request and
when it has sent a response.  Here these calls are seen with what they stand
for: the message that was read, and the bytes that were sent.  Every response
but one follows a request of its connection, and that one is an error.
-/

namespace CinderHTTP

/-- What a statistics call of `client_handle` stands for. -/
inductive HandlerStep where
  | received (raw : Bytes)
  | sent (delivery : Delivery)
  deriving DecidableEq

namespace HandlerStep

def event : HandlerStep → StatsEvent
  | .received _ => .requestReceived
  | .sent delivery => .responseSent delivery.status

def message : HandlerStep → Option Bytes
  | .received raw => some raw
  | .sent _ => none

def isReceived : HandlerStep → Bool
  | .received _ => true
  | .sent _ => false

def isSent : HandlerStep → Bool
  | .received _ => false
  | .sent _ => true

/-- Whether the bytes that were sent show a status of a class, given by its
first digit. -/
def showsClass (digit : Nat) : HandlerStep → Bool
  | .received _ => false
  | .sent delivery =>
      (wireStatus delivery.sending.sent).any fun status =>
        digit * 100 ≤ status && status ≤ digit * 100 + 99

end HandlerStep

/-- The response of a pass, if it was sent. -/
def Iteration.answered (iteration : Iteration) : Option Delivery :=
  iteration.delivery.filter fun delivery => delivery.sending.success

/-- The calls during one pass. -/
def Iteration.steps (iteration : Iteration) : List HandlerStep :=
  iteration.read.exit.result.toOption.toList.map HandlerStep.received ++
    iteration.answered.toList.map HandlerStep.sent

def Conversation.steps (conversation : Conversation)
    (config : ServerConfig) : List HandlerStep :=
  (clientHandle config conversation.env conversation.stream).flatMap
    Iteration.steps

theorem Iteration.steps_event (iteration : Iteration) :
    iteration.steps.map HandlerStep.event = iteration.events := by
  unfold Iteration.steps Iteration.events Iteration.answered
  simp only
  rw [List.map_append]
  congr 1
  · cases iteration.read.exit.result <;> rfl
  · cases given : iteration.delivery with
    | none => rfl
    | some delivery =>
        cases flag : delivery.sending.success with
        | false => simp [Option.filter, flag]
        | true => simp [Option.filter, flag, HandlerStep.event]

theorem Conversation.steps_event (conversation : Conversation)
    (config : ServerConfig) :
    (conversation.steps config).map HandlerStep.event =
      conversation.events config := by
  unfold Conversation.steps Conversation.events
  rw [List.map_flatMap]
  simp only [Iteration.steps_event]

/-- There is one call for every message that was read. -/
theorem Conversation.steps_message (conversation : Conversation)
    (config : ServerConfig) :
    (conversation.steps config).filterMap HandlerStep.message =
      (clientHandle config conversation.env
        conversation.stream).filterMap fun iteration =>
          iteration.read.exit.result.toOption := by
  unfold Conversation.steps
  induction clientHandle config conversation.env conversation.stream with
  | nil => rfl
  | cons iteration run induction =>
      have one : iteration.steps.filterMap HandlerStep.message =
          iteration.read.exit.result.toOption.toList := by
        rw [Iteration.steps, List.filterMap_append]
        cases iteration.read.exit.result <;> cases iteration.answered <;> rfl
      rw [List.flatMap_cons, List.filterMap_append, one, induction,
        List.filterMap_cons]
      cases iteration.read.exit.result <;> rfl

/-! ## Statuses -/

/-- A response that was sent shows the status that is reported, which is one
of those that the server uses. -/
def HandlerStep.Genuine : HandlerStep → Prop
  | .received _ => True
  | .sent delivery =>
      delivery.status ∈ 200 :: errorStatuses ∧
        wireStatus delivery.sending.sent = some delivery.status.toNat

theorem Iteration.mem_steps_sent {iteration : Iteration}
    {delivery : Delivery} (member : .sent delivery ∈ iteration.steps) :
    iteration.delivery = some delivery ∧
      delivery.sending.success = true := by
  rw [Iteration.steps, List.mem_append, List.mem_map, List.mem_map] at member
  rcases member with ⟨_, _, different⟩ | ⟨other, found, same⟩
  · cases different
  · cases same
    rw [Option.mem_toList, Iteration.answered] at found
    exact Option.filter_eq_some_iff.mp found

theorem Conversation.steps_genuine (conversation : Conversation)
    (config : ServerConfig) :
    ∀ step ∈ conversation.steps config, step.Genuine := by
  intro step member
  obtain ⟨iteration, passed, made⟩ := List.mem_flatMap.mp member
  cases step with
  | received raw => trivial
  | sent delivery =>
      obtain ⟨exchange, state, rfl⟩ := mem_clientHandle passed
      obtain ⟨delivered, success⟩ := Iteration.mem_steps_sent made
      obtain ⟨listed, onWire⟩ := clientIteration_reported delivered success
      refine ⟨?_, onWire⟩
      cases result : (clientIteration config exchange
        state).read.exit.result with
      | error failure =>
          rw [result] at listed
          exact List.mem_cons_of_mem _ listed
      | ok raw =>
          rw [result] at listed
          exact listed

/-- The class of a status that is reported. -/
def StatsEvent.ofClass (digit : Nat) : StatsEvent → Bool
  | .responseSent status =>
      digit * 100 ≤ status && status ≤ digit * 100 + 99
  | _ => false

theorem HandlerStep.Genuine.showsClass {step : HandlerStep}
    (genuine : step.Genuine) (digit : Nat) :
    step.showsClass digit = step.event.ofClass digit := by
  cases step with
  | received raw => rfl
  | sent delivery =>
      obtain ⟨listed, onWire⟩ := genuine
      have positive : ∀ status ∈ 200 :: errorStatuses, 0 ≤ status := by
        decide
      have nonnegative := positive _ listed
      simp only [HandlerStep.showsClass, onWire, Option.any_some,
        HandlerStep.event, StatsEvent.ofClass]
      congr 1
      · rw [decide_eq_decide]
        omega
      · rw [decide_eq_decide]
        omega

/-- The three classes that are counted. -/
def countedClasses : List Nat := [2, 4, 5]

theorem HandlerStep.Genuine.classified {step : HandlerStep}
    (genuine : step.Genuine) (sent : step.isSent = true) :
    ∃! digit, digit ∈ countedClasses ∧ step.showsClass digit = true := by
  cases step with
  | received raw => cases sent
  | sent delivery =>
      simp only [genuine.showsClass, HandlerStep.event]
      have table : ∀ status ∈ 200 :: errorStatuses,
          ∃ digit ∈ countedClasses,
            (StatsEvent.responseSent status).ofClass digit = true ∧
            ∀ other ∈ countedClasses,
              (StatsEvent.responseSent status).ofClass other = true →
              other = digit := by
        decide
      obtain ⟨digit, counted, shown, only⟩ := table _ genuine.1
      exact ⟨digit, ⟨counted, shown⟩, fun other both =>
        only other both.1 both.2⟩

/-! ## Requests before responses -/

section

variable {config : ServerConfig} {spends : HandlerStep → Bool}
  {bound : Nat}

theorem Iteration.demand_read (free : ∀ raw, spends (.received raw) = false)
    {iteration : Iteration} {raw : Bytes}
    (result : iteration.read.exit.result = .ok raw)
    (rest : List HandlerStep) :
    demand spends HandlerStep.isReceived (iteration.steps ++ rest) ≤
      demand spends HandlerStep.isReceived rest := by
  unfold Iteration.steps
  simp only [result, Except.toOption, Option.toList_some, List.map_cons,
    List.map_nil, List.cons_append, List.nil_append]
  rw [demand, free]
  cases iteration.answered with
  | none => exact Nat.le_trans (Nat.sub_le _ _) (by simp)
  | some delivery =>
      have one := Bool.toNat_le (spends (.sent delivery))
      simp only [Option.toList_some, List.map_cons, List.map_nil,
        List.cons_append, List.nil_append, HandlerStep.isReceived]
      rw [demand]
      simp only [HandlerStep.isReceived, Bool.toNat_true, Bool.toNat_false]
      omega

theorem Iteration.steps_unread {iteration : Iteration}
    {failure : ReadError}
    (result : iteration.read.exit.result = .error failure) :
    iteration.steps = iteration.answered.toList.map HandlerStep.sent := by
  simp [Iteration.steps, result, Except.toOption]

/-- A connection demands no more than a pass without a message. -/
theorem Conversation.demand_le
    (free : ∀ raw, spends (.received raw) = false)
    (unread : ∀ exchange state failure,
      (clientIteration config exchange state).read.exit.result =
        .error failure →
      demand spends HandlerStep.isReceived
        (clientIteration config exchange state).steps ≤ bound)
    (conversation : Conversation) :
    demand spends HandlerStep.isReceived (conversation.steps config) ≤
      bound := by
  have loop : ∀ env state, demand spends HandlerStep.isReceived
      ((clientLoop config env state).flatMap Iteration.steps) ≤ bound := by
    intro env state
    fun_induction clientLoop config env state with
    | case1 env state iteration continued induction =>
        obtain ⟨raw, _, result, _⟩ := clientIteration_continues continued
        rw [List.flatMap_cons]
        exact Nat.le_trans (Iteration.demand_read free result _) induction
    | case2 env state iteration _ =>
        rw [List.flatMap_singleton]
        cases result : iteration.read.exit.result with
        | error failure => exact unread (env 0) state failure result
        | ok raw =>
            have nothing := Iteration.demand_read free result []
            rw [List.append_nil] at nothing
            exact Nat.le_trans nothing (Nat.zero_le _)
  exact loop conversation.env _

end

/-- Every successful response answers a request. -/
theorem Conversation.demand_successes (conversation : Conversation)
    (config : ServerConfig) :
    demand (HandlerStep.showsClass 2) HandlerStep.isReceived
      (conversation.steps config) = 0 := by
  apply Nat.le_zero.mp
  apply Conversation.demand_le
  · exact fun _ => rfl
  · intro exchange state failure result
    rw [Iteration.steps_unread result]
    cases given : (clientIteration config exchange state).answered with
    | none => exact Nat.le_refl 0
    | some delivery =>
        obtain ⟨delivered, success⟩ := Option.filter_eq_some_iff.mp given
        have reported := clientIteration_reported delivered success
        have listed := reported.listed
        rw [result] at listed
        have genuine : (HandlerStep.sent delivery).Genuine :=
          ⟨List.mem_cons_of_mem _ listed, reported.onWire⟩
        have table : ∀ status ∈ errorStatuses,
            (StatsEvent.responseSent status).ofClass 2 = false := by
          decide
        simp only [Option.toList_some, List.map_cons, List.map_nil, demand]
        rw [genuine.showsClass, HandlerStep.event, table _ listed]
        exact Nat.le_refl 0

/-- Every response but one answers a request. -/
theorem Conversation.demand_responses (conversation : Conversation)
    (config : ServerConfig) :
    demand HandlerStep.isSent HandlerStep.isReceived
      (conversation.steps config) ≤ 1 := by
  apply Conversation.demand_le
  · exact fun _ => rfl
  · intro exchange state failure result
    rw [Iteration.steps_unread result]
    cases (clientIteration config exchange state).answered with
    | none => exact Nat.zero_le 1
    | some delivery => exact Nat.le_refl 1

end CinderHTTP
