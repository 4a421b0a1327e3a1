import CinderHTTP.Client.Figures
import CinderHTTP.Server.Observations

/-!
# The statistics that a running server reports

A pass answers `/api/stats` with a snapshot that it takes between the count of
its request and the count of its response.  A second history variable keeps,
for each worker, the passes of its connection and the states of the server
since its last call.  A client that asks for the statistics reads figures that
agree with the calls made up to one of these states, its own request among
them.
-/

namespace CinderHTTP

/-! ## The passes of a connection and their calls -/

/-- A call of a worker with the pass in which it is made. -/
structure PassStep where
  pass : ClientPass
  step : HandlerStep

def ClientPass.steps (config : ServerConfig) (pass : ClientPass) :
    List PassStep :=
  (pass.iteration config).steps.map fun step => { pass := pass, step := step }

def passSteps (config : ServerConfig) (passes : List ClientPass) :
    List PassStep :=
  passes.flatMap (ClientPass.steps config)

def Conversation.passSteps (conversation : Conversation)
    (config : ServerConfig) : List PassStep :=
  CinderHTTP.passSteps config
    (handlePasses config conversation.env conversation.stream)

theorem Conversation.passSteps_step (conversation : Conversation)
    (config : ServerConfig) :
    (conversation.passSteps config).map PassStep.step =
      conversation.steps config := by
  unfold Conversation.passSteps Conversation.steps CinderHTTP.passSteps
  rw [clientHandle_passes, List.flatMap_map, List.map_flatMap]
  simp only [ClientPass.steps, List.map_map, Function.comp_def, List.map_id']

/-- The response that a pass reports. -/
def ClientPass.reports (config : ServerConfig) (pass : ClientPass) :
    List PassStep :=
  (pass.iteration config).answered.toList.map fun delivery =>
    { pass := pass, step := .sent delivery }

/-- The first call of some passes: a request was read, or without one a
response was sent. -/
inductive FirstStep (config : ServerConfig) :
    PassStep → List PassStep → Prop
  | received (pass : ClientPass) (later : List ClientPass) {raw : Bytes}
      (read : (pass.iteration config).read.exit.result = .ok raw) :
      FirstStep config { pass := pass, step := .received raw }
        (pass.reports config ++ passSteps config later)
  | sent (pass : ClientPass) (later : List ClientPass) {delivery : Delivery}
      {failure : ReadError}
      (unread : (pass.iteration config).read.exit.result = .error failure)
      (answered : (pass.iteration config).answered = some delivery) :
      FirstStep config { pass := pass, step := .sent delivery }
        (passSteps config later)

theorem firstStep_of_passSteps {config : ServerConfig}
    {passes : List ClientPass} {next : PassStep} {rest : List PassStep}
    (due : passSteps config passes = next :: rest) :
    FirstStep config next rest := by
  induction passes with
  | nil => cases due
  | cons pass later induction =>
      rw [passSteps, List.flatMap_cons, ← passSteps, ClientPass.steps,
        Iteration.steps] at due
      cases result : (pass.iteration config).read.exit.result with
      | ok raw =>
          simp only [result, Except.toOption, Option.toList_some,
            List.map_cons, List.map_nil, List.cons_append, List.nil_append,
            List.map_map, List.cons.injEq] at due
          obtain ⟨rfl, rfl⟩ := due
          exact .received pass later result
      | error failure =>
          simp only [result, Except.toOption, Option.toList_none,
            List.map_nil, List.nil_append] at due
          cases answered : (pass.iteration config).answered with
          | none =>
              rw [answered] at due
              exact induction due
          | some delivery =>
              rw [answered] at due
              cases due
              exact .sent pass later result answered

/-- The calls that a worker has yet to make: those of whole passes, or the
report of a pass whose request was counted before. -/
inductive Underway (config : ServerConfig) (counted : HandlerStep → Prop) :
    List PassStep → Prop
  | between (passes : List ClientPass) :
      Underway config counted (passSteps config passes)
  | inside (pass : ClientPass) (later : List ClientPass) {raw : Bytes}
      (read : (pass.iteration config).read.exit.result = .ok raw)
      (before : counted (.received raw)) :
      Underway config counted (pass.reports config ++ passSteps config later)

namespace Underway

variable {config : ServerConfig} {counted since : HandlerStep → Prop}
  {next : PassStep} {rest : List PassStep}

theorem mono {steps : List PassStep}
    (underway : Underway config counted steps)
    (kept : ∀ step, counted step → since step) :
    Underway config since steps := by
  cases underway with
  | between passes => exact .between passes
  | inside pass later read before =>
      exact .inside pass later read (kept _ before)

theorem inversion (underway : Underway config counted (next :: rest)) :
    FirstStep config next rest ∨
      ∃ later raw delivery, next.step = .sent delivery ∧
        (next.pass.iteration config).read.exit.result = .ok raw ∧
        (next.pass.iteration config).answered = some delivery ∧
        counted (.received raw) ∧ rest = passSteps config later := by
  generalize ahead : next :: rest = steps at underway
  cases underway with
  | between passes => exact .inl (firstStep_of_passSteps ahead.symm)
  | inside pass later read before =>
      rw [ClientPass.reports] at ahead
      cases answered : (pass.iteration config).answered with
      | none =>
          rw [answered] at ahead
          exact .inl (firstStep_of_passSteps ahead.symm)
      | some delivery =>
          rw [answered] at ahead
          cases ahead
          exact .inr ⟨later, _, delivery, rfl, read, answered, before, rfl⟩

theorem tail (underway : Underway config counted (next :: rest))
    (made : since next.step) : Underway config since rest := by
  rcases underway.inversion with first | ⟨later, _, _, _, _, _, _, rfl⟩
  · cases first with
    | received pass later read => exact .inside pass later read made
    | sent pass later unread answered => exact .between later
  · exact .between later

/-- A response that is due is that of its pass, whose request was counted. -/
theorem report {delivery : Delivery}
    (underway : Underway config counted (next :: rest))
    (sent : next.step = .sent delivery) :
    (next.pass.iteration config).answered = some delivery ∧
      ∀ raw, (next.pass.iteration config).read.exit.result = .ok raw →
        counted (.received raw) := by
  rcases underway.inversion with
    first | ⟨later, raw, other, same, read, answered, before, _⟩
  · cases first with
    | received pass later read => cases sent
    | sent pass later unread answered =>
        cases sent
        refine ⟨answered, ?_⟩
        intro raw read
        rw [unread] at read
        cases read
  · rw [same] at sent
    cases sent
    refine ⟨answered, ?_⟩
    intro message again
    rw [read] at again
    cases again
    exact before

end Underway

namespace Server

/-! ## The states since the last call of a worker -/

/-- For each worker the calls that it has yet to make, and the states since
its last one. -/
structure Board where
  ahead : Nat → List PassStep
  since : Nat → List (Server × HandlerLog)

namespace Board

/-- Another state has gone by. -/
def wait (board : Board) (moment : Server × HandlerLog) : Board :=
  { board with since := fun index => moment :: board.since index }

/-- A worker has made a call, or popped a connection. -/
def put (board : Board) (index : Nat) (steps : List PassStep) : Board :=
  { ahead := Function.update board.ahead index steps
    since := Function.update board.since index [] }

variable (board : Board) (steps : List PassStep)

@[simp]
theorem put_ahead_self (index : Nat) :
    (board.put index steps).ahead index = steps :=
  Function.update_self _ _ _

@[simp]
theorem put_since_self (index : Nat) :
    (board.put index steps).since index = [] :=
  Function.update_self _ _ _

theorem put_ahead_other {index other : Nat} (different : other ≠ index) :
    (board.put index steps).ahead other = board.ahead other :=
  Function.update_of_ne different _ _

theorem put_since_other {index other : Nat} (different : other ≠ index) :
    (board.put index steps).since other = board.since other :=
  Function.update_of_ne different _ _

end Board

def follow (setup : ServerSetup) (moment : Server × HandlerLog)
    (action : ServerAction) (board : Board) : Board :=
  match action with
  | .queue action conversation =>
      match moment.1.system.step action with
      | some (_, some (.pop thread .ok (some _))) =>
          (board.wait moment).put (thread - 1)
            (conversation.passSteps setup.config)
      | _ => board.wait moment
  | .worker index =>
      match moment.1.workers[index]? with
      | some (.handling _ (_ :: _)) =>
          (board.wait moment).put index (board.ahead index).tail
      | _ => board.wait moment
  | _ => board.wait moment

/-- All runs of `server_run` with their logs and boards. -/
def reporting (setup : ServerSetup) :
    Machine ((Server × HandlerLog) × Board) ServerAction :=
  (observed setup).recording
    { ahead := fun _ => [], since := fun _ => [] } (follow setup)

/-- What a step means for the log and the board. -/
inductive Following (setup : ServerSetup) (moment : Server × HandlerLog)
    (board : Board) : HandlerLog → Board → Prop
  | waited : Following setup moment board moment.2 (board.wait moment)
  | popped (index : Nat) (conversation : Conversation) :
      Following setup moment board
        { moment.2 with
          remaining := moment.2.remaining.set index
            (conversation.steps setup.config) }
        ((board.wait moment).put index
          (conversation.passSteps setup.config))
  | called {index : Nat} {clientFd : Int} {event : StatsEvent}
      {pending : List StatsEvent}
      (now : moment.1.workers[index]? =
        some (.handling clientFd (event :: pending))) :
      Following setup moment board (moment.2.make index)
        ((board.wait moment).put index (board.ahead index).tail)

theorem following (setup : ServerSetup) (moment : Server × HandlerLog)
    (action : ServerAction) (board : Board) :
    Following setup moment board
      (observe setup moment.1 action moment.2)
      (follow setup moment action board) := by
  cases action with
  | queue action conversation =>
      cases stepped : moment.1.system.step action with
      | none =>
          simp only [observe, follow, stepped]
          exact .waited
      | some pair =>
          obtain ⟨system, returned⟩ := pair
          simp only [observe, follow, stepped]
          cases returned with
          | none => exact .waited
          | some returned =>
              cases returned with
              | push => exact .waited
              | pop thread status clientFd =>
                  cases status with
                  | ok =>
                      cases clientFd with
                      | none => exact .waited
                      | some clientFd => exact .popped _ conversation
                  | _ => exact .waited
  | worker index =>
      cases now : moment.1.workers[index]? with
      | none =>
          simp only [observe, follow, now]
          exact .waited
      | some worker =>
          cases worker with
          | handling clientFd pending =>
              cases pending with
              | nil =>
                  simp only [observe, follow, now]
                  exact .waited
              | cons event pending =>
                  simp only [observe, follow, now]
                  exact .called now
          | _ =>
              simp only [observe, follow, now]
              exact .waited
  | _ => exact .waited

/-! ## Runs -/

/-- What holds of a state and its board in every run. -/
structure Followed (setup : ServerSetup) (moment : Server × HandlerLog)
    (board : Board) : Prop where
  reachable : (observed setup).Reachable moment
  /-- The states since a call are states of the run. -/
  earlier : ∀ index, ∀ past ∈ board.since index,
    (observed setup).Reachable past ∧ past.2.made <+: moment.2.made
  /-- The board has the calls of the log. -/
  agrees : ∀ (index : Nat) (steps : List HandlerStep),
    moment.2.remaining[index]? = some steps →
    (board.ahead index).map PassStep.step = steps
  underway : ∀ index, Underway setup.config
    (fun step => ∀ past ∈ moment :: board.since index, step ∈ past.2.made)
    (board.ahead index)

section

variable {setup : ServerSetup} {moment after : Server × HandlerLog}
  {board : Board}

theorem Followed.wait_underway (followed : Followed setup moment board)
    (made : moment.2.made <+: after.2.made) (index : Nat) :
    Underway setup.config
      (fun step => ∀ past ∈ after :: (board.wait moment).since index,
        step ∈ past.2.made)
      (board.ahead index) := by
  apply (followed.underway index).mono
  intro step counted past member
  rcases List.mem_cons.mp member with rfl | before
  · exact made.subset (counted moment List.mem_cons_self)
  · exact counted past before

theorem Followed.wait_earlier (followed : Followed setup moment board)
    (made : moment.2.made <+: after.2.made) (index : Nat) :
    ∀ past ∈ (board.wait moment).since index,
      (observed setup).Reachable past ∧ past.2.made <+: after.2.made := by
  intro past member
  rcases List.mem_cons.mp member with rfl | before
  · exact ⟨followed.reachable, made⟩
  · obtain ⟨reached, grown⟩ := followed.earlier index past before
    exact ⟨reached, grown.trans made⟩

theorem Followed.put (followed : Followed setup moment board)
    (reachable : (observed setup).Reachable after)
    (made : moment.2.made <+: after.2.made) {index : Nat}
    {steps : List PassStep}
    (remaining : after.2.remaining =
      moment.2.remaining.set index (steps.map PassStep.step))
    (underway : Underway setup.config (· ∈ after.2.made) steps) :
    Followed setup after ((board.wait moment).put index steps) := by
  constructor
  · exact reachable
  · intro other past member
    by_cases same : other = index
    · subst same
      simp at member
    · rw [Board.put_since_other _ _ same] at member
      exact followed.wait_earlier made other past member
  · intro other ahead found
    rw [remaining] at found
    rcases getElem?_set_cases found with ⟨rfl, rfl⟩ | ⟨different, kept⟩
    · rw [Board.put_ahead_self]
    · rw [Board.put_ahead_other _ _ different]
      exact followed.agrees other ahead kept
  · intro other
    by_cases same : other = index
    · subst same
      simpa using underway
    · rw [Board.put_ahead_other _ _ same, Board.put_since_other _ _ same]
      exact followed.wait_underway made other

theorem Followed.step {server : Server} {log : HandlerLog} {later : Board}
    (followed : Followed setup moment board)
    (reachable : (observed setup).Reachable (server, log))
    (following : Following setup moment board log later) :
    Followed setup (server, log) later := by
  cases following with
  | waited =>
      exact
        { reachable := reachable
          earlier := followed.wait_earlier (List.prefix_refl _)
          agrees := followed.agrees
          underway := followed.wait_underway (List.prefix_refl _) }
  | popped index conversation =>
      apply followed.put reachable (List.prefix_refl _)
      · rw [conversation.passSteps_step]
      · exact .between _
  | called now =>
      rename_i index clientFd event pending
      obtain ⟨_, _, _, seen⟩ := observed_of_reachable followed.reachable
      obtain ⟨steps, found, same⟩ := seen.pending _ _ _ now
      have agrees := followed.agrees index steps found
      have due := followed.underway index
      cases ahead : board.ahead index with
      | nil =>
          rw [ahead] at agrees
          cases agrees
          cases same
      | cons next rest =>
          rw [ahead, List.map_cons] at agrees
          subst agrees
          rw [ahead] at due
          have made : moment.2.make index =
              { remaining := moment.2.remaining.set index
                  (rest.map PassStep.step)
                made := moment.2.made ++ [next.step] } := by
            simp only [HandlerLog.make, found]
          rw [made] at reachable ⊢
          apply followed.put reachable (List.prefix_append _ _) rfl
          exact due.tail (List.mem_append_right _ List.mem_cons_self)

end

theorem followed_of_reachable {setup : ServerSetup}
    {moment : Server × HandlerLog} {board : Board}
    (reachable : (reporting setup).Reachable (moment, board)) :
    Followed setup moment board := by
  apply Machine.Reachable.recorded reachable (Followed setup)
  · rintro ⟨server, log⟩ ⟨started, rfl⟩
    refine ⟨.start ⟨started, rfl⟩, by simp, ?_, fun index => .between []⟩
    intro index steps found
    rw [List.eq_of_mem_replicate (List.mem_of_getElem? found)]
    rfl
  · rintro before action after board followed stepped
    have reached := followed.reachable.step stepped
    obtain ⟨later, moved, rfl⟩ := Option.map_eq_some_iff.mp stepped
    exact followed.step reached (following setup before action board)

/-- A client that asks a running server for the statistics gets the figures of
a state since the count of its request: they agree with the calls that were
made until then, and its own request is one of them. -/
theorem serverStats_reported {setup : ServerSetup} {server : Server}
    {log : HandlerLog} {board : Board}
    (reachable : (reporting setup).Reachable ((server, log), board))
    {index : Nat} {next : PassStep} {rest : List PassStep}
    (due : board.ahead index = next :: rest) {delivery : Delivery}
    (sent : next.step = .sent delivery)
    {moment : Server × HandlerLog}
    (since : moment ∈ (server, log) :: board.since index)
    (few : moment.1.history.length < 2 ^ 64)
    (taken : next.pass.exchange.snapshot =
      serverStatsSnapshot moment.1.stats)
    (faultless : next.pass.exchange.Faultless) {request : Request}
    {tail : Bytes}
    (accepts : (next.pass.iteration setup.config).Accepts request)
    (method : request.method = .get)
    (target : request.target = some (ascii "/api/stats" ++ tail))
    (boundary : AtBoundary question tail) :
    (observed setup).Reachable moment ∧
      moment.2.made <+: log.made ∧
      (∃ raw, (next.pass.iteration setup.config).read.exit.result =
          .ok raw ∧ .received raw ∈ moment.2.made) ∧
      ∃ figures,
        (messageBody delivery.sending.sent).bind decodeStats =
          some figures ∧
        StatsAgree moment.2 figures := by
  have followed := followed_of_reachable reachable
  have underway := followed.underway index
  rw [due] at underway
  obtain ⟨answered, counted⟩ := underway.report sent
  have reached : (observed setup).Reachable moment ∧
      moment.2.made <+: log.made := by
    rcases List.mem_cons.mp since with rfl | before
    · exact ⟨followed.reachable, List.prefix_refl _⟩
    · exact followed.earlier index moment before
  refine ⟨reached.1, reached.2, ?_, next.pass.exchange.snapshot, ?_, ?_⟩
  · obtain ⟨outcome, parsed, _⟩ := accepts
    obtain ⟨raw, read, _⟩ := clientIteration_parsed parsed
    exact ⟨raw, read, counted raw read moment since⟩
  · obtain ⟨response, presentable, _, output⟩ := clientIteration_statsOutput
      faultless accepts method target boundary
    have delivered := (Option.filter_eq_some_iff.mp answered).1
    have bytes : (next.pass.iteration setup.config).output =
        delivery.sending.sent := by
      rw [Iteration.output, delivered]
    rw [← bytes, ClientPass.iteration, output,
      messageBody_serialized presentable, Option.bind_some]
    exact decodeStats_statsJson _
  · rw [taken]
    exact statsAgree_of_reachable reached.1 few

/-- The first client asks for the statistics. -/
def statsConversation : Conversation :=
  { env := fun _ => { sampleExchange with snapshot := ⟨1, 1, 0, 0, 0, 1⟩ }
    stream := ascii "GET /api/stats HTTP/1.0\r\n\r\n" }

/-- Its request is counted, and its response is sent next. -/
def statsTrace : List ServerAction :=
  [.create true, .main] ++ acceptTrace 4 ++
    [.main, .worker 0, .queue (.popSection 1 []) statsConversation,
      .worker 0]

-- the pass has taken the snapshot of the state that the run has reached
example :
    ((reporting singleSetup).execute
      ((start singleSetup true, { remaining := [[]], made := [] }),
        { ahead := fun _ => [], since := fun _ => [] }) statsTrace).map
      (fun state => ((state.2.ahead 0).map (·.pass.exchange.snapshot),
        serverStatsSnapshot state.1.1.stats)) =
    some ([⟨1, 1, 0, 0, 0, 1⟩], ⟨1, 1, 0, 0, 0, 1⟩) := by
  decide +kernel

end Server

end CinderHTTP
