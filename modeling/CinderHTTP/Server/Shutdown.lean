import CinderHTTP.Server.Ownership

/-!
# A signal between the test and the call

The accept loop tests the shutdown flag and then calls `accept`.  A handler
that runs while the call blocks makes it return, and the loop tests again.  A
handler that runs between the test and the call is noticed only when the call
returns: at once if a connection is pending, otherwise when the next one
arrives.
-/

namespace CinderHTTP

/-- Past the test of the loop and not yet back from the call. -/
def MainState.inCall : MainState → Bool
  | .calling => true
  | .accepting => true
  | _ => false

namespace Server

/-- In `accept` although a shutdown was requested.  The call blocks when no
connection is pending; with a pending one the step that follows is its
return. -/
def MissesShutdown (server : Server) : Prop :=
  server.main = .accepting ∧ server.shutdownRequested = true

/-- No signal is handled between the test and the call. -/
def SignalsOutside (server : Server) : ServerAction → Prop
  | .signal => server.main ≠ .calling
  | _ => True

/-- The test has found the flag clear, and it still is. -/
def Unflagged (server : Server) : Prop :=
  server.main.inCall = true → server.shutdownRequested = false

theorem Unflagged.same {server after : Server} (unflagged : server.Unflagged)
    (main : after.main = server.main)
    (flag : after.shutdownRequested = server.shutdownRequested) :
    after.Unflagged := by
  intro inCall
  rw [main] at inCall
  rw [flag]
  exact unflagged inCall

theorem unflagged_outside {server : Server}
    (outside : server.main.inCall = false) : server.Unflagged := by
  intro inCall
  rw [outside] at inCall
  cases inCall

theorem Unflagged.answer {server : Server} (unflagged : server.Unflagged)
    (pending : List StatsEvent) (returned : Option QueueReturn) :
    (server.answer pending returned).Unflagged := by
  unfold Server.answer
  split
  · exact unflagged
  · exact unflagged_outside rfl
  · exact unflagged_outside rfl
  · exact unflagged.same rfl rfl
  · exact unflagged.same rfl rfl

/-- The loop goes on only when the flag is clear. -/
theorem unflagged_turn {setup : ServerSetup} {server after : Server}
    {main : MainState} (unflagged : server.Unflagged)
    (turn : Turn setup server main) (reached : after.main = main)
    (flag : after.shutdownRequested = server.shutdownRequested)
    (stepped : server.mainStep setup = some after) : after.Unflagged := by
  cases turn with
  | goesOn now =>
      intro _
      rw [mainStep, now] at stepped
      simp only at stepped
      split_ifs at stepped with requested
      · cases stepped
        cases reached
      · rw [flag]
        simpa using requested
  | blocks now =>
      intro _
      rw [flag]
      apply unflagged
      rw [now]
      rfl
  | _ =>
      apply unflagged_outside
      rw [reached]
      rfl

theorem Unflagged.step {setup : ServerSetup} {server after : Server}
    {action : ServerAction} (unflagged : server.Unflagged)
    (outside : server.SignalsOutside action)
    (stepped : server.next setup action = some after) : after.Unflagged := by
  have transition := next_transition stepped
  cases transition with
  | signalled =>
      apply unflagged_outside
      cases now : server.main with
      | calling => exact absurd now outside
      | _ => rfl
  | created now more => exact unflagged_outside rfl
  | uncreated now => exact unflagged_outside rfl
  | turned turn => exact unflagged_turn unflagged turn rfl rfl stepped
  | unaccepted now => exact unflagged_outside rfl
  | accepts now opened => exact unflagged_outside rfl
  | counts now => exact unflagged_outside rfl
  | calls now called =>
      apply Unflagged.answer
      exact unflagged_outside rfl
  | closes now => exact unflagged_outside rfl
  | starts now => exact unflagged_outside rfl
  | stops now => exact unflagged_outside rfl
  | destroys now => exact unflagged_outside rfl
  | inside inside moved =>
      apply Unflagged.answer
      exact unflagged.same rfl rfl
  | workerCalls now called => exact unflagged.same rfl rfl
  | workerRecords now => exact unflagged.same rfl rfl
  | workerCloses now => exact unflagged.same rfl rfl
  | workerFinishes now => exact unflagged.same rfl rfl

theorem Fresh.unflagged {setup : ServerSetup} {server : Server}
    (fresh : server.Fresh setup) : server.Unflagged := by
  apply unflagged_outside
  rcases fresh.main with now | ⟨now, _⟩
  · rw [now]
    rfl
  · rw [now]
    rfl

/-- A shutdown is not missed in any run whose signals are handled outside the
window between the test and the call.  Behind a signal in the window the call
is made with the flag set: it is missed until the call returns, which is at
once only if a connection is pending. -/
theorem acceptLoop_notices_shutdown (setup : ServerSetup) :
    (∀ server, (machine setup).ReachableBy SignalsOutside server →
      ¬server.MissesShutdown) ∧
    (∀ (server : Server) (action : ServerAction) (after : Server),
      ¬server.SignalsOutside action →
      server.next setup action = some after →
      ∃ later, after.next setup .main = some later ∧
        later.MissesShutdown) := by
  constructor
  · rintro server reachable ⟨blocked, requested⟩
    have unflagged : server.Unflagged := by
      apply reachable.invariant
      · intro first started
        exact (fresh_of_start started).unflagged
      · intro before action after held outside stepped
        exact held.step outside stepped
    rw [unflagged (by rw [blocked]; rfl)] at requested
    cases requested
  · intro server action after inWindow stepped
    cases action with
    | signal =>
        have now : server.main = .calling := not_not.mp inWindow
        cases stepped
        refine ⟨{ server with
          main := .accepting, shutdownRequested := true }, ?_, rfl, rfl⟩
        simp only [next, mainStep, now, MainState.interrupt]
        rfl
    | _ => exact absurd trivial inWindow

/-- The signal comes while the call blocks. -/
def noticedTrace : List ServerAction :=
  [.create true, .main, .main, .main, .signal]

instance (server : Server) : (action : ServerAction) →
    Decidable (server.SignalsOutside action)
  | .signal => inferInstanceAs (Decidable (server.main ≠ .calling))
  | .create _ => .isTrue trivial
  | .accept _ => .isTrue trivial
  | .main => .isTrue trivial
  | .queue _ _ => .isTrue trivial
  | .worker _ => .isTrue trivial

/-- One worker was created, and the loop is before its test again. -/
def noticedServer : Server :=
  { start singleSetup true with
    main := .testing
    workers := [.calling]
    shutdownRequested := true }

theorem noticedServer_reachable :
    (machine singleSetup).ReachableBy SignalsOutside noticedServer := by
  have started : (machine singleSetup).Start (start singleSetup true) :=
    ⟨true, false, rfl⟩
  apply Machine.ReachableBy.execute (.start started)
  change (machine singleSetup).executeBy SignalsOutside _ noticedTrace =
    some noticedServer
  decide +kernel

theorem acceptLoop_notices_shutdown_blocked : ¬noticedServer.MissesShutdown :=
  (acceptLoop_notices_shutdown singleSetup).1 noticedServer noticedServer_reachable

/-- The signal comes between the test and the call. -/
def missedTrace : List ServerAction :=
  [.create true, .main, .main, .signal, .main]

def missedServer : Server :=
  { noticedServer with main := .accepting }

theorem missedServer_blocked :
    (machine singleSetup).Reachable missedServer ∧
      missedServer.MissesShutdown := by
  have started : (machine singleSetup).Start (start singleSetup true) :=
    ⟨true, false, rfl⟩
  refine ⟨?_, rfl, rfl⟩
  apply Machine.Reachable.execute (.start started)
  change (machine singleSetup).execute _ missedTrace = some missedServer
  decide +kernel

end Server

end CinderHTTP
