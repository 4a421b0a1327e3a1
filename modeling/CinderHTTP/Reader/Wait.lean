import CinderHTTP.Base.Memory
import Mathlib.Algebra.Ring.Nat

/-!
# Deadlines and waiting for bytes

The clock arithmetic of `http_reader.c` and `wait_readable`.  The kernel
answers each `poll` from a script; when the script is exhausted the socket is
readable.  Every `poll` is recorded with the time at which it was issued and
its timeout.
-/

namespace CinderHTTP

structure Timespec where
  sec : Int
  nsec : Int
  deriving DecidableEq, Repr

def timespecBefore (left right : Timespec) : Bool :=
  if left.sec ≠ right.sec then left.sec < right.sec
  else left.nsec < right.nsec

def Timespec.addSeconds (time : Timespec) (seconds : Int) : Timespec :=
  { time with sec := time.sec + seconds }

/-- The milliseconds left before a deadline, with the clock reading as
argument.  A failed reading counts as one second. -/
def remainingTimeoutMs (deadline : Timespec) (now : Option Timespec) : Int :=
  match now with
  | none => 1000
  | some now =>
      if !timespecBefore now deadline then 0
      else
        let borrow := deadline.nsec - now.nsec < 0
        let sec := deadline.sec - now.sec - if borrow then 1 else 0
        let nsec := deadline.nsec - now.nsec +
          if borrow then 1000000000 else 0
        if sec > 1000 then 1000 * 1000
        else
          let ms := sec * 1000 + nsec.tdiv 1000000
          if ms ≤ 0 then 0
          else if ms > 2147483647 then 2147483647
          else ms

/-- A value stored in a C `int`. -/
def wrapInt (value : Int) : Int :=
  value.bmod (2 ^ 32)

/-- The wait for the first byte of a request. -/
def idleTimeoutMs (keepAliveTimeoutSec : Int) : Int :=
  let timeoutMs := wrapInt (keepAliveTimeoutSec * 1000)
  if timeoutMs < 0 then 1000 else timeoutMs

structure Revents where
  pollin : Bool
  pollerr : Bool
  pollhup : Bool
  pollnval : Bool
  deriving DecidableEq, Repr

/-- One answer of `poll`; an interrupted call is issued again later. -/
inductive PollAnswer where
  | ready (revents : Revents)
  | expired
  | interrupted (reissuedAt : Timespec)
  | failed
  deriving DecidableEq, Repr

structure PollIssue where
  issuedAt : Timespec
  timeoutMs : Int
  deriving DecidableEq, Repr

inductive WaitResult where
  | readable
  | timeout
  | error
  deriving DecidableEq, Repr

def waitReadable (timeoutMs : Int) (issuedAt : Timespec) :
    List PollAnswer → WaitResult × List PollIssue
  | [] => (.readable, [{ issuedAt := issuedAt, timeoutMs := timeoutMs }])
  | .interrupted reissuedAt :: answers =>
      let resumed := waitReadable timeoutMs reissuedAt answers
      (resumed.1,
        { issuedAt := issuedAt, timeoutMs := timeoutMs } :: resumed.2)
  | .failed :: _ =>
      (.error, [{ issuedAt := issuedAt, timeoutMs := timeoutMs }])
  | .expired :: _ =>
      (.timeout, [{ issuedAt := issuedAt, timeoutMs := timeoutMs }])
  | .ready revents :: _ =>
      -- a hangup counts as readable, so that recv sees the end or the error
      let result :=
        if revents.pollerr || revents.pollhup || revents.pollnval then
          WaitResult.readable
        else if revents.pollin then .readable
        else .error
      (result, [{ issuedAt := issuedAt, timeoutMs := timeoutMs }])

end CinderHTTP
