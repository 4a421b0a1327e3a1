import CinderHTTP.Base.Transition
import CinderHTTP.Response.Send

/-!
# Streaming a file body

`send_file_body` call by call.  Each state stands right before a system call,
with the offset and the counters of the source, the position of the file
description and the bytes that are on the socket; the kernel answers every
call as its contract allows.  Whatever it answers, the socket has received a
beginning of the file, and the next bytes are taken from right behind it.
-/

namespace CinderHTTP

/-- The system call that comes next. -/
inductive StreamPhase where
  | sendfile (offset remaining : Nat)
  | lseek (offset remaining : Nat)
  | read (remaining : Nat)
  | send (chunk : Bytes) (totalSent remaining : Nat)
  | finished (success : Bool)
  deriving DecidableEq, Repr

structure Streaming where
  phase : StreamPhase
  position : Nat
  sent : Bytes
  deriving DecidableEq, Repr

/-- An answer of the kernel.  `unsupported` stands for EINVAL and ENOSYS. -/
inductive KernelAnswer where
  | count (size : Nat)
  | moved
  | interrupted
  | unsupported
  | failed
  deriving DecidableEq, Repr

/-! ## The loops -/

/-- Behind the `sendfile` loop. -/
def leaveSendfile (length offset remaining : Nat) : StreamPhase :=
  if offset = length then .finished true else .lseek offset remaining

/-- The head of the `sendfile` loop. -/
def enterSendfile (length offset remaining : Nat) : StreamPhase :=
  if remaining > 0 then .sendfile offset remaining
  else leaveSendfile length offset remaining

/-- The head of the portable loop. -/
def enterRead (remaining : Nat) : StreamPhase :=
  if remaining > 0 then .read remaining else .finished true

/-- The head of the loop of `send_all`, and what follows its return. -/
def enterSend (chunk : Bytes) (totalSent remaining : Nat) : StreamPhase :=
  if totalSent < chunk.length then .send chunk totalSent remaining
  else enterRead (remaining - chunk.length)

def beginStreaming (length position : Nat) : Streaming :=
  { phase := if length = 0 then .finished true
      else enterSendfile length 0 length
    position := position
    sent := [] }

def Streaming.fail (state : Streaming) : Streaming :=
  { state with phase := .finished false }

/-- What the source does with an answer.  Calls that deliver bytes count them,
and only `lseek` moves. -/
def streamNext (content : Bytes) (length : Nat) (state : Streaming)
    (answer : KernelAnswer) : Option Streaming :=
  match state.phase with
  | .sendfile offset remaining =>
      match answer with
      | .count 0 => some state.fail
      | .count size => some { state with
          phase := enterSendfile length (offset + size)
            (length - (offset + size))
          sent := state.sent ++ fileBytes content offset size }
      | .moved => none
      | .interrupted => some state
      | .unsupported =>
          if offset = 0 then
            some { state with phase := leaveSendfile length offset remaining }
          else some state.fail
      | .failed => some state.fail
  | .lseek offset remaining =>
      match answer with
      | .count _ => none
      | .moved => some { state with
          phase := enterRead remaining
          position := offset }
      | _ => some state.fail
  | .read remaining =>
      match answer with
      | .count 0 => some state.fail
      | .count size =>
          let chunk := fileBytes content state.position size
          some { state with
            phase := enterSend chunk 0 remaining
            position := state.position + chunk.length }
      | .moved => none
      | .interrupted => some state
      | _ => some state.fail
  | .send chunk totalSent remaining =>
      match answer with
      | .count 0 => some state.fail
      | .count size => some { state with
          phase := enterSend chunk (totalSent + size) remaining
          sent := state.sent ++ (chunk.drop totalSent).take size }
      | .moved => none
      | .interrupted => some state
      | _ => some state.fail
  | .finished _ => none

/-! ## The contract of the kernel -/

/-- How many bytes the call asks for. -/
def StreamPhase.asks : StreamPhase → Nat
  | .sendfile _ remaining => remaining
  | .lseek _ _ => 0
  | .read remaining => min remaining httpStaticSendChunk
  | .send chunk totalSent _ => chunk.length - totalSent
  | .finished _ => 0

/-- Where the call takes bytes from the file. -/
def Streaming.source (state : Streaming) : Option Nat :=
  match state.phase with
  | .sendfile offset _ => some offset
  | .read _ => some state.position
  | _ => none

/-- A call delivers no more than it was asked for, and only bytes that the
file has. -/
def Allows (content : Bytes) (state : Streaming) : KernelAnswer → Prop
  | .count size => size ≤ state.phase.asks ∧
      (size = 0 ∨ ∀ offset ∈ state.source, offset + size ≤ content.length)
  | _ => True

instance (content : Bytes) (state : Streaming) (answer : KernelAnswer) :
    Decidable (Allows content state answer) :=
  match answer with
  | .count size =>
      inferInstanceAs (Decidable (size ≤ _ ∧
        (size = 0 ∨ ∀ offset ∈ state.source, _)))
  | .moved => .isTrue trivial
  | .interrupted => .isTrue trivial
  | .unsupported => .isTrue trivial
  | .failed => .isTrue trivial

def streamMachine (content : Bytes) (length : Nat) :
    Machine Streaming KernelAnswer where
  Start state := ∃ position, state = beginStreaming length position
  next := streamNext content length

/-- The states of `send_file_body` under a kernel that keeps the contract. -/
def StreamReachable (content : Bytes) (length : Nat) : Streaming → Prop :=
  (streamMachine content length).ReachableBy (Allows content)

/-! ## The invariant -/

/-- The socket has a beginning of the file, and the counters say how much is
missing.  During `send_all` the chunk read continues that beginning. -/
inductive Streamed (content : Bytes) (length : Nat) : Streaming → Prop
  | sendfile {sent : Bytes} {remaining : Nat} (position : Nat) :
      sent <+: content → sent.length + remaining = length →
      Streamed content length
        ⟨.sendfile sent.length remaining, position, sent⟩
  | lseek {sent : Bytes} {remaining : Nat} (position : Nat) :
      sent <+: content → sent.length + remaining = length →
      Streamed content length ⟨.lseek sent.length remaining, position, sent⟩
  | read {sent : Bytes} {remaining : Nat} :
      sent <+: content → sent.length + remaining = length →
      Streamed content length ⟨.read remaining, sent.length, sent⟩
  | send {front chunk : Bytes} {totalSent remaining : Nat} :
      front ++ chunk <+: content → front.length + remaining = length →
      chunk.length ≤ remaining → totalSent ≤ chunk.length →
      Streamed content length ⟨.send chunk totalSent remaining,
        (front ++ chunk).length, front ++ chunk.take totalSent⟩
  | succeeded {sent : Bytes} (position : Nat) :
      sent <+: content → sent.length = length →
      Streamed content length ⟨.finished true, position, sent⟩
  | failed {sent : Bytes} (position : Nat) :
      sent <+: content → sent.length ≤ length →
      Streamed content length ⟨.finished false, position, sent⟩

theorem append_fileBytes_front {content sent : Bytes}
    (front : sent <+: content) (size : Nat) :
    sent ++ fileBytes content sent.length size <+: content := by
  obtain ⟨rest, rfl⟩ := front
  rw [fileBytes, List.drop_left]
  exact (List.prefix_append_right_inj sent).mpr (List.take_prefix size rest)

theorem fileBytes_length {content : Bytes} {offset size : Nat}
    (inside : offset + size ≤ content.length) :
    (fileBytes content offset size).length = size := by
  rw [fileBytes, List.length_take, List.length_drop]
  omega

namespace Streamed

variable {content sent : Bytes} {length remaining : Nat}

theorem enterRead (front : sent <+: content)
    (total : sent.length + remaining = length) :
    Streamed content length ⟨CinderHTTP.enterRead remaining, sent.length,
      sent⟩ := by
  unfold CinderHTTP.enterRead
  split_ifs with more
  · exact .read front total
  · exact .succeeded _ front (by omega)

theorem leaveSendfile (position : Nat) (front : sent <+: content)
    (total : sent.length + remaining = length) :
    Streamed content length ⟨CinderHTTP.leaveSendfile length sent.length
      remaining, position, sent⟩ := by
  unfold CinderHTTP.leaveSendfile
  split_ifs with complete
  · exact .succeeded _ front complete
  · exact .lseek _ front total

theorem enterSendfile (position : Nat) (front : sent <+: content)
    (total : sent.length + remaining = length) :
    Streamed content length ⟨CinderHTTP.enterSendfile length sent.length
      remaining, position, sent⟩ := by
  unfold CinderHTTP.enterSendfile
  split_ifs with more
  · exact .sendfile _ front total
  · exact leaveSendfile position front total

theorem enterSend {front chunk : Bytes} {totalSent : Nat}
    (continued : front ++ chunk <+: content)
    (total : front.length + remaining = length)
    (short : chunk.length ≤ remaining) (part : totalSent ≤ chunk.length) :
    Streamed content length ⟨CinderHTTP.enterSend chunk totalSent remaining,
      (front ++ chunk).length, front ++ chunk.take totalSent⟩ := by
  unfold CinderHTTP.enterSend
  split_ifs with more
  · exact .send continued total short part
  · rw [List.take_of_length_le (Nat.le_of_not_lt more)]
    refine enterRead continued ?_
    rw [List.length_append]
    omega

theorem fail {state : Streaming} (streamed : Streamed content length state) :
    Streamed content length state.fail := by
  cases streamed with
  | sendfile position front total =>
      exact .failed _ front (Nat.le.intro total)
  | lseek position front total => exact .failed _ front (Nat.le.intro total)
  | read front total => exact .failed _ front (Nat.le.intro total)
  | @send before chunk totalSent _ continued total short part =>
      refine .failed _ (List.IsPrefix.trans ?_ continued) ?_
      · exact (List.prefix_append_right_inj _).mpr (List.take_prefix _ _)
      · rw [List.length_append, List.length_take]
        omega
  | succeeded position front total =>
      exact .failed _ front (Nat.le_of_eq total)
  | failed position front bounded => exact .failed _ front bounded

theorem start (content : Bytes) (length position : Nat) :
    Streamed content length (beginStreaming length position) := by
  have nothing : ([] : Bytes) <+: content := List.nil_prefix
  unfold beginStreaming
  split_ifs with empty
  · exact .succeeded _ nothing empty.symm
  · exact enterSendfile _ nothing (Nat.zero_add length)

/-! Bytes that were delivered keep the invariant. -/

theorem sendfileDelivered {size : Nat} (position : Nat)
    (front : sent <+: content) (total : sent.length + remaining = length)
    (short : size ≤ remaining)
    (inside : sent.length + size ≤ content.length) :
    Streamed content length
      ⟨CinderHTTP.enterSendfile length (sent.length + size)
          (length - (sent.length + size)), position,
        sent ++ fileBytes content sent.length size⟩ := by
  have moved := append_fileBytes_front front size
  have reached : (sent ++ fileBytes content sent.length size).length =
      sent.length + size := by
    rw [List.length_append, fileBytes_length inside]
  rw [← reached]
  exact enterSendfile position moved (by omega)

theorem readDelivered {size : Nat} (front : sent <+: content)
    (total : sent.length + remaining = length) (short : size ≤ remaining)
    (inside : sent.length + size ≤ content.length) :
    Streamed content length
      ⟨CinderHTTP.enterSend (fileBytes content sent.length size) 0 remaining,
        sent.length + (fileBytes content sent.length size).length,
        sent⟩ := by
  have full := fileBytes_length inside
  have chunked := @enterSend content length remaining sent
    (fileBytes content sent.length size) 0
    (append_fileBytes_front front size) total (by omega) (Nat.zero_le _)
  rwa [List.length_append, List.take_zero, List.append_nil] at chunked

theorem sendDelivered {front chunk : Bytes} {totalSent size : Nat}
    (continued : front ++ chunk <+: content)
    (total : front.length + remaining = length)
    (short : chunk.length ≤ remaining)
    (part : totalSent + size ≤ chunk.length) :
    Streamed content length
      ⟨CinderHTTP.enterSend chunk (totalSent + size) remaining,
        (front ++ chunk).length,
        front ++ chunk.take totalSent ++ (chunk.drop totalSent).take size⟩ := by
  have advanced := enterSend continued total short part
  rwa [List.take_add, ← List.append_assoc] at advanced

/-- Every answer that the contract allows keeps the invariant. -/
theorem next {state after : Streaming} {answer : KernelAnswer}
    (streamed : Streamed content length state)
    (allowed : Allows content state answer)
    (stepped : streamNext content length state answer = some after) :
    Streamed content length after := by
  have failing := streamed.fail
  cases streamed with
  | @sendfile sent remaining position front total =>
      match answer with
      | .count 0 =>
          cases stepped
          exact failing
      | .count (size + 1) =>
          cases stepped
          obtain ⟨short, inside⟩ := allowed
          exact sendfileDelivered position front total short
            (inside.resolve_left (Nat.succ_ne_zero size) _ rfl)
      | .interrupted =>
          cases stepped
          exact .sendfile position front total
      | .unsupported =>
          simp only [streamNext] at stepped
          split_ifs at stepped
          · cases stepped
            exact leaveSendfile position front total
          · cases stepped
            exact failing
      | .failed =>
          cases stepped
          exact failing
  | lseek position front total =>
      cases answer with
      | count size => cases stepped
      | moved =>
          cases stepped
          exact enterRead front total
      | interrupted =>
          cases stepped
          exact failing
      | unsupported =>
          cases stepped
          exact failing
      | failed =>
          cases stepped
          exact failing
  | @read sent remaining front total =>
      match answer with
      | .count 0 =>
          cases stepped
          exact failing
      | .count (size + 1) =>
          cases stepped
          obtain ⟨short, inside⟩ := allowed
          exact readDelivered front total
            (Nat.le_trans short (Nat.min_le_left _ _))
            (inside.resolve_left (Nat.succ_ne_zero size) _ rfl)
      | .interrupted =>
          cases stepped
          exact .read front total
      | .unsupported =>
          cases stepped
          exact failing
      | .failed =>
          cases stepped
          exact failing
  | @send front chunk totalSent remaining continued total short part =>
      match answer with
      | .count 0 =>
          cases stepped
          exact failing
      | .count (size + 1) =>
          cases stepped
          have bounded : size + 1 ≤ chunk.length - totalSent := allowed.1
          exact sendDelivered continued total short (by omega)
      | .interrupted =>
          cases stepped
          exact .send continued total short part
      | .unsupported =>
          cases stepped
          exact failing
      | .failed =>
          cases stepped
          exact failing
  | succeeded => cases stepped
  | failed => cases stepped

end Streamed

theorem StreamReachable.streamed {content : Bytes} {length : Nat}
    {state : Streaming} (reachable : StreamReachable content length state) :
    Streamed content length state := by
  apply reachable.invariant
  · rintro start ⟨position, rfl⟩
    exact .start content length position
  · intro before answer after streamed allowed stepped
    exact streamed.next allowed stepped

/-! ## The scripted calls -/

/-- What was delivered is what a call for exactly that many bytes
delivers. -/
theorem fileBytes_delivered (content : Bytes) (offset size : Nat) :
    fileBytes content offset (fileBytes content offset size).length =
      fileBytes content offset size := by
  unfold fileBytes
  rw [List.take_eq_take_iff, List.length_take]
  omega

theorem fileBytes_inside {content : Bytes} {offset size : Nat}
    (some : fileBytes content offset size ≠ []) :
    offset + (fileBytes content offset size).length ≤ content.length := by
  have positive := List.length_pos_iff.mpr some
  rw [fileBytes, List.length_take, List.length_drop] at positive ⊢
  omega

theorem fileBytes_length_le (content : Bytes) (offset size : Nat) :
    (fileBytes content offset size).length ≤ size := by
  rw [fileBytes, List.length_take]
  exact Nat.min_le_left _ _

namespace StreamReachable

variable {content sent : Bytes} {length remaining position : Nat}

theorem step {state after : Streaming} {answer : KernelAnswer}
    (reachable : StreamReachable content length state)
    (allowed : Allows content state answer)
    (stepped : streamNext content length state answer = some after) :
    StreamReachable content length after :=
  Machine.ReachableBy.step reachable allowed stepped

theorem fail {state : Streaming}
    (reachable : StreamReachable content length state)
    (running : ∀ success, state.phase ≠ .finished success) :
    StreamReachable content length state.fail := by
  have failing : Allows content state .failed := trivial
  obtain ⟨phase, position, sent⟩ := state
  cases phase with
  | finished success => exact absurd rfl (running success)
  | sendfile => exact reachable.step failing rfl
  | lseek => exact reachable.step failing rfl
  | read => exact reachable.step failing rfl
  | send => exact reachable.step failing rfl

theorem sendfile {offset size : Nat} (asked : size ≤ length - offset)
    (reachable : StreamReachable content length
      ⟨enterSendfile length offset (length - offset), position, sent⟩) :
    StreamReachable content length
      ⟨enterSendfile length (offset + (fileBytes content offset size).length)
        (length - (offset + (fileBytes content offset size).length)),
        position, sent ++ fileBytes content offset size⟩ := by
  have short := fileBytes_length_le content offset size
  have delivered := fileBytes_delivered content offset size
  have inside := @fileBytes_inside content offset size
  generalize fileBytes content offset size = bytes at *
  rcases bytes with _ | ⟨first, others⟩
  · simpa using reachable
  have more : length - offset > 0 := by
    rw [List.length_cons] at short
    omega
  rw [enterSendfile, if_pos more] at reachable
  have allowed : Allows content
      ⟨.sendfile offset (length - offset), position, sent⟩
      (.count (first :: others).length) := by
    refine ⟨Nat.le_trans short asked, .inr ?_⟩
    rintro _ ⟨⟩
    exact inside (List.cons_ne_nil _ _)
  have moved := reachable.step allowed rfl
  simp only [delivered] at moved
  exact moved

theorem read {size : Nat} (asked : size ≤ min remaining httpStaticSendChunk)
    (some : fileBytes content position size ≠ [])
    (reachable : StreamReachable content length
      ⟨.read remaining, position, sent⟩) :
    StreamReachable content length
      ⟨enterSend (fileBytes content position size) 0 remaining,
        position + (fileBytes content position size).length, sent⟩ := by
  have short := fileBytes_length_le content position size
  have delivered := fileBytes_delivered content position size
  have inside := fileBytes_inside some
  generalize fileBytes content position size = chunk at *
  rcases chunk with _ | ⟨first, others⟩
  · exact absurd rfl some
  have allowed : Allows content ⟨.read remaining, position, sent⟩
      (.count (first :: others).length) := by
    refine ⟨Nat.le_trans short asked, .inr ?_⟩
    rintro _ ⟨⟩
    exact inside
  have moved := reachable.step allowed rfl
  simp only [delivered] at moved
  exact moved

theorem send {chunk : Bytes} {totalSent size : Nat}
    (asked : size ≤ chunk.length - totalSent)
    (reachable : StreamReachable content length
      ⟨enterSend chunk totalSent remaining, position, sent⟩) :
    StreamReachable content length
      ⟨enterSend chunk (totalSent + size) remaining, position,
        sent ++ (chunk.drop totalSent).take size⟩ := by
  cases size with
  | zero => simpa using reachable
  | succ size =>
      have more : totalSent < chunk.length := by omega
      rw [enterSend, if_pos more] at reachable
      have allowed : Allows content
          ⟨.send chunk totalSent remaining, position, sent⟩
          (.count (size + 1)) := by
        refine ⟨asked, .inr ?_⟩
        rintro _ ⟨⟩
      exact reachable.step allowed rfl

theorem failSend {chunk : Bytes} {totalSent : Nat}
    (some : chunk.drop totalSent ≠ [])
    (reachable : StreamReachable content length
      ⟨enterSend chunk totalSent remaining, position, sent⟩) :
    StreamReachable content length ⟨.finished false, position, sent⟩ := by
  have more : totalSent < chunk.length := by
    by_contra late
    exact some (List.drop_eq_nil_of_le (Nat.le_of_not_lt late))
  rw [enterSend, if_pos more] at reachable
  exact reachable.fail (by simp)

/-- A `send_all` from a script goes through the states of its loop. -/
theorem sendAll {chunk buffer : Bytes} {totalSent : Nat}
    {script : List SendAnswer} (rest : chunk.drop totalSent = buffer)
    (part : totalSent ≤ chunk.length)
    (reachable : StreamReachable content length
      ⟨enterSend chunk totalSent remaining, position, sent⟩) :
    StreamReachable content length
      ⟨if (CinderHTTP.sendAll buffer script).success then
          enterRead (remaining - chunk.length)
        else .finished false, position,
        sent ++ (CinderHTTP.sendAll buffer script).sent⟩ := by
  have complete : enterSend chunk chunk.length remaining =
      enterRead (remaining - chunk.length) := if_neg (Nat.lt_irrefl _)
  fun_induction CinderHTTP.sendAll buffer script
    generalizing totalSent sent with
  | case1 buffer =>
      have moved := reachable.send (Nat.le_refl (chunk.length - totalSent))
      rw [Nat.add_sub_cancel' part, complete, ← List.length_drop, rest,
        List.take_length] at moved
      exact moved
  | case2 answer script =>
      have same : totalSent = chunk.length :=
        Nat.le_antisymm part (List.drop_eq_nil_iff.mp rest)
      rw [same, complete] at reachable
      simpa using reachable
  | case3 buffer script some induction => exact induction rest part reachable
  | case4 buffer script some =>
      subst rest
      simpa using reachable.failSend some
  | case5 buffer script some =>
      subst rest
      simpa using reachable.failSend some
  | case6 buffer script some taken count =>
      rename_i result induction
      have bounded : count ≤ chunk.length - totalSent := by
        rw [← List.length_drop, rest]
        exact Nat.min_le_right _ _
      have moved := reachable.send bounded
      have behind : chunk.drop (totalSent + count) = buffer.drop count := by
        rw [← rest, List.drop_drop]
      rw [rest] at moved
      have later := induction behind (by omega) moved
      rw [List.append_assoc] at later
      exact later

theorem failSendfile {offset remaining : Nat} (more : remaining ≠ 0)
    (reachable : StreamReachable content length
      ⟨enterSendfile length offset remaining, position, sent⟩) :
    StreamReachable content length ⟨.finished false, position, sent⟩ := by
  rw [enterSendfile, if_pos (Nat.pos_of_ne_zero more)] at reachable
  exact reachable.fail (by simp)

theorem unsupported {offset remaining : Nat} (more : remaining ≠ 0)
    (first : offset = 0)
    (reachable : StreamReachable content length
      ⟨enterSendfile length offset remaining, position, sent⟩) :
    StreamReachable content length
      ⟨leaveSendfile length offset remaining, position, sent⟩ := by
  rw [enterSendfile, if_pos (Nat.pos_of_ne_zero more)] at reachable
  have allowed : Allows content
      ⟨.sendfile offset remaining, position, sent⟩ .unsupported := trivial
  exact reachable.step allowed (if_pos first)

theorem sendfileLoop {offset : Nat} {script : List SendfileAnswer}
    (within : offset ≤ length)
    (reachable : StreamReachable content length
      ⟨enterSendfile length offset (length - offset), position, sent⟩) :
    StreamReachable content length
      ⟨if (CinderHTTP.sendfileLoop content length offset script).left then
          leaveSendfile length
            (CinderHTTP.sendfileLoop content length offset script).offset
            (length -
              (CinderHTTP.sendfileLoop content length offset script).offset)
        else .finished false, position,
        sent ++
          (CinderHTTP.sendfileLoop content length offset script).sent⟩ := by
  have complete : ∀ offset, length - offset = 0 →
      enterSendfile length offset (length - offset) =
        leaveSendfile length offset (length - offset) := by
    intro offset done
    rw [enterSendfile, if_neg (by omega)]
  fun_induction CinderHTTP.sendfileLoop content length offset script
    generalizing sent with
  | case1 offset =>
      rename_i bytes
      have moved : StreamReachable content length
          ⟨enterSendfile length (offset + bytes.length)
            (length - (offset + bytes.length)), position, sent ++ bytes⟩ :=
        reachable.sendfile (Nat.le_refl (length - offset))
      by_cases full : bytes.length = length - offset
      · rw [complete _ (by omega)] at moved
        simpa [full] using moved
      · have short : bytes.length ≤ length - offset :=
          fileBytes_length_le _ _ _
        simpa [full] using moved.failSendfile (by omega)
  | case2 offset answer script done =>
      rw [complete offset done] at reachable
      simpa using reachable
  | case3 offset script more induction => exact induction within reachable
  | case4 offset script more =>
      by_cases first : offset = 0
      · simpa [first] using reachable.unsupported more first
      · simpa [first] using reachable.failSendfile more
  | case5 offset script more => simpa using reachable.failSendfile more
  | case6 offset script more => simpa using reachable.failSendfile more
  | case7 offset script more => simpa using reachable.failSendfile more
  | case8 offset script more size bytes =>
      rename_i some rest induction
      have asked : min (max size 1) (length - offset) ≤ length - offset :=
        Nat.min_le_right _ _
      have short : bytes.length ≤ length - offset :=
        Nat.le_trans (fileBytes_length_le _ _ _) asked
      have later := induction (by omega) (reachable.sendfile asked)
      rw [List.append_assoc] at later
      exact later

theorem failRead (more : remaining ≠ 0)
    (reachable : StreamReachable content length
      ⟨enterRead remaining, position, sent⟩) :
    StreamReachable content length ⟨.finished false, position, sent⟩ := by
  rw [enterRead, if_pos (Nat.pos_of_ne_zero more)] at reachable
  exact reachable.fail (by simp)

theorem copyChunk {chunk : Bytes} {size : Nat} {sends : List SendAnswer}
    {result : SendResult} (more : remaining ≠ 0)
    (asked : size ≤ min remaining httpStaticSendChunk)
    (taken : fileBytes content position size = chunk) (some : chunk ≠ [])
    (sending : CinderHTTP.sendAll chunk sends = result)
    (reachable : StreamReachable content length
      ⟨enterRead remaining, position, sent⟩) :
    StreamReachable content length
      ⟨if result.success then enterRead (remaining - chunk.length)
        else .finished false, position + chunk.length,
        sent ++ result.sent⟩ := by
  subst taken sending
  rw [enterRead, if_pos (Nat.pos_of_ne_zero more)] at reachable
  exact (reachable.read asked some).sendAll List.drop_zero (Nat.zero_le _)

theorem copyLoop {reads : List ReadAnswer} {sends : List SendAnswer}
    (reachable : StreamReachable content length
      ⟨enterRead remaining, position, sent⟩) :
    ∃ later, StreamReachable content length
      ⟨.finished (CinderHTTP.copyLoop content position remaining reads
          sends).success, later,
        sent ++ (CinderHTTP.copyLoop content position remaining reads
          sends).sent⟩ := by
  fun_induction CinderHTTP.copyLoop content position remaining reads sends
    generalizing sent with
  | case1 => exact ⟨_, by simpa [enterRead] using reachable⟩
  | case2 position remaining reads sends filled want answer =>
      rename_i induction
      exact induction reachable
  | case3 position remaining reads sends filled =>
      exact ⟨position, by simpa using reachable.failRead filled⟩
  | case4 position remaining reads sends filled =>
      exact ⟨position, by simpa using reachable.failRead filled⟩
  | case5 position remaining reads sends filled =>
      exact ⟨position, by simpa using reachable.failRead filled⟩
  | case6 position remaining reads sends filled want size answer chunk =>
      rename_i some result failed
      have copied := reachable.copyChunk filled
        (Nat.min_le_right (max size 1) want) (rfl : _ = chunk) some
        (rfl : _ = result)
      rw [Bool.not_eq_true'] at failed
      rw [failed] at copied ⊢
      exact ⟨_, copied⟩
  | case7 position remaining reads sends filled want size answer chunk =>
      rename_i some result passed rest induction
      have copied := reachable.copyChunk filled
        (Nat.min_le_right (max size 1) want) (rfl : _ = chunk) some
        (rfl : _ = result)
      rw [Bool.not_eq_true', Bool.not_eq_false] at passed
      rw [if_pos passed] at copied
      obtain ⟨later, finished⟩ := induction copied
      rw [List.append_assoc] at finished
      exact ⟨later, finished⟩

/-- The function that answers calls from scripts is one of the runs. -/
theorem sendFileBody (file : OpenFile) (length : Nat) (transfer : Transfer) :
    ∃ later, StreamReachable file.content length
      ⟨.finished (CinderHTTP.sendFileBody file length transfer).success,
        later, (CinderHTTP.sendFileBody file length transfer).sent⟩ := by
  have start : StreamReachable file.content length (beginStreaming length 0) :=
    Machine.ReachableBy.start ⟨0, rfl⟩
  unfold CinderHTTP.sendFileBody
  unfold beginStreaming at start
  by_cases empty : length = 0
  · rw [if_pos empty] at start ⊢
    exact ⟨0, start⟩
  rw [if_neg empty] at start ⊢
  have fast := @StreamReachable.sendfileLoop file.content [] length 0 0
    transfer.sendfiles (Nat.zero_le length) start
  simp only
  generalize CinderHTTP.sendfileLoop file.content length 0
    transfer.sendfiles = result at fast ⊢
  rw [List.nil_append] at fast
  by_cases left : result.left = true
  · simp only [left, Bool.not_true, Bool.false_eq_true, if_false, if_true]
      at fast ⊢
    unfold leaveSendfile at fast
    split_ifs at fast ⊢ with complete noSeek
    · exact ⟨_, fast⟩
    · exact ⟨_, fast.fail (by simp)⟩
    · have moving : Allows file.content
          ⟨.lseek result.offset (length - result.offset), 0, result.sent⟩
          .moved := trivial
      exact (fast.step moving rfl).copyLoop
  · simp only [left, Bool.not_false, Bool.false_eq_true, if_true, if_false]
      at fast ⊢
    exact ⟨_, fast⟩

end StreamReachable

/-! ## Exactness -/

/-- What holds in every state of `send_file_body`: the socket has received a
beginning of the announced bytes, all of them at a success; the next call asks
for no more than is missing and takes it from right behind what was sent; and
what is on the socket stays there. -/
structure Streaming.Exact (content : Bytes) (length : Nat)
    (state : Streaming) : Prop where
  sent : state.sent <+: content.take length
  complete : state.phase = .finished true →
    state.sent = content.take length ∧ length ≤ content.length
  asks : state.phase.asks ≤ length - state.sent.length
  source : ∀ offset ∈ state.source, offset = state.sent.length
  kept : ∀ {answer : KernelAnswer} {after : Streaming},
    streamNext content length state answer = some after →
      state.sent <+: after.sent

theorem streamNext_sent {content : Bytes} {length : Nat}
    {state after : Streaming} {answer : KernelAnswer}
    (stepped : streamNext content length state answer = some after) :
    state.sent <+: after.sent := by
  simp only [streamNext] at stepped
  repeat' split at stepped
  all_goals cases stepped
  all_goals first
    | exact List.prefix_refl _
    | exact List.prefix_append _ _

theorem Streamed.sent_prefix {content : Bytes} {length : Nat}
    {state : Streaming} (streamed : Streamed content length state) :
    state.sent <+: content.take length := by
  rw [List.prefix_take_iff]
  have failing := streamed.fail
  generalize same : state.fail = failed at failing
  cases failing with
  | failed position front bounded =>
      have sent := congrArg Streaming.sent same
      change state.sent = _ at sent
      rw [sent]
      exact ⟨front, bounded⟩
  | _ => cases congrArg Streaming.phase same

theorem Streamed.exact {content : Bytes} {length : Nat} {state : Streaming}
    (streamed : Streamed content length state) :
    state.Exact content length := by
  refine ⟨streamed.sent_prefix, ?_, ?_, ?_, streamNext_sent⟩
  · intro finished
    have front := streamed.sent_prefix
    cases streamed with
    | @succeeded sent position whole total =>
        have reached := whole.length_le
        have same : sent.length = (content.take length).length := by
          rw [List.length_take]
          omega
        exact ⟨front.eq_of_length same, by omega⟩
    | _ => cases finished
  · cases streamed with
    | sendfile position front total =>
        exact Nat.le_of_eq (Nat.eq_sub_of_add_eq' total)
    | lseek position front total => exact Nat.zero_le _
    | read front total =>
        exact Nat.le_trans (Nat.min_le_left _ _)
          (Nat.le_of_eq (Nat.eq_sub_of_add_eq' total))
    | @send front chunk totalSent remaining continued total short part =>
        change chunk.length - totalSent ≤
          length - (front ++ chunk.take totalSent).length
        rw [List.length_append, List.length_take]
        omega
    | succeeded position front total => exact Nat.zero_le _
    | failed position front bounded => exact Nat.zero_le _
  · intro offset member
    cases streamed with
    | sendfile position front total =>
        cases member
        rfl
    | read front total =>
        cases member
        rfl
    | _ => cases member

/-- However the kernel answers, a file body is streamed exactly, and so it is
when the answers come from scripts. -/
theorem sendFileBody_exact (content : Bytes) (length : Nat) :
    (∀ state, StreamReachable content length state →
      state.Exact content length) ∧
    ∀ file transfer, file.content = content →
      ∃ state, StreamReachable content length state ∧
        state.phase =
          .finished (sendFileBody file length transfer).success ∧
        state.sent = (sendFileBody file length transfer).sent := by
  constructor
  · intro state reachable
    exact reachable.streamed.exact
  · rintro file transfer rfl
    obtain ⟨later, reachable⟩ :=
      StreamReachable.sendFileBody file length transfer
    exact ⟨_, reachable, rfl, rfl⟩

/-- A fallback to the portable loop with interruptions and partial answers,
from a descriptor whose position was not at the start. -/
theorem sendFileBody_exact_fallback :
    StreamReachable (ascii "abcdef") 5
        ⟨.finished true, 5, ascii "abcde"⟩ ∧
      Streaming.Exact (ascii "abcdef") 5
        ⟨.finished true, 5, ascii "abcde"⟩ := by
  have executed : (streamMachine (ascii "abcdef") 5).executeBy
      (Allows (ascii "abcdef")) (beginStreaming 5 9)
      [.interrupted, .unsupported, .moved, .interrupted, .count 3, .count 1,
        .interrupted, .count 2, .count 2, .count 2] =
        some ⟨.finished true, 5, ascii "abcde"⟩ := by decide +kernel
  have reachable : StreamReachable (ascii "abcdef") 5
      ⟨.finished true, 5, ascii "abcde"⟩ :=
    Machine.ReachableBy.execute (.start ⟨9, rfl⟩) executed
  exact ⟨reachable, (sendFileBody_exact (ascii "abcdef") 5).1 _ reachable⟩

end CinderHTTP
