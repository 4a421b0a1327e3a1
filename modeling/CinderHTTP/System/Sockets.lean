import Mathlib.Data.List.Nodup
import Mathlib.Data.List.Perm.Basic
import Mathlib.Data.List.Range

/-!
# Client sockets

The descriptors that the kernel hands out for accepted connections.  A number
may be handed out again once it was closed, so every connection also has the
serial number of its `accept`.  Closing a number that is not open is recorded
apart from the connections that were closed.
-/

namespace CinderHTTP

/-- The open descriptors with the connections they refer to, and what has
become of the others. -/
structure Sockets where
  opened : List (Int × Nat)
  accepted : Nat
  closed : List Nat
  strayCloses : List Int
  /-- A number refers to one connection. -/
  distinct : (opened.map Prod.fst).Nodup
  deriving DecidableEq

namespace Sockets

def empty : Sockets :=
  { opened := [], accepted := 0, closed := [], strayCloses := []
    distinct := List.nodup_nil }

def numbers (sockets : Sockets) : List Int :=
  sockets.opened.map Prod.fst

/-- `accept` returns a number that is not in use. -/
def accept (sockets : Sockets) (fd : Int) : Option Sockets :=
  if fresh : 0 ≤ fd ∧ fd ∉ sockets.opened.map Prod.fst then
    some
      { sockets with
        opened := (fd, sockets.accepted) :: sockets.opened
        accepted := sockets.accepted + 1
        distinct := List.nodup_cons.mpr ⟨fresh.2, sockets.distinct⟩ }
  else none

def close (sockets : Sockets) (fd : Int) : Sockets :=
  match sockets.opened.find? fun entry => entry.1 == fd with
  | none => { sockets with strayCloses := sockets.strayCloses ++ [fd] }
  | some entry =>
      { sockets with
        opened := sockets.opened.erase entry
        closed := sockets.closed ++ [entry.2]
        distinct := sockets.distinct.sublist
          (List.erase_sublist.map Prod.fst) }

/-- Every connection is open or was closed once, and nothing else was
closed. -/
structure Accounted (sockets : Sockets) : Prop where
  connections : (sockets.closed ++ sockets.opened.map Prod.snd).Perm
    (List.range sockets.accepted)
  strays : sockets.strayCloses = []

theorem accounted_empty : empty.Accounted :=
  ⟨List.Perm.refl _, rfl⟩

theorem accept_opens {sockets after : Sockets} {fd : Int}
    (accepted : sockets.accept fd = some after) :
    0 ≤ fd ∧ after.numbers = fd :: sockets.numbers := by
  unfold accept at accepted
  split at accepted
  · rename_i fresh
    cases accepted
    exact ⟨fresh.1, rfl⟩
  · cases accepted

theorem Accounted.accept {sockets after : Sockets} {fd : Int}
    (accounted : sockets.Accounted)
    (accepted : sockets.accept fd = some after) : after.Accounted := by
  unfold Sockets.accept at accepted
  split at accepted
  · cases accepted
    constructor
    · rw [List.map_cons, List.range_succ]
      apply List.perm_middle.trans
      apply (accounted.connections.cons _).trans
      exact List.perm_append_singleton _ _ |>.symm
    · exact accounted.strays
  · cases accepted

theorem close_open {sockets : Sockets} {fd : Int}
    (member : fd ∈ sockets.numbers) :
    ∃ serial, sockets.opened.Perm ((fd, serial) :: (sockets.close fd).opened) ∧
      (sockets.close fd).closed = sockets.closed ++ [serial] ∧
      (sockets.close fd).accepted = sockets.accepted ∧
      (sockets.close fd).strayCloses = sockets.strayCloses := by
  unfold close
  cases found : sockets.opened.find? fun entry => entry.1 == fd with
  | none =>
      obtain ⟨entry, listed, same⟩ := List.mem_map.mp member
      have absent := List.find?_eq_none.mp found entry listed
      simp [same] at absent
  | some entry =>
      have same : entry.1 = fd := by
        simpa using List.find?_some found
      have listed := List.mem_of_find?_eq_some found
      refine ⟨entry.2, ?_, rfl, rfl, rfl⟩
      rw [← same]
      exact List.perm_cons_erase listed

theorem close_numbers {sockets : Sockets} {fd : Int}
    (member : fd ∈ sockets.numbers) :
    sockets.numbers.Perm (fd :: (sockets.close fd).numbers) := by
  obtain ⟨serial, opened, _⟩ := close_open member
  exact opened.map Prod.fst

theorem Accounted.close {sockets : Sockets} {fd : Int}
    (accounted : sockets.Accounted) (member : fd ∈ sockets.numbers) :
    (sockets.close fd).Accounted := by
  obtain ⟨serial, opened, closed, accepted, strays⟩ := close_open member
  constructor
  · rw [closed, accepted, List.append_assoc]
    apply List.Perm.trans _ accounted.connections
    exact (opened.map Prod.snd).symm.append_left sockets.closed
  · rw [strays]
    exact accounted.strays

theorem closeAll {sockets : Sockets} {fds rest : List Int}
    (accounted : sockets.Accounted)
    (opened : sockets.numbers.Perm (fds ++ rest)) :
    (fds.foldl close sockets).Accounted ∧
      (fds.foldl close sockets).numbers.Perm rest := by
  induction fds generalizing sockets with
  | nil => exact ⟨accounted, opened⟩
  | cons fd fds induction =>
      have member : fd ∈ sockets.numbers :=
        opened.mem_iff.mpr List.mem_cons_self
      apply induction (accounted.close member)
      exact ((close_numbers member).symm.trans opened).cons_inv

end Sockets

end CinderHTTP
