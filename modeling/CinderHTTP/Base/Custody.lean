import Mathlib.Data.List.Perm.Basic
import Mathlib.Data.List.Nodup

/-!
# Custody of resources

Every resource that was acquired is either held or released.  When no
resource is acquired twice, each is released once, namely when it is no longer
held.
-/

namespace CinderHTTP

section

variable {α : Type*} {released held acquired : List α}

/-- One holder of two gives up and takes over, and the other stays as it
is. -/
theorem conserved_beside {other later after taken : List α}
    (total : (released ++ (held ++ other)).Perm acquired)
    (moved : (later ++ after).Perm (released ++ held ++ taken)) :
    (later ++ (after ++ other)).Perm (acquired ++ taken) := by
  have swapped : (released ++ held ++ taken ++ other).Perm
      (released ++ held ++ other ++ taken) := by
    rw [List.append_assoc, List.append_assoc _ other]
    exact List.perm_append_comm.append_left _
  rw [← List.append_assoc] at total ⊢
  exact (moved.append_right other).trans
    (swapped.trans (total.append_right taken))

structure Custody (released held acquired : List α) : Prop where
  conserved : (released ++ held).Perm acquired
  distinct : acquired.Nodup

namespace Custody

theorem empty : Custody ([] : List α) [] [] :=
  ⟨.nil, List.nodup_nil⟩

theorem released_nodup (custody : Custody released held acquired) :
    released.Nodup := by
  have all := custody.conserved.nodup_iff.mpr custody.distinct
  exact (List.nodup_append.mp all).1

theorem mem_acquired (custody : Custody released held acquired) {item : α}
    (gone : item ∈ released) : item ∈ acquired :=
  custody.conserved.mem_iff.mp (List.mem_append_left _ gone)

theorem not_released (custody : Custody released held acquired) {item : α}
    (kept : item ∈ held) : item ∉ released := by
  have all := custody.conserved.nodup_iff.mpr custody.distinct
  intro gone
  exact (List.nodup_append.mp all).2.2 item gone item kept rfl

/-- What was acquired is released once, or held and not released. -/
theorem count_released [DecidableEq α]
    (custody : Custody released held acquired) {item : α}
    (member : item ∈ acquired) :
    released.count item = if item ∈ held then 0 else 1 := by
  split_ifs with kept
  · exact List.count_eq_zero_of_not_mem (custody.not_released kept)
  · apply List.count_eq_one_of_mem custody.released_nodup
    have either := custody.conserved.mem_iff.mpr member
    exact (List.mem_append.mp either).resolve_right kept

end Custody

end

end CinderHTTP
