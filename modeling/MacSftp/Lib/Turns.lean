import MacSftp.Lib.Runs
import Mathlib.Data.List.Perm.Subperm

namespace MacSftp.Lib

section Turns

variable {α : Type} [DecidableEq α]

/-- What may still be served up to and with `x`, while `x` waits. -/
def upTo (x : α) (queue : List α) : List α := if x ∈ queue then queue.takeWhile (· ≠ x) ++ [x] else []

variable {x : α} {queue : List α}

theorem upTo_cons_ne {y : α} (other : y ≠ x) (queue : List α) (waits : x ∈ queue) : upTo x (y :: queue) = y :: upTo x queue := by
  simp [upTo, waits, other]

theorem upTo_cons_self (queue : List α) : upTo x (x :: queue) = [x] := by simp [upTo]

theorem upTo_gone (gone : x ∉ queue) : upTo x queue = [] := if_neg gone

/-- Who comes later waits behind. -/
theorem upTo_append (waits : x ∈ queue) (new : List α) : upTo x (queue ++ new) = upTo x queue := by
  induction queue with
  | nil => cases waits
  | cons y queue ih =>
    by_cases same : y = x
    · subst same
      rw [List.cons_append, upTo_cons_self, upTo_cons_self]
    · have later : x ∈ queue := (List.mem_cons.mp waits).resolve_left (Ne.symm same)
      rw [List.cons_append, upTo_cons_ne same _ (List.mem_append_left new later), upTo_cons_ne same _ later, ih later]

theorem upTo_sublist {rest : List α} (fewer : rest.Sublist queue) (once : queue.Nodup) : (upTo x rest).Sublist (upTo x queue) := by
  induction fewer with
  | slnil => exact List.Sublist.refl _
  | @cons rest queue y less ih =>
    have below := ih (List.nodup_cons.mp once).2
    by_cases waits : x ∈ rest
    · have other : y ≠ x := by
        rintro rfl
        exact (List.nodup_cons.mp once).1 (less.subset waits)
      rw [upTo_cons_ne other _ (less.subset waits)]
      exact below.cons y
    · rw [upTo_gone waits]
      exact List.nil_sublist _
  | @cons_cons rest queue y less ih =>
    by_cases same : y = x
    · subst same
      rw [upTo_cons_self, upTo_cons_self]
    · by_cases waits : x ∈ rest
      · rw [upTo_cons_ne same _ waits, upTo_cons_ne same _ (less.subset waits)]
        exact (ih (List.nodup_cons.mp once).2).cons_cons y
      · have gone : x ∉ y :: rest := List.not_mem_cons_of_ne_of_not_mem (Ne.symm same) waits
        rw [upTo_gone gone]
        exact List.nil_sublist _

/-- Who is served, when nobody behind `x` is, leaves the others as they were. -/
theorem upTo_eraseIdx {y : α} {position : Nat} (once : queue.Nodup) (served : queue[position]? = some y)
    (ahead : position ≤ queue.idxOf x) (waits : x ∈ queue) : (y :: upTo x (queue.eraseIdx position)).Subperm (upTo x queue) := by
  induction queue generalizing position with
  | nil => cases waits
  | cons z queue ih =>
    obtain ⟨fresh, distinct⟩ := List.nodup_cons.mp once
    cases position with
    | zero =>
      obtain rfl : z = y := Option.some.inj served
      rw [List.eraseIdx_cons_zero]
      by_cases same : z = x
      · subst same
        rw [upTo_cons_self, upTo_gone fresh]
      · rw [upTo_cons_ne same _ ((List.mem_cons.mp waits).resolve_left (Ne.symm same))]
    | succ position =>
      have same : z ≠ x := by
        rintro rfl
        rw [List.idxOf_cons_self] at ahead
        omega
      have later : x ∈ queue := (List.mem_cons.mp waits).resolve_left (Ne.symm same)
      rw [List.idxOf_cons_ne queue same] at ahead
      have below := ih distinct served (Nat.le_of_succ_le_succ ahead) later
      rw [List.eraseIdx_cons_succ, upTo_cons_ne same _ later]
      by_cases still : x ∈ queue.eraseIdx position
      · rw [upTo_cons_ne same _ still]
        exact (List.Perm.swap _ _ _).subperm.trans ((List.subperm_cons z).mpr below)
      · have gone : x ∉ z :: queue.eraseIdx position := List.not_mem_cons_of_ne_of_not_mem (Ne.symm same) still
        rw [upTo_gone still] at below
        rw [upTo_gone gone]
        exact below.trans (List.sublist_cons_self z _).subperm

end Turns

/-- Where a step serves only who waits up to and with `x`, so does a run. -/
theorem Machine.served_upTo {σ ι ο α : Type} [DecidableEq α] (m : Machine σ ι ο) (ok : σ → ι → Prop) (queue : σ → List α)
    (served : ι × ο → List α) (x : α)
    (step : ∀ s i, ok s i → (served (i, m.out s i) ++ upTo x (queue (m.next s i))).Subperm (upTo x (queue s))) {s : σ} {is : List ι}
    (legal : m.Admissible ok s is) : ((m.log s is).flatMap served).Subperm (upTo x (queue s)) := by
  have invariant : ((m.log s is).flatMap served ++ upTo x (queue (m.run s is))).Subperm (upTo x (queue s)) := by
    refine m.admissible_log_invariant
      (I := fun past now => (past.flatMap served ++ upTo x (queue now)).Subperm (upTo x (queue s))) ?_ ?_ is legal
    · intro past now i good before
      rw [List.flatMap_append, List.flatMap_singleton, List.append_assoc]
      exact ((List.subperm_append_left _).mpr (step now i good)).trans before
    · exact List.Subperm.refl _
  exact (List.sublist_append_left _ _).subperm.trans invariant

end MacSftp.Lib
