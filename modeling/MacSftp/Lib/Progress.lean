import Mathlib.Algebra.BigOperators.Group.List.Basic
import Mathlib.Algebra.Ring.Nat
import MacSftp.Lib.Keyed
import MacSftp.Lib.Runs

namespace MacSftp.Lib

section Sums

variable {α κ : Type} {key : α → κ} [DecidableEq κ]

theorem sum_updateKey (weight : α → Nat) {k : κ} {f : α → α} {xs : List α} {a : α} (found : findKey key k xs = some a) :
    ((updateKey key k f xs).map weight).sum + weight a = (xs.map weight).sum + weight (f a) := by
  induction xs with
  | nil => cases found
  | cons x xs ih =>
    by_cases here : key x = k
    · have is : x = a := by simpa [findKey, here] using found
      subst is
      rw [updateKey, List.lookmap_cons_some _ xs (if_pos here), List.map_cons, List.sum_cons, List.map_cons, List.sum_cons]
      omega
    · have later : findKey key k xs = some a := by simpa [findKey, here] using found
      have skip : (fun x => if key x = k then some (f x) else none) x = none := if_neg here
      have rest := ih later
      rw [updateKey] at rest
      rw [updateKey, List.lookmap_cons_none _ xs skip, List.map_cons, List.sum_cons, List.map_cons, List.sum_cons]
      omega

end Sums

namespace Machine

variable {σ ι ο : Type} (m : Machine σ ι ο) {ok : σ → ι → Prop} {I : σ → Prop} {work : σ → Nat}

/-- Steps that each take something off the work that is left come to an end. -/
theorem length_le_work (keep : ∀ s i, ok s i → I s → I (m.next s i)) (takes : ∀ s i, ok s i → I s → work (m.next s i) < work s)
    {s : σ} (start : I s) (is : List ι) (legal : m.Admissible ok s is) : is.length + work (m.run s is) ≤ work s := by
  induction is generalizing s with
  | nil => simp
  | cons i is ih =>
    have rest := ih (keep s i legal.1 start) legal.2
    have first := takes s i legal.1 start
    rw [List.length_cons, run_cons]
    omega

end Machine

end MacSftp.Lib
