import Mathlib.Order.Lattice
import Mathlib.Data.List.Basic

namespace MacSftp.Lib

variable {α : Type} [LinearOrder α]

/-- The loop of a search by halves: where it ends in the `size` places from `base` on. -/
def halve (xs : List α) (x : α) (base size : Nat) : Nat :=
  if size > 1 then
    let half := size / 2
    let mid := base + half
    let base := if (xs[mid]?.map fun y => decide (y > x)).getD false then base else mid
    halve xs x base (size - half)
  else base
termination_by size

/-- The search of an element by halves: its index, or the place that it could be put in. -/
def searchHalves (xs : List α) (x : α) : Except Nat Nat :=
  if xs = [] then .error 0
  else
    let base := halve xs x 0 xs.length
    match xs[base]? with
    | some y => if y = x then .ok base else .error (if y < x then base + 1 else base)
    | none => .error base

variable {xs : List α} {x : α}

/-- Whatever the order of the list, what is found is there. -/
theorem searchHalves_ok {index : Nat} (found : searchHalves xs x = .ok index) : xs[index]? = some x := by
  unfold searchHalves at found
  split_ifs at found with empty
  dsimp only at found
  split at found
  case h_2 => cases found
  case h_1 y at_ =>
    split_ifs at found with same
    cases found
    rw [at_, same]

theorem sorted_le (sorted : xs.Pairwise (· ≤ ·)) {i j : Nat} (le : i ≤ j) (inside : j < xs.length) : xs[i] ≤ xs[j] := by
  rcases Nat.lt_or_eq_of_le le with lt | rfl
  · exact List.pairwise_iff_getElem.mp sorted i j _ inside lt
  · exact le_refl _

/-- In a sorted list each half that is left behind holds nothing that the other one does not. -/
theorem halve_found (sorted : xs.Pairwise (· ≤ ·)) {base size : Nat} (inside : base + size ≤ xs.length)
    {index : Nat} (after : base ≤ index) (before : index < base + size) (at_ : xs[index]? = some x) :
    xs[halve xs x base size]? = some x := by
  induction size using Nat.strongRecOn generalizing base index with
  | ind size ih =>
    unfold halve
    split_ifs with more
    · dsimp only
      have bound : base + size / 2 < xs.length := by omega
      obtain ⟨inIndex, hereIndex⟩ := List.getElem?_eq_some_iff.mp at_
      rw [List.getElem?_eq_getElem bound, Option.map_some, Option.getD_some]
      split_ifs with greater
      · have left : index < base + size / 2 := by
          by_contra right
          have le := sorted_le sorted (Nat.le_of_not_lt right) inIndex
          rw [hereIndex] at le
          exact absurd (of_decide_eq_true greater) (not_lt.mpr le)
        exact ih _ (by omega) (by omega) after (by omega) at_
      · have small : xs[base + size / 2] ≤ x := not_lt.mp fun gt => greater (decide_eq_true gt)
        rcases Nat.lt_or_ge index (base + size / 2) with left | right
        · have le := sorted_le sorted (Nat.le_of_lt left) bound
          rw [hereIndex] at le
          have same : xs[base + size / 2]? = some x := by
            rw [List.getElem?_eq_getElem bound, le_antisymm small le]
          exact ih _ (by omega) (by omega) (Nat.le_refl _) (by omega) same
        · exact ih _ (by omega) (by omega) right (by omega) at_
    · have same : index = base := by omega
      rw [← same]
      exact at_

theorem searchHalves_isOk (sorted : xs.Pairwise (· ≤ ·)) : (searchHalves xs x).isOk = true ↔ x ∈ xs := by
  constructor
  · intro ok
    cases result : searchHalves xs x with
    | ok index => exact List.mem_of_getElem? (searchHalves_ok result)
    | error place =>
      rw [result] at ok
      cases ok
  · intro inside
    obtain ⟨index, at_⟩ := List.mem_iff_getElem?.mp inside
    have bound : index < xs.length := (List.getElem?_eq_some_iff.mp at_).1
    have found : xs[halve xs x 0 xs.length]? = some x :=
      halve_found sorted (by omega) (Nat.zero_le _) (by omega) at_
    unfold searchHalves
    rw [if_neg (List.ne_nil_of_mem inside)]
    simp only [found, if_true]
    rfl

end MacSftp.Lib
