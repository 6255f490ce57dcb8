import Mathlib.Data.List.Perm.Basic
import MacSftp.Lib.Keyed

namespace MacSftp.Lib

/-! Items that are spread over the records of a list. -/

variable {α κ ι : Type} {key : α → κ} {items : α → List ι} {f : α → α} {xs : List α} {k : κ} {a : α}

section Updates

variable [DecidableEq κ]

theorem held_updateKey (found : findKey key k xs = some a) {more : List ι} (adds : (items (f a)).Perm (more ++ items a)) :
    ((updateKey key k f xs).flatMap items).Perm (more ++ xs.flatMap items) := by
  induction xs with
  | nil => cases found
  | cons x xs ih =>
    by_cases here : key x = k
    · have is : x = a := by simpa [findKey, here] using found
      subst is
      rw [updateKey, List.lookmap_cons_some _ xs (if_pos here), List.flatMap_cons, List.flatMap_cons, ← List.append_assoc]
      exact adds.append_right _
    · have later : findKey key k xs = some a := by simpa [findKey, here] using found
      have skip : (fun x => if key x = k then some (f x) else none) x = none := if_neg here
      have rest := ih later
      rw [updateKey] at rest
      rw [updateKey, List.lookmap_cons_none _ xs skip, List.flatMap_cons, List.flatMap_cons]
      refine (rest.append_left (items x)).trans ?_
      rw [← List.append_assoc, ← List.append_assoc]
      exact List.perm_append_comm.append_right _

theorem held_updateKey_sublist (drops : ∀ x, List.Sublist (items (f x)) (items x)) :
    List.Sublist ((updateKey key k f xs).flatMap items) (xs.flatMap items) := by
  induction xs with
  | nil => exact List.nil_sublist _
  | cons x xs ih =>
    by_cases here : key x = k
    · rw [updateKey, List.lookmap_cons_some _ xs (if_pos here), List.flatMap_cons, List.flatMap_cons]
      exact (drops x).append (List.Sublist.refl _)
    · have skip : (fun x => if key x = k then some (f x) else none) x = none := if_neg here
      rw [updateKey] at ih
      rw [updateKey, List.lookmap_cons_none _ xs skip, List.flatMap_cons, List.flatMap_cons]
      exact (List.Sublist.refl _).append ih

end Updates

theorem held_sublist {ys : List α} (fewer : List.Sublist ys xs) : List.Sublist (ys.flatMap items) (xs.flatMap items) := by
  induction fewer with
  | slnil => exact List.Sublist.refl _
  | cons x _ ih =>
    rw [List.flatMap_cons]
    exact ih.trans (List.sublist_append_right _ _)
  | cons_cons x _ ih =>
    rw [List.flatMap_cons, List.flatMap_cons]
    exact (List.Sublist.refl _).append ih

/-- An item that is held once has one holder. -/
theorem held_unique (once : (xs.flatMap items).Nodup) {x y : α} (hx : x ∈ xs) (hy : y ∈ xs) {i : ι} (one : i ∈ items x)
    (two : i ∈ items y) : x = y := by
  induction xs with
  | nil => cases hx
  | cons z zs ih =>
    rw [List.flatMap_cons] at once
    obtain ⟨-, rest, apart⟩ := List.nodup_append.mp once
    have later : ∀ {w : α}, w ∈ zs → i ∈ items w → i ∈ items z → False := fun hw its here =>
      apart i here i (List.mem_flatMap.mpr ⟨_, hw, its⟩) rfl
    rcases List.mem_cons.mp hx with rfl | first <;> rcases List.mem_cons.mp hy with rfl | second
    · rfl
    · exact (later second two one).elim
    · exact (later first one two).elim
    · exact ih rest first second

end MacSftp.Lib
