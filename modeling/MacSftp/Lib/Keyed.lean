import Mathlib.Data.List.Lookmap
import Mathlib.Data.List.Nodup
import Mathlib.Data.List.Pairwise

namespace MacSftp.Lib

/-! Vectors of records that are found by a key: lookups and updates act on the first match. -/

variable {α κ : Type} (key : α → κ)

theorem key_unique {xs : List α} (nodup : (xs.map key).Nodup) {x y : α} (hx : x ∈ xs) (hy : y ∈ xs)
    (h : key x = key y) : x = y := List.inj_on_of_nodup_map nodup hx hy h

theorem key_index_unique {xs : List α} (nodup : (xs.map key).Nodup) {i j : Nat} {x y : α} (hi : xs[i]? = some x)
    (hj : xs[j]? = some y) (h : key x = key y) : i = j := by
  have hlt : i < (xs.map key).length := by simpa using (List.getElem?_eq_some_iff.mp hi).1
  apply (List.getElem?_inj hlt nodup).mp
  rw [List.getElem?_map, List.getElem?_map, hi, hj, Option.map_some, Option.map_some, h]

variable [DecidableEq κ]

def findKey (k : κ) (xs : List α) : Option α := xs.find? (fun x => key x = k)

def updateKey (k : κ) (f : α → α) (xs : List α) : List α :=
  xs.lookmap (fun x => if key x = k then some (f x) else none)

theorem findKey_mem {k : κ} {xs : List α} {x : α} (h : findKey key k xs = some x) : x ∈ xs ∧ key x = k :=
  ⟨List.mem_of_find?_eq_some h, by simpa using List.find?_some h⟩

theorem findKey_eq_none {k : κ} {xs : List α} : findKey key k xs = none ↔ ∀ x ∈ xs, key x ≠ k := by
  simp [findKey]

theorem findKey_of_mem {xs : List α} (nodup : (xs.map key).Nodup) {x : α} (hx : x ∈ xs) :
    findKey key (key x) xs = some x := by
  cases h : findKey key (key x) xs with
  | none => exact absurd rfl ((findKey_eq_none key).mp h x hx)
  | some y =>
    obtain ⟨hy, he⟩ := findKey_mem key h
    rw [key_unique key nodup hy hx he]

theorem findKey_iff {xs : List α} (nodup : (xs.map key).Nodup) {k : κ} {x : α} :
    findKey key k xs = some x ↔ x ∈ xs ∧ key x = k := by
  constructor
  · exact findKey_mem key
  · rintro ⟨hx, rfl⟩
    exact findKey_of_mem key nodup hx

theorem updateKey_map {β : Type} (k : κ) {f : α → α} (g : α → β) (h : ∀ x, g (f x) = g x) (xs : List α) :
    (updateKey key k f xs).map g = xs.map g := by
  apply List.lookmap_map_eq
  intro x y hy
  split at hy
  · cases hy; exact (h x).symm
  · cases hy

theorem updateKey_eq_map (k : κ) (f : α → α) {xs : List α} (nodup : (xs.map key).Nodup) :
    updateKey key k f xs = xs.map (fun x => if key x = k then f x else x) := by
  induction xs with
  | nil => rfl
  | cons x xs ih =>
    obtain ⟨fresh, rest⟩ := List.nodup_cons.mp nodup
    by_cases hx : key x = k
    · rw [updateKey, List.lookmap_cons_some _ xs (if_pos hx)]
      rw [List.map_cons, if_pos hx]
      congr 1
      refine (List.map_id xs).symm.trans (List.map_congr_left ?_)
      intro y hy
      have different : key y ≠ k := fun he => fresh (List.mem_map.mpr ⟨y, hy, he.trans hx.symm⟩)
      rw [if_neg different]; rfl
    · have hn : (fun x => if key x = k then some (f x) else none) x = none := if_neg hx
      rw [updateKey, List.lookmap_cons_none _ xs hn, List.map_cons, if_neg hx]
      exact congrArg (x :: ·) (ih rest)

theorem updateKey_self {k : κ} {xs : List α} (nodup : (xs.map key).Nodup) {x : α} (hx : x ∈ xs) (hk : key x = k) :
    updateKey key k (fun _ => x) xs = xs := by
  rw [updateKey_eq_map _ _ _ nodup]
  refine (List.map_congr_left ?_).trans (List.map_id xs)
  intro y hy
  split_ifs with is
  · exact key_unique key nodup hx hy (hk.trans is.symm)
  · rfl

theorem mem_updateKey (k : κ) (f : α → α) {xs : List α} (nodup : (xs.map key).Nodup) {y : α} :
    y ∈ updateKey key k f xs ↔ ∃ x ∈ xs, y = if key x = k then f x else x := by
  rw [updateKey_eq_map key k f nodup]
  simp only [List.mem_map, eq_comm]

theorem mem_updateKey_of_ne {k : κ} {xs : List α} {x : α} (hx : x ∈ xs) (other : key x ≠ k) (f : α → α) :
    x ∈ updateKey key k f xs := by
  induction xs with
  | nil => cases hx
  | cons y ys ih =>
    by_cases hy : key y = k
    · rw [updateKey, List.lookmap_cons_some _ ys (if_pos hy)]
      rcases List.mem_cons.mp hx with rfl | later
      · exact absurd hy other
      · exact List.mem_cons_of_mem _ later
    · have hn : (fun x => if key x = k then some (f x) else none) y = none := if_neg hy
      rw [updateKey, List.lookmap_cons_none _ ys hn]
      rcases List.mem_cons.mp hx with rfl | later
      · exact List.mem_cons_self
      · exact List.mem_cons_of_mem _ (ih later)

theorem findKey_updateKey {k : κ} {f : α → α} (same : ∀ x, key (f x) = key x) {xs : List α} (nodup : (xs.map key).Nodup)
    {x : α} (found : findKey key k xs = some x) : findKey key k (updateKey key k f xs) = some (f x) := by
  obtain ⟨hx, hk⟩ := findKey_mem key found
  have nodup' : ((updateKey key k f xs).map key).Nodup := by
    rw [updateKey_map key k key same]
    exact nodup
  refine (findKey_iff key nodup').mpr ⟨?_, (same x).trans hk⟩
  exact (mem_updateKey key k f nodup).mpr ⟨x, hx, (if_pos hk).symm⟩

theorem findKey_updateKey_eq {k : κ} {f : α → α} (same : ∀ x, key (f x) = key x) {xs : List α} (nodup : (xs.map key).Nodup)
    (other : κ) :
    findKey key other (updateKey key k f xs) = if other = k then (findKey key other xs).map f else findKey key other xs := by
  have keeps : (fun x => decide (key x = other)) ∘ (fun x => if key x = k then f x else x) = fun x => decide (key x = other) := by
    funext x
    by_cases hx : key x = k <;> simp [hx, same]
  rw [findKey, updateKey_eq_map key k f nodup, List.find?_map, keeps]
  change (findKey key other xs).map _ = _
  cases found : findKey key other xs with
  | none => simp
  | some x =>
    obtain ⟨-, rfl⟩ := findKey_mem key found
    by_cases hk : key x = k <;> simp [hk]

theorem eraseP_eq_filter {k : κ} {xs : List α} (nodup : (xs.map key).Nodup) :
    xs.eraseP (fun x => key x = k) = xs.filter (fun x => key x ≠ k) := by
  induction xs with
  | nil => rfl
  | cons x xs ih =>
    obtain ⟨fresh, rest⟩ := List.nodup_cons.mp nodup
    by_cases hx : key x = k
    · have others : ∀ y ∈ xs, decide (key y ≠ k) = true := by
        intro y hy
        simp only [decide_eq_true_eq]
        exact fun he => fresh (List.mem_map.mpr ⟨y, hy, he.trans hx.symm⟩)
      rw [List.eraseP_cons_of_pos (by simp [hx]), List.filter_cons_of_neg (by simp [hx])]
      exact (List.filter_eq_self.mpr others).symm
    · simpa [hx] using ih rest

theorem filter_key {xs : List α} (nodup : (xs.map key).Nodup) {x : α} (hx : x ∈ xs) :
    xs.filter (fun y => key y = key x) = [x] := by
  induction xs with
  | nil => cases hx
  | cons y ys ih =>
    obtain ⟨fresh, rest⟩ := List.nodup_cons.mp nodup
    rcases List.mem_cons.mp hx with rfl | later
    · have others : ys.filter (fun y => key y = key x) = [] := by
        refine List.filter_eq_nil_iff.mpr ?_
        intro y hy
        simp only [decide_eq_true_eq]
        exact fun he => fresh (List.mem_map.mpr ⟨y, hy, he⟩)
      rw [List.filter_cons_of_pos (by simp), others]
    · have apart : key y ≠ key x := fun he => fresh (List.mem_map.mpr ⟨x, later, he.symm⟩)
      rw [List.filter_cons_of_neg (by simpa using apart)]
      exact ih rest later

end MacSftp.Lib
