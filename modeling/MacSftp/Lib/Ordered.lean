import Mathlib.Data.List.Destutter
import Mathlib.Data.List.Perm.Subperm
import Mathlib.Data.List.TakeWhile
import Mathlib.Data.List.InsertIdx
import Mathlib.Data.List.Nodup
import Mathlib.Data.List.Pairwise
import Mathlib.Data.List.Sort
import Mathlib.Order.Lattice

namespace MacSftp.Lib

/-! Slices ordered by a key: `binary_search_by_key` and index ranges in terms of the keys. -/

variable {α κ : Type}

def slice (lo hi : Nat) (xs : List α) : List α := (xs.drop lo).take (hi - lo + 1)

def modifyRange (lo hi : Nat) (f : α → α) (xs : List α) : List α :=
  xs.mapIdx (fun i x => if lo ≤ i ∧ i ≤ hi then f x else x)

theorem slice_sublist (lo hi : Nat) (xs : List α) : List.Sublist (slice lo hi xs) xs :=
  (List.take_sublist _ _).trans (List.drop_sublist _ _)

theorem slice_length {lo hi : Nat} {xs : List α} (hl : lo ≤ hi) (hh : hi < xs.length) :
    (slice lo hi xs).length = hi - lo + 1 := by
  simp only [slice, List.length_take, List.length_drop]
  omega

theorem mem_slice {lo hi : Nat} {xs : List α} (hl : lo ≤ hi) {x : α} :
    x ∈ slice lo hi xs ↔ ∃ i, lo ≤ i ∧ i ≤ hi ∧ xs[i]? = some x := by
  simp only [slice, List.mem_iff_getElem?, List.getElem?_take, List.getElem?_drop]
  constructor
  · rintro ⟨j, hj⟩
    split_ifs at hj with hlt
    exact ⟨lo + j, by omega, by omega, hj⟩
  · rintro ⟨i, h1, h2, h⟩
    refine ⟨i - lo, ?_⟩
    rw [if_pos (by omega), show lo + (i - lo) = i by omega, h]

theorem nodup_subset_of_length_le {xs ys : List α} (nodup : xs.Nodup) (sub : xs ⊆ ys)
    (len : ys.length ≤ xs.length) : ys ⊆ xs := ((List.subperm_of_subset nodup sub).perm_of_length_le len).symm.subset

variable [LinearOrder κ] (key : α → κ)

def Ascending (xs : List α) : Prop := xs.Pairwise (fun x y => key x < key y)

instance (xs : List α) : Decidable (Ascending key xs) := inferInstanceAs (Decidable (xs.Pairwise _))

def bisect (k : κ) (xs : List α) : Nat := (xs.takeWhile (fun x => key x < k)).length

/-- On a sorted slice this is the position `binary_search_by_key` documents, found or for insertion. -/
def binarySearchByKey (k : κ) (xs : List α) : Except Nat Nat :=
  match xs[bisect key k xs]? with
  | some x => if key x = k then .ok (bisect key k xs) else .error (bisect key k xs)
  | none => .error (bisect key k xs)

variable {key}

namespace Ascending

variable {xs ys : List α}

theorem nodup (h : Ascending key xs) : (xs.map key).Nodup :=
  List.pairwise_map.mpr (h.imp fun hlt => hlt.ne)

theorem sublist (h : Ascending key xs) (s : List.Sublist ys xs) : Ascending key ys := List.Pairwise.sublist s h

theorem map (h : Ascending key xs) {f : α → α} (hf : ∀ x, key (f x) = key x) : Ascending key (xs.map f) := by
  apply List.pairwise_map.mpr
  exact h.imp fun {a b} hlt => by rw [hf, hf]; exact hlt

theorem index_le_iff (h : Ascending key xs) {i j : Nat} {x y : α} (hx : xs[i]? = some x) (hy : xs[j]? = some y) :
    i ≤ j ↔ key x ≤ key y := by
  obtain ⟨hi, rfl⟩ := List.getElem?_eq_some_iff.mp hx
  obtain ⟨hj, rfl⟩ := List.getElem?_eq_some_iff.mp hy
  have mono : ∀ a b (ha : a < xs.length) (hb : b < xs.length), a < b → key xs[a] < key xs[b] :=
    List.pairwise_iff_getElem.mp h
  constructor
  · intro hij
    rcases hij.lt_or_eq with hlt | rfl
    · exact (mono i j hi hj hlt).le
    · exact le_rfl
  · intro hle
    by_contra hlt
    exact absurd (mono j i hj hi (by omega)) (not_lt.mpr hle)

theorem modifyRange_eq_map (h : Ascending key xs) {lo hi : Nat} {a b : α} (ha : xs[lo]? = some a)
    (hb : xs[hi]? = some b) (f : α → α) :
    modifyRange lo hi f xs = xs.map (fun x => if key a ≤ key x ∧ key x ≤ key b then f x else x) := by
  apply List.ext_getElem (by simp [modifyRange])
  intro i hi' _
  have hlen : i < xs.length := by simpa [modifyRange] using hi'
  have hx : xs[i]? = some xs[i] := List.getElem?_eq_getElem hlen
  simp only [modifyRange, List.getElem_mapIdx, List.getElem_map, h.index_le_iff ha hx, h.index_le_iff hx hb]

theorem mem_slice_iff (h : Ascending key xs) {lo hi : Nat} (hl : lo ≤ hi) {a b : α} (ha : xs[lo]? = some a)
    (hb : xs[hi]? = some b) {x : α} : x ∈ slice lo hi xs ↔ x ∈ xs ∧ key a ≤ key x ∧ key x ≤ key b := by
  rw [mem_slice hl]
  constructor
  · rintro ⟨i, h1, h2, hx⟩
    exact ⟨List.mem_of_getElem? hx, (h.index_le_iff ha hx).mp h1, (h.index_le_iff hx hb).mp h2⟩
  · rintro ⟨hm, h1, h2⟩
    obtain ⟨i, hx⟩ := List.mem_iff_getElem?.mp hm
    exact ⟨i, (h.index_le_iff ha hx).mpr h1, (h.index_le_iff hx hb).mpr h2, hx⟩

theorem eq_of_mem_iff {zs : List α} (h : Ascending key xs) (hy : List.Sublist ys xs) (hz : List.Sublist zs xs)
    (same : ∀ x, x ∈ ys ↔ x ∈ zs) : ys = zs := by
  have nodup : xs.Nodup := List.Nodup.of_map key h.nodup
  have perm : List.Perm ys zs := (List.perm_ext_iff_of_nodup (nodup.sublist hy) (nodup.sublist hz)).mpr same
  apply List.Perm.eq_of_pairwise _ (h.sublist hy) (h.sublist hz) perm
  intro a b _ _ hab hba
  exact absurd hab hba.asymm

theorem append (hx : Ascending key xs) (hy : Ascending key ys) (hxy : ∀ x ∈ xs, ∀ y ∈ ys, key x < key y) :
    Ascending key (xs ++ ys) := List.pairwise_append.mpr ⟨hx, hy, hxy⟩

theorem le_getLast (h : Ascending key xs) {x last : α} (hx : x ∈ xs) (hl : xs.getLast? = some last) :
    key x ≤ key last := by
  obtain ⟨i, hi⟩ := List.mem_iff_getElem?.mp hx
  rw [List.getLast?_eq_getElem?] at hl
  have hlen := (List.getElem?_eq_some_iff.mp hi).1
  exact (h.index_le_iff hi hl).mp (by omega)

theorem head_le (h : Ascending key xs) {x first : α} (hx : x ∈ xs) (hf : xs.head? = some first) :
    key first ≤ key x := by
  obtain ⟨i, hi⟩ := List.mem_iff_getElem?.mp hx
  rw [List.head?_eq_getElem?] at hf
  exact (h.index_le_iff hf hi).mp (Nat.zero_le i)

end Ascending

theorem takeWhile_lt {k : κ} {xs : List α} {x : α} (hx : x ∈ xs.takeWhile (fun x => key x < k)) : key x < k := by
  simpa using List.mem_takeWhile_imp hx

theorem drop_bisect (k : κ) (xs : List α) :
    xs.drop (bisect key k xs) = xs.dropWhile (fun x => key x < k) := by
  induction xs with
  | nil => rfl
  | cons y ys ih =>
    by_cases hy : key y < k
    · simpa [bisect, List.takeWhile_cons, List.dropWhile_cons, hy] using ih
    · simp [bisect, hy]

theorem bisect_split (key : α → κ) (k : κ) (xs : List α) :
    xs = xs.takeWhile (fun x => key x < k) ++ xs.drop (bisect key k xs) := by
  rw [drop_bisect, List.takeWhile_append_dropWhile]

theorem le_of_mem_drop_bisect {k : κ} {xs : List α} (h : xs.Pairwise (fun x y => key x ≤ key y)) {x : α}
    (hx : x ∈ xs.drop (bisect key k xs)) : k ≤ key x := by
  induction xs with
  | nil => simp at hx
  | cons y ys ih =>
    obtain ⟨above, rest⟩ := List.pairwise_cons.mp h
    by_cases hy : key y < k
    · simp only [bisect, List.takeWhile_cons, hy, decide_true, ↓reduceIte, List.length_cons,
        List.drop_succ_cons] at hx
      exact ih rest hx
    · simp only [bisect, List.takeWhile_cons, hy, decide_false, Bool.false_eq_true, ↓reduceIte, List.length_nil,
        List.drop_zero] at hx
      rcases List.mem_cons.mp hx with rfl | hx
      · exact not_lt.mp hy
      · exact (not_lt.mp hy).trans (above x hx)

theorem binarySearch_ok {k : κ} {xs : List α} {i : Nat} (h : binarySearchByKey key k xs = .ok i) :
    ∃ x, xs[i]? = some x ∧ key x = k := by
  unfold binarySearchByKey at h
  split at h
  · rename_i x hx
    split_ifs at h with hk
    cases h
    exact ⟨x, hx, hk⟩
  · cases h

theorem binarySearch_error {k : κ} {xs : List α} {i : Nat} (h : xs.Pairwise (fun x y => key x ≤ key y))
    (he : binarySearchByKey key k xs = .error i) : i = bisect key k xs ∧ ∀ x ∈ xs, key x ≠ k := by
  have head : i = bisect key k xs ∧ ∀ x, xs[bisect key k xs]? = some x → key x ≠ k := by
    unfold binarySearchByKey at he
    split at he
    · rename_i x hx
      split_ifs at he with hk
      cases he
      exact ⟨rfl, fun y hy => by rw [hx] at hy; cases hy; exact hk⟩
    · rename_i hx
      cases he
      exact ⟨rfl, fun y hy => by rw [hx] at hy; cases hy⟩
  refine ⟨head.1, ?_⟩
  intro x hx hk
  rw [bisect_split key k xs] at hx
  rcases List.mem_append.mp hx with hx | hx
  · exact absurd (takeWhile_lt hx) (by simp [hk])
  · cases hd : xs.drop (bisect key k xs) with
    | nil => simp [hd] at hx
    | cons y ys =>
      have hy : xs[bisect key k xs]? = some y := by
        have := congrArg (·[0]?) hd
        simpa using this
      have hyk : k ≤ key y := le_of_mem_drop_bisect h (by simp [hd])
      have hne := head.2 y hy
      have sorted : (y :: ys).Pairwise (fun x y => key x ≤ key y) := hd ▸ h.sublist (List.drop_sublist _ _)
      have hyx : key y ≤ key x := by
        rw [hd] at hx
        rcases List.mem_cons.mp hx with rfl | hx
        · exact le_rfl
        · exact (List.pairwise_cons.mp sorted).1 x hx
      exact hne (le_antisymm (hk ▸ hyx) hyk)

theorem binarySearch_isOk {k : κ} {xs : List α} (h : xs.Pairwise (fun x y => key x ≤ key y)) :
    (binarySearchByKey key k xs).isOk = true ↔ ∃ x ∈ xs, key x = k := by
  cases hb : binarySearchByKey key k xs with
  | ok i =>
    obtain ⟨x, hx, hk⟩ := binarySearch_ok hb
    simpa [Except.isOk, Except.toBool] using ⟨x, List.mem_of_getElem? hx, hk⟩
  | error i =>
    have none := (binarySearch_error h hb).2
    simpa [Except.isOk, Except.toBool] using none

theorem Ascending.le {xs : List α} (h : Ascending key xs) : xs.Pairwise (fun x y => key x ≤ key y) :=
  h.imp fun hlt => hlt.le

theorem insertIdx_bisect (key : α → κ) (k : κ) (x : α) (xs : List α) :
    xs.insertIdx (bisect key k xs) x =
      xs.takeWhile (fun y => key y < k) ++ x :: xs.drop (bisect key k xs) := by
  induction xs with
  | nil => rfl
  | cons y ys ih =>
    by_cases hy : key y < k
    · simpa [bisect, List.takeWhile_cons, hy] using ih
    · simp [bisect, hy]

theorem Ascending.insert {xs : List α} (h : Ascending key xs) {x : α} {i : Nat}
    (he : binarySearchByKey key (key x) xs = .error i) : Ascending key (xs.insertIdx i x) := by
  obtain ⟨rfl, absent⟩ := binarySearch_error h.le he
  rw [insertIdx_bisect]
  have below : ∀ y ∈ xs.takeWhile (fun y => key y < key x), key y < key x := fun y hy => takeWhile_lt hy
  have above : ∀ y ∈ xs.drop (bisect key (key x) xs), key x < key y := by
    intro y hy
    exact lt_of_le_of_ne (le_of_mem_drop_bisect h.le hy) (absent y (List.mem_of_mem_drop hy)).symm
  apply Ascending.append (h.sublist (List.takeWhile_sublist _))
  · exact List.pairwise_cons.mpr ⟨above, h.sublist (List.drop_sublist _ _)⟩
  · intro y hy z hz
    rcases List.mem_cons.mp hz with rfl | hz
    · exact below y hy
    · exact (below y hy).trans (above z hz)

theorem mem_insert_of_error {xs : List α} {x : α} {i : Nat}
    (he : binarySearchByKey key (key x) xs = .error i) {y : α} : y ∈ xs.insertIdx i x ↔ y = x ∨ y ∈ xs := by
  have hi : i = bisect key (key x) xs := by
    unfold binarySearchByKey at he
    split at he
    · split_ifs at he
      cases he
      rfl
    · cases he
      rfl
  have hle : i ≤ xs.length := by
    rw [hi]
    exact (List.takeWhile_sublist _).length_le
  exact List.mem_insertIdx hle

/-- `sort` and `dedup`: neighbours that are equal are kept once. -/
def sortDedup (le : α → α → Prop) [DecidableRel le] [DecidableEq α] (xs : List α) : List α :=
  (xs.insertionSort le).destutter (· ≠ ·)

theorem mem_destutter_ne [DecidableEq α] {x : α} (a : α) (xs : List α) (h : x ∈ a :: xs) :
    x ∈ xs.destutter' (· ≠ ·) a := by
  induction xs generalizing a with
  | nil => simpa using h
  | cons b rest ih =>
    by_cases same : a = b
    · subst same
      rw [List.destutter'_cons_neg _ (fun different => different rfl)]
      exact ih a (by simpa using h)
    · rw [List.destutter'_cons_pos _ same]
      rcases List.mem_cons.mp h with rfl | later
      · exact List.mem_cons_self
      · exact List.mem_cons_of_mem _ (ih b later)

theorem mem_sortDedup {le : α → α → Prop} [DecidableRel le] [DecidableEq α] {x : α} {xs : List α} :
    x ∈ sortDedup le xs ↔ x ∈ xs := by
  rw [← (List.perm_insertionSort le xs).mem_iff, sortDedup]
  constructor
  · exact fun h => (List.destutter_sublist _ _).subset h
  · intro h
    cases sorted : xs.insertionSort le with
    | nil => simp [sorted] at h
    | cons a rest => exact mem_destutter_ne a rest (sorted ▸ h)

end MacSftp.Lib
