import MacSftp.Lib.Keyed
import MacSftp.Lib.Ordered
import Mathlib.Data.List.Rotate
import Mathlib.Data.List.Sort

namespace MacSftp.Lib

/-! The positions of the elements that a filter keeps: the rows of a filtered view, and where they come from. -/

variable {α β : Type}

def positions (keep : α → Bool) (xs : List α) : List Nat := (xs.zipIdx.filter fun x => keep x.1).map Prod.snd

theorem positions_sorted (keep : α → Bool) (xs : List α) : (positions keep xs).Pairwise (· < ·) := by
  have all : (xs.zipIdx.map Prod.snd).Pairwise (· < ·) := by
    rw [List.zipIdx_map_snd]
    exact List.pairwise_lt_range'
  exact all.sublist (List.filter_sublist.map _)

theorem mem_positions {keep : α → Bool} {xs : List α} {i : Nat} :
    i ∈ positions keep xs ↔ ∃ x, xs[i]? = some x ∧ keep x = true := by
  unfold positions
  constructor
  · intro mem
    obtain ⟨⟨x, j⟩, inside, rfl⟩ := List.mem_map.mp mem
    obtain ⟨listed, kept⟩ := List.mem_filter.mp inside
    exact ⟨x, List.mem_zipIdx_iff_getElem?.mp listed, kept⟩
  · rintro ⟨x, at_, kept⟩
    exact List.mem_map.mpr ⟨(x, i), List.mem_filter.mpr ⟨List.mem_zipIdx_iff_getElem?.mpr at_, kept⟩, rfl⟩

theorem map_fst_filter_zipIdx (keep : α → Bool) (xs : List α) :
    (xs.zipIdx.filter fun x => keep x.1).map Prod.fst = xs.filter keep := by
  rw [show (fun x : α × Nat => keep x.1) = keep ∘ Prod.fst from rfl, ← List.filter_map, List.zipIdx_map_fst]

theorem length_positions (keep : α → Bool) (xs : List α) : (positions keep xs).length = (xs.filter keep).length := by
  rw [← map_fst_filter_zipIdx keep xs, positions, List.length_map, List.length_map]

theorem positions_congr {keep other : α → Bool} {xs : List α} (same : ∀ x ∈ xs, keep x = other x) :
    positions keep xs = positions other xs := by
  unfold positions
  congr 1
  apply List.filter_congr
  rintro ⟨x, i⟩ listed
  exact same x (List.mem_of_getElem? (List.mem_zipIdx_iff_getElem?.mp listed))

theorem positions_all {keep : α → Bool} {xs : List α} (all : ∀ x ∈ xs, keep x = true) :
    positions keep xs = List.range xs.length := by
  have same : positions keep xs = positions (fun _ => true) xs := positions_congr all
  rw [same, positions, List.filter_true, List.zipIdx_map_snd, List.range_eq_range']

theorem positions_map (keep : β → Bool) (f : α → β) (xs : List α) :
    positions keep (xs.map f) = positions (fun x => keep (f x)) xs := by
  unfold positions
  rw [List.zipIdx_map, List.filter_map, List.map_map]
  rfl

/-- The row at a place shows the element at the position of that row. -/
theorem filter_at (keep : α → Bool) (xs : List α) (row : Nat) :
    (xs.filter keep)[row]? = (positions keep xs)[row]?.bind (xs[·]?) := by
  rw [← map_fst_filter_zipIdx keep xs, positions, List.getElem?_map, List.getElem?_map]
  cases found : (xs.zipIdx.filter fun x => keep x.1)[row]? with
  | none => rfl
  | some x =>
    obtain ⟨x, i⟩ := x
    have listed := (List.mem_filter.mp (List.mem_of_getElem? found)).1
    exact (List.mem_zipIdx_iff_getElem?.mp listed).symm

section Keys

variable {κ : Type} [DecidableEq κ] (key : α → κ) {keep : α → Bool} {xs : List α}

/-- With distinct keys, the row of an element is found again by its key. -/
theorem findIdx?_row (distinct : (xs.map key).Nodup) {row i : Nat} {x : α} (shown : (positions keep xs)[row]? = some i)
    (at_ : xs[i]? = some x) : (xs.filter keep).findIdx? (fun y => key y = key x) = some row := by
  have row_ : (xs.filter keep)[row]? = some x := by rw [filter_at, shown, Option.bind_some, at_]
  have kept : ((xs.filter keep).map key).Nodup := distinct.sublist (List.filter_sublist.map key)
  obtain ⟨inside, same⟩ := List.getElem?_eq_some_iff.mp row_
  rw [List.findIdx?_eq_some_iff_getElem]
  refine ⟨inside, by simp [same], ?_⟩
  intro other before
  rw [decide_eq_true_eq]
  intro equal
  have place := key_index_unique key kept (List.getElem?_eq_getElem (before.trans inside)) row_ equal
  omega

theorem findIdx?_hidden (distinct : (xs.map key).Nodup) {i : Nat} {x : α} (at_ : xs[i]? = some x) (hidden : i ∉ positions keep xs) :
    (xs.filter keep).findIdx? (fun y => key y = key x) = none := by
  rw [List.findIdx?_eq_none_iff]
  intro y listed
  obtain ⟨stored, kept⟩ := List.mem_filter.mp listed
  rw [decide_eq_false_iff_not]
  intro equal
  have same : y = x := List.inj_on_of_nodup_map distinct stored (List.mem_of_getElem? at_) equal
  exact hidden (mem_positions.mpr ⟨x, at_, same ▸ kept⟩)

end Keys

section Slices

variable {xs : List α} {lo hi : Nat}

theorem drop_take_slice (le : lo ≤ hi) : (xs.take (hi + 1)).drop lo = slice lo hi xs := by
  have size : hi + 1 - lo = hi - lo + 1 := by omega
  rw [slice, List.drop_take, size]

theorem slice_singleton {i : Nat} {x : α} (at_ : xs[i]? = some x) : slice i i xs = [x] := by
  obtain ⟨inside, rfl⟩ := List.getElem?_eq_some_iff.mp at_
  rw [slice, List.drop_eq_getElem_cons inside, Nat.sub_self, List.take_succ_cons, List.take_zero]

theorem map_slice (f : α → β) (xs : List α) (lo hi : Nat) : (slice lo hi xs).map f = slice lo hi (xs.map f) := by
  rw [slice, slice, List.map_take, List.map_drop]

/-- Seen from the whole list, a slice of distinct elements is at consecutive positions. -/
theorem positions_slice [DecidableEq α] (distinct : xs.Nodup) (inside : hi < xs.length) (le : lo ≤ hi) :
    positions (fun x => decide (x ∈ slice lo hi xs)) xs = List.range' lo (hi + 1 - lo) := by
  refine (positions_sorted _ xs).eq_of_mem_iff List.pairwise_lt_range' ?_
  intro i
  rw [mem_positions, List.mem_range'_1]
  constructor
  · rintro ⟨x, at_, inSlice⟩
    obtain ⟨j, low, high, found⟩ := (mem_slice le).mp (of_decide_eq_true inSlice)
    have bound := (List.getElem?_eq_some_iff.mp at_).1
    have same : i = j := (List.getElem?_inj bound distinct).mp (at_.trans found.symm)
    omega
  · intro between
    have bound : i < xs.length := by omega
    have at_ : xs[i]? = some xs[i] := List.getElem?_eq_getElem bound
    exact ⟨_, at_, decide_eq_true ((mem_slice le).mpr ⟨i, by omega, by omega, at_⟩)⟩

end Slices

/-- The positions from `start` on, going round at the end. -/
theorem range_rotate (n start : Nat) :
    (List.range n).map (fun offset => (start % n + offset) % n) = (List.range n).rotate (start % n) := by
  apply List.ext_getElem
  · simp
  · intro i inside _
    rw [List.getElem_rotate]
    simp [Nat.add_comm]

end MacSftp.Lib
