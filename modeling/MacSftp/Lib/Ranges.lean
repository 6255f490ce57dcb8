import Mathlib.Algebra.BigOperators.Group.List.Basic
import Mathlib.Algebra.Order.BigOperators.Group.List
import Mathlib.Algebra.Order.Group.Nat
import Mathlib.Algebra.Ring.Nat
import Mathlib.Tactic.Common

namespace MacSftp.Lib

/-- A stretch of offsets: where it starts and how long it is. -/
structure Range where
  start : Nat
  length : Nat
  deriving DecidableEq, Repr

namespace Range

def stop (r : Range) : Nat := r.start + r.length

abbrev Covers (r : Range) (i : Nat) : Prop := r.start ≤ i ∧ i < r.stop

end Range

/-- How many of the ranges an offset lies in. -/
def hits (ranges : List Range) (i : Nat) : Nat := ranges.countP (fun r => r.Covers i)

def total (ranges : List Range) : Nat := (ranges.map Range.length).sum

/-- Every offset below `n` lies in exactly one of the ranges, and no other offset in any. -/
def Tiles (ranges : List Range) (n : Nat) : Prop := ∀ i, hits ranges i = if i < n then 1 else 0

@[simp] theorem hits_nil (i : Nat) : hits [] i = 0 := rfl

@[simp] theorem total_nil : total [] = 0 := rfl

theorem hits_cons (r : Range) (rs : List Range) (i : Nat) : hits (r :: rs) i = (if r.Covers i then 1 else 0) + hits rs i := by
  unfold hits
  rw [List.countP_cons]
  simp only [decide_eq_true_eq]
  omega

@[simp] theorem total_cons (r : Range) (rs : List Range) : total (r :: rs) = r.length + total rs := by
  simp [total]

@[simp] theorem hits_append (rs ss : List Range) (i : Nat) : hits (rs ++ ss) i = hits rs i + hits ss i :=
  List.countP_append

@[simp] theorem total_append (rs ss : List Range) : total (rs ++ ss) = total rs + total ss := by
  simp [total]

theorem hits_head (r : Range) (rs : List Range) (i : Nat) : hits (r :: rs) i = hits [r] i + hits rs i :=
  hits_append [r] rs i

theorem hits_perm {rs ss : List Range} (h : rs.Perm ss) (i : Nat) : hits rs i = hits ss i := h.countP_eq _

theorem total_perm {rs ss : List Range} (h : rs.Perm ss) : total rs = total ss := (h.map _).sum_eq

theorem hits_singleton (start length i : Nat) :
    hits [⟨start, length⟩] i = if start ≤ i ∧ i < start + length then 1 else 0 := by
  rw [hits_cons, hits_nil, Nat.add_zero]
  rfl

theorem hits_split (start : Nat) {k n : Nat} (h : k ≤ n) (i : Nat) :
    hits [⟨start, n⟩] i = hits [⟨start, k⟩] i + hits [⟨start + k, n - k⟩] i := by
  rw [hits_singleton, hits_singleton, hits_singleton]
  by_cases first : i < start + k
  · have rest : ¬ (start + k ≤ i ∧ i < start + k + (n - k)) := by omega
    rw [if_neg rest, Nat.add_zero]
    exact if_congr (by omega) rfl rfl
  · have before : ¬ (start ≤ i ∧ i < start + k) := by omega
    rw [if_neg before, Nat.zero_add]
    exact if_congr (by omega) rfl rfl

/-- The lengths of ranges that end by `n` add up to the hits of all offsets below `n`. -/
theorem sum_hits (rs : List Range) (n : Nat) (bounded : ∀ r ∈ rs, r.stop ≤ n) :
    ((List.range n).map (hits rs)).sum = total rs := by
  induction rs with
  | nil =>
    rw [total_nil]
    exact List.sum_eq_zero fun x hx => by
      obtain ⟨i, _, rfl⟩ := List.mem_map.mp hx
      rfl
  | cons r rs ih =>
    have one : ∀ m, ((List.range m).map (fun i => if r.Covers i then 1 else 0)).sum = min m r.stop - min m r.start := by
      intro m
      induction m with
      | zero => simp
      | succ m ih =>
        rw [List.range_succ, List.map_append, List.sum_append, ih]
        simp only [List.map_cons, List.map_nil, List.sum_cons, List.sum_nil]
        by_cases covered : r.Covers m
        · rw [if_pos covered]
          obtain ⟨above, below⟩ := covered
          omega
        · rw [if_neg covered]
          by_cases above : r.start ≤ m
          · have beyond : r.stop ≤ m := by
              by_contra below
              exact covered ⟨above, by omega⟩
            omega
          · have start_le : r.start ≤ r.stop := Nat.le_add_right _ _
            omega
    have split : ∀ is : List Nat, (is.map (hits (r :: rs))).sum =
        (is.map (fun i => if r.Covers i then 1 else 0)).sum + (is.map (hits rs)).sum := by
      intro is
      induction is with
      | nil => rfl
      | cons i is ih =>
        simp only [List.map_cons, List.sum_cons, ih, hits_cons]
        omega
    have ends := bounded r List.mem_cons_self
    rw [split, one n, ih fun s hs => bounded s (List.mem_cons_of_mem r hs), total_cons]
    simp only [Range.stop] at ends ⊢
    omega

theorem tiles_of_inside {rs : List Range} {n : Nat} (once : ∀ i < n, hits rs i = 1) (inside : ∀ r ∈ rs, r.stop ≤ n) :
    Tiles rs n := by
  intro i
  by_cases below : i < n
  · rw [if_pos below, once i below]
  · rw [if_neg below]
    refine List.countP_eq_zero.mpr ?_
    intro r hr covered
    have ends := inside r hr
    have covered := (of_decide_eq_true covered).2
    omega

theorem Tiles.stop_le {rs : List Range} {n : Nat} (tiles : Tiles rs n) (proper : ∀ r ∈ rs, 0 < r.length) :
    ∀ r ∈ rs, r.stop ≤ n := by
  intro r hr
  by_contra beyond
  have positive := proper r hr
  have ends : r.stop = r.start + r.length := rfl
  have last : 0 < hits rs (r.stop - 1) := by
    refine List.countP_pos_iff.mpr ⟨r, hr, decide_eq_true ⟨?_, ?_⟩⟩
    · omega
    · omega
  have none_ := tiles (r.stop - 1)
  rw [if_neg (by omega)] at none_
  omega

theorem Tiles.total_eq {rs : List Range} {n : Nat} (tiles : Tiles rs n) (proper : ∀ r ∈ rs, 0 < r.length) :
    total rs = n := by
  rw [← sum_hits rs n (tiles.stop_le proper)]
  have ones : (List.range n).map (hits rs) = (List.range n).map (fun _ => 1) := by
    refine List.map_congr_left ?_
    intro i hi
    rw [tiles i, if_pos (List.mem_range.mp hi)]
  rw [ones, List.map_const', List.length_range, List.sum_replicate, Nat.nsmul_eq_mul, Nat.mul_one]

section Overwrite

variable {α : Type}

/-- A file after a write at `start`; a gap before the write is filled. -/
def overwrite (fill : α) (file : List α) (start : Nat) (data : List α) : List α :=
  if data = [] then file
  else file.take start ++ List.replicate (start - file.length) fill ++ data ++ file.drop (start + data.length)

theorem overwrite_inside (fill : α) (file data : List α) {start i : Nat} (h : start ≤ i ∧ i < start + data.length) :
    (overwrite fill file start data)[i]? = data[i - start]? := by
  have some_ : data ≠ [] := by
    rintro rfl
    simp at h
    omega
  rw [overwrite, if_neg some_, List.append_assoc, List.getElem?_append_right (by simp; omega),
    List.getElem?_append_left (by simp; omega)]
  simp only [List.length_append, List.length_take, List.length_replicate]
  congr 1
  omega

theorem overwrite_outside (fill : α) {file data : List α} {start i : Nat} (inside : i < file.length)
    (h : ¬ (start ≤ i ∧ i < start + data.length)) : (overwrite fill file start data)[i]? = file[i]? := by
  unfold overwrite
  split
  · rfl
  rename_i some_
  by_cases before : i < start
  · rw [List.append_assoc, List.append_assoc, List.getElem?_append_left (by simp; omega), List.getElem?_take_of_lt before]
  · rw [List.getElem?_append_right (by simp; omega), List.getElem?_drop]
    congr 1
    simp
    omega

theorem length_overwrite_le (fill : α) {file data : List α} {start n : Nat} (hf : file.length ≤ n)
    (hd : start + data.length ≤ n) : (overwrite fill file start data).length ≤ n := by
  unfold overwrite
  split
  · exact hf
  · simp
    omega

/-- A file of at most `n` entries that agrees with `whole` wherever it has been written. -/
structure Agrees (whole : List α) (n : Nat) (file : List α) (writes : List Range) : Prop where
  length : file.length ≤ n
  entries : ∀ i, 0 < hits writes i → ∃ x, file[i]? = some x ∧ whole[i]? = some x

theorem agrees_nil (whole : List α) (n : Nat) : Agrees whole n [] [] :=
  ⟨Nat.zero_le _, fun _ hit => absurd hit (lt_irrefl 0)⟩

theorem Agrees.mono {whole file : List α} {writes : List Range} {m n : Nat} (h : Agrees whole m file writes) (le : m ≤ n) :
    Agrees whole n file writes := ⟨h.length.trans le, h.entries⟩

theorem prefix_entry {whole data : List α} {start j : Nat} (part : data <+: whole.drop start) (h : j < data.length) :
    ∃ x, data[j]? = some x ∧ whole[start + j]? = some x := by
  have bound := part.length_le
  rw [List.length_drop] at bound
  refine ⟨data[j], List.getElem?_eq_getElem h, ?_⟩
  rw [part.getElem h, List.getElem_drop]
  exact List.getElem?_eq_getElem (by omega)

theorem Agrees.write (fill : α) {whole file data : List α} {writes : List Range} {n start : Nat}
    (h : Agrees whole n file writes) (part : data <+: whole.drop start) (below : start + data.length ≤ n) :
    Agrees whole n (overwrite fill file start data) (writes ++ [⟨start, data.length⟩]) := by
  refine ⟨length_overwrite_le fill h.length below, fun i hit => ?_⟩
  by_cases inside : start ≤ i ∧ i < start + data.length
  · obtain ⟨x, stored, original⟩ := prefix_entry part (j := i - start) (by omega)
    refine ⟨x, (overwrite_inside fill file data inside).trans stored, ?_⟩
    rwa [Nat.add_sub_cancel' inside.1] at original
  · have old : 0 < hits writes i := by
      rw [hits_append, hits_singleton, if_neg inside] at hit
      exact hit
    obtain ⟨x, stored, original⟩ := h.entries i old
    obtain ⟨short, _⟩ := List.getElem?_eq_some_iff.mp stored
    exact ⟨x, (overwrite_outside fill short inside).trans stored, original⟩

theorem Agrees.eq_take {whole file : List α} {writes : List Range} {n : Nat} (h : Agrees whole n file writes)
    (once : ∀ i < n, hits writes i = 1) : file = whole.take n := by
  refine List.ext_getElem? fun i => ?_
  by_cases below : i < n
  · obtain ⟨x, stored, original⟩ := h.entries i (by rw [once i below]; exact Nat.one_pos)
    rw [stored, List.getElem?_take_of_lt below, original]
  · have short := h.length
    rw [List.getElem?_eq_none (by omega), List.getElem?_eq_none (by rw [List.length_take]; omega)]

end Overwrite

end MacSftp.Lib
