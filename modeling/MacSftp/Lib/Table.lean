import Mathlib.Data.List.AList
import Mathlib.Data.List.Perm.Basic
import Mathlib.Algebra.Ring.Nat

namespace MacSftp.Lib

/-! Finite maps (Mathlib's association lists with distinct keys, at a constant type of values) and counts. -/

abbrev Table (κ ν : Type) := AList (fun _ : κ => ν)

theorem countP_of_getElem? {α : Type} (p : α → Bool) {xs : List α} {i : Nat} {x : α} (h : xs[i]? = some x) :
    xs.countP p = (if p x then 1 else 0) + (xs.eraseIdx i).countP p := by
  obtain ⟨hlt, rfl⟩ := List.getElem?_eq_some_iff.mp h
  rw [← (List.getElem_cons_eraseIdx_perm hlt).countP_eq p, List.countP_cons, Nat.add_comm]

theorem countP_set_of_getElem? {α : Type} (p : α → Bool) {xs : List α} {i : Nat} {x : α} (h : xs[i]? = some x)
    (y : α) : (xs.set i y).countP p = (if p y then 1 else 0) + (xs.eraseIdx i).countP p := by
  have hlt := (List.getElem?_eq_some_iff.mp h).1
  have get : (xs.set i y)[i]? = some y := by simp [hlt]
  rw [countP_of_getElem? p get, List.eraseIdx_set_eq]

theorem countP_of_find? {α : Type} (p q : α → Bool) {xs : List α} {x : α} (h : xs.find? q = some x) :
    xs.countP p = (if p x then 1 else 0) + (xs.eraseP q).countP p := by
  induction xs with
  | nil => cases h
  | cons y ys ih =>
    by_cases hy : q y
    · rw [List.find?_cons_of_pos hy] at h
      cases h
      rw [List.eraseP_cons_of_pos hy, List.countP_cons, Nat.add_comm]
    · rw [List.find?_cons_of_neg hy] at h
      rw [List.eraseP_cons_of_neg hy, List.countP_cons, List.countP_cons, ih h]
      omega

namespace Table

variable {κ ν : Type}

def retain (keep : κ → ν → Bool) (t : Table κ ν) : Table κ ν where
  entries := t.entries.filter (fun e => keep e.1 e.2)
  nodupKeys := t.nodupKeys.sublist List.filter_sublist

def mapValues (f : ν → ν) (t : Table κ ν) : Table κ ν where
  entries := t.entries.map (Sigma.map id (fun _ => f))
  nodupKeys := List.NodupKeys.map₂ (fun _ => f) t.entries t.nodupKeys

def values (t : Table κ ν) : List ν := t.entries.map (fun e => e.2)

def size (t : Table κ ν) : Nat := t.entries.length

variable [DecidableEq κ]

/-- `entry(k).or_insert(v)` -/
def orInsert (k : κ) (v : ν) (t : Table κ ν) : Table κ ν := if k ∈ t then t else t.insert k v

def modify (k : κ) (f : ν → ν) (t : Table κ ν) : Table κ ν :=
  match t.lookup k with
  | none => t
  | some v => t.insert k (f v)

theorem mem_entries_iff {k : κ} {v : ν} {t : Table κ ν} : ⟨k, v⟩ ∈ t.entries ↔ t.lookup k = some v :=
  AList.mem_lookup_iff.symm

theorem lookup_retain (keep : κ → ν → Bool) (k : κ) (t : Table κ ν) :
    (t.retain keep).lookup k = (t.lookup k).filter (keep k) := by
  ext v
  rw [← mem_entries_iff, Option.filter_eq_some_iff, ← mem_entries_iff]
  exact List.mem_filter

theorem mem_iff_lookup {k : κ} {t : Table κ ν} : k ∈ t ↔ ∃ v, t.lookup k = some v := by
  rw [← AList.lookup_isSome, Option.isSome_iff_exists]

theorem mem_retain {keep : κ → ν → Bool} {k : κ} {t : Table κ ν} :
    k ∈ t.retain keep ↔ ∃ v, t.lookup k = some v ∧ keep k v = true := by
  simp only [mem_iff_lookup, lookup_retain, Option.filter_eq_some_iff]

theorem lookup_modify (k : κ) (f : ν → ν) (t : Table κ ν) (k' : κ) :
    (t.modify k f).lookup k' = if k' = k then (t.lookup k').map f else t.lookup k' := by
  by_cases same : k' = k
  · subst same
    cases h : t.lookup k' <;> simp [modify, h]
  · rw [if_neg same]
    cases h : t.lookup k with
    | none => simp only [modify, h]
    | some v => simp only [modify, h, AList.lookup_insert_ne same]

theorem lookup_mapValues (f : ν → ν) (k : κ) (t : Table κ ν) : (t.mapValues f).lookup k = (t.lookup k).map f :=
  List.dlookup_map₂ k

def total (weight : ν → Nat) (t : Table κ ν) : Nat := (t.values.map weight).sum

omit [DecidableEq κ] in
theorem total_mapValues {weight : ν → Nat} {f : ν → ν} (same : ∀ v, weight (f v) = weight v) (t : Table κ ν) :
    total weight (t.mapValues f) = total weight t := by
  simp only [total, values, mapValues, List.map_map]
  congr 1
  exact List.map_congr_left (fun e _ => same e.2)

theorem total_insert (weight : ν → Nat) (k : κ) (v : ν) (t : Table κ ν) :
    total weight (t.insert k v) = weight v + total weight (t.erase k) := rfl

theorem total_erase (weight : ν → Nat) {k : κ} {v : ν} {t : Table κ ν} (h : t.lookup k = some v) :
    total weight t = weight v + total weight (t.erase k) := by
  have hk : k ∈ t.entries.keys := AList.lookup_isSome.mp (by simp [h])
  obtain ⟨v', before, after, _, whole, rest⟩ := List.exists_of_kerase hk
  have same : v' = v := by
    have hv : t.lookup k = some v' := mem_entries_iff.mp (by simp [whole])
    exact Option.some.inj (hv.symm.trans h)
  subst same
  have erased : (t.erase k).entries = before ++ after := rest
  simp only [total, values, whole, erased, List.map_append, List.map_cons, List.sum_append, List.sum_cons]
  omega

theorem erase_of_lookup_none {k : κ} {t : Table κ ν} (h : t.lookup k = none) : t.erase k = t := by
  apply AList.ext
  exact List.kerase_of_notMem_keys (AList.lookup_eq_none.mp h)

theorem total_modify {weight : ν → Nat} {f : ν → ν} (same : ∀ v, weight (f v) = weight v) (k : κ) (t : Table κ ν) :
    total weight (t.modify k f) = total weight t := by
  cases h : t.lookup k with
  | none => simp only [modify, h]
  | some v => simp only [modify, h, total_insert, same, total_erase weight h]

theorem total_erase_le (weight : ν → Nat) (k : κ) (t : Table κ ν) : total weight (t.erase k) ≤ total weight t := by
  cases h : t.lookup k with
  | none => rw [erase_of_lookup_none h]
  | some v => rw [total_erase weight h]; omega

omit [DecidableEq κ] in
theorem size_eq_total (t : Table κ ν) : size t = total (fun _ => 1) t := by
  simp [size, total, values, Function.comp_def]

theorem size_erase_le (k : κ) (t : Table κ ν) : size (t.erase k) ≤ size t := by
  rw [size_eq_total, size_eq_total]
  exact total_erase_le _ k t

theorem size_insert_le (k : κ) (v : ν) (t : Table κ ν) : size (t.insert k v) ≤ size t + 1 :=
  Nat.succ_le_succ (size_erase_le k t)

theorem size_insert_known {k : κ} {v : ν} {t : Table κ ν} (h : k ∈ t) : size (t.insert k v) ≤ size t := by
  obtain ⟨old, found⟩ := mem_iff_lookup.mp h
  rw [size_eq_total, size_eq_total, total_insert, total_erase _ found]

/-- `*entry(k).or_insert(0) += 1` -/
def countUp (k : κ) (counts : Table κ Nat) : Table κ Nat := counts.insert k ((counts.lookup k).getD 0 + 1)

/-- The saturating decrement that drops a count once it reaches zero. -/
def countDown (k : κ) (counts : Table κ Nat) : Table κ Nat :=
  match counts.lookup k with
  | none => counts
  | some count => if count - 1 = 0 then counts.erase k else counts.insert k (count - 1)

/-- The table holds the count of every key whose count is not zero, and no other key. -/
def Counts (counts : Table κ Nat) (n : κ → Nat) : Prop :=
  ∀ k, counts.lookup k = if n k = 0 then none else some (n k)

theorem Counts.getD {counts : Table κ Nat} {n : κ → Nat} (h : Counts counts n) (k : κ) :
    (counts.lookup k).getD 0 = n k := by
  rw [h k]
  split
  · rename_i zero
    exact zero.symm
  · rfl

theorem Counts.congr {counts : Table κ Nat} {n n' : κ → Nat} (h : Counts counts n) (same : ∀ k, n' k = n k) :
    Counts counts n' := by
  intro k
  rw [h k, same k]

theorem Counts.up {counts : Table κ Nat} {n n' : κ → Nat} (h : Counts counts n) {k : κ}
    (same : ∀ k', n' k' = if k' = k then n k' + 1 else n k') : Counts (countUp k counts) n' := by
  intro k'
  rw [countUp, h.getD, same k']
  by_cases he : k' = k
  · subst he
    simp
  · rw [AList.lookup_insert_ne he, h k', if_neg he]

theorem Counts.down {counts : Table κ Nat} {n n' : κ → Nat} (h : Counts counts n) {k : κ} (pos : 0 < n k)
    (same : ∀ k', n' k' = if k' = k then n k' - 1 else n k') : Counts (countDown k counts) n' := by
  have present : counts.lookup k = some (n k) := by rw [h k, if_neg (by omega)]
  intro k'
  simp only [countDown, present, same k']
  by_cases he : k' = k
  · subst he
    rw [if_pos rfl]
    split_ifs
    · exact AList.lookup_erase k' counts
    · exact AList.lookup_insert counts
  · rw [if_neg he, ← h k']
    split_ifs
    · exact AList.lookup_erase_ne he
    · exact AList.lookup_insert_ne he

theorem Counts.gone {counts : Table κ Nat} {n n' : κ → Nat} (h : Counts counts n) {k : κ}
    (same : ∀ k', n' k' = if k' = k then 0 else n k') : Counts (counts.erase k) n' := by
  intro k'
  rw [same k']
  by_cases he : k' = k
  · subst he
    simp
  · rw [AList.lookup_erase_ne he, h k', if_neg he]

theorem lookup_erase_some {t : Table κ ν} {k k' : κ} {v : ν}
    (h : (t.erase k).lookup k' = some v) : k' ≠ k ∧ t.lookup k' = some v := by
  by_cases same : k' = k
  · subst same
    simp at h
  · exact ⟨same, by rwa [AList.lookup_erase_ne same] at h⟩

end Table

end MacSftp.Lib
