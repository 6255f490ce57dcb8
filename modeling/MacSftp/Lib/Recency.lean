import Mathlib.Data.List.Nodup

namespace MacSftp.Lib

/-! Lists with the most recent element first. -/

variable {α : Type} [DecidableEq α]

def toFront (a : α) (xs : List α) : List α := a :: xs.filter (· ≠ a)

theorem toFront_nodup (a : α) {xs : List α} (nodup : xs.Nodup) : (toFront a xs).Nodup := by
  apply List.nodup_cons.mpr
  exact ⟨by simp, nodup.filter _⟩

theorem toFront_fresh {a : α} {xs : List α} (fresh : a ∉ xs) : toFront a xs = a :: xs := by
  have others : xs.filter (· ≠ a) = xs := by
    apply List.filter_eq_self.mpr
    intro b hb
    exact decide_eq_true fun same => fresh (same ▸ hb)
  rw [toFront, others]

theorem toFront_perm {a : α} {xs ys : List α} (nodup : xs.Nodup) (perm : xs.Perm ys) (mem : a ∈ ys) : (toFront a xs).Perm ys := by
  have others : xs.filter (· ≠ a) = xs.erase a := by
    rw [nodup.erase_eq_filter]
    apply List.filter_congr
    intro b _
    exact Bool.eq_iff_iff.mpr (by simp)
  rw [toFront, others]
  exact (List.perm_cons_erase (perm.mem_iff.mpr mem)).symm.trans perm

theorem toFront_others (a : α) (xs : List α) : (toFront a xs).filter (· ≠ a) = xs.filter (· ≠ a) := by
  simp [toFront]

theorem toFront_sublist (a : α) {xs ys : List α} (sub : xs.Sublist ys) : (toFront a xs).Sublist (toFront a ys) :=
  (sub.filter _).cons_cons a

theorem cons_sublist_toFront {a : α} {xs ys : List α} (sub : xs.Sublist ys) (fresh : a ∉ xs) :
    (a :: xs).Sublist (toFront a ys) := by
  rw [← toFront_fresh fresh]
  exact toFront_sublist a sub

/-- The elements of a history, the last one first, each where it was last seen. -/
def recency (history : List α) : List α := history.foldl (fun xs a => toFront a xs) []

theorem recency_concat (history : List α) (a : α) : recency (history ++ [a]) = toFront a (recency history) := by
  simp [recency]

end MacSftp.Lib
