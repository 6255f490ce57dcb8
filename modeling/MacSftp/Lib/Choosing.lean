import Mathlib.Data.List.Sort

namespace MacSftp.Lib

variable {α : Type} (key : α → Nat) (wanted : α → Bool)

/-- The one with the greater key, and else the earlier one. -/
def longer : Option α → Option α → Option α
  | none, newer => newer
  | some older, none => some older
  | some older, some newer => if key newer > key older then some newer else some older

def firstLongest : List α → Option α
  | [] => none
  | a :: rest => longer key (if wanted a then some a else none) (firstLongest rest)

variable {key wanted}

theorem longer_none (best : Option α) : longer key best none = best := by
  cases best <;> rfl

theorem longer_some (a b : α) : longer key (some a) (some b) = if key b > key a then some b else some a := rfl

theorem longer_assoc (a b c : Option α) : longer key (longer key a b) c = longer key a (longer key b c) := by
  cases a with
  | none => rfl
  | some a =>
    cases b with
    | none => rfl
    | some b =>
      cases c with
      | none => rw [longer_none, longer_none]
      | some c =>
        rw [longer_some a b, longer_some b c]
        split_ifs with ab bc bc
        · rw [longer_some, longer_some, if_pos bc, if_pos (ab.trans bc)]
        · rw [longer_some, longer_some, if_neg bc, if_pos ab]
        · rfl
        · have ac : ¬key c > key a := fun ac => bc (Nat.lt_of_le_of_lt (Nat.le_of_not_lt ab) ac)
          rw [longer_some, longer_some, if_neg ac, if_neg ab]

theorem find_orderedInsert {sorted : List α} (ordered : sorted.Pairwise fun a b => key a ≥ key b) (a : α) :
    (sorted.orderedInsert (fun a b => key a ≥ key b) a).find? wanted =
      longer key (if wanted a then some a else none) (sorted.find? wanted) := by
  induction sorted with
  | nil =>
    rw [List.orderedInsert, List.find?_nil, longer_none]
    cases is : wanted a <;> simp [is]
  | cons b rest ih =>
    obtain ⟨least, ordered⟩ := List.pairwise_cons.mp ordered
    rw [List.orderedInsert_cons]
    split_ifs with before is is
    · rw [List.find?_cons_of_pos is]
      cases found : (b :: rest).find? wanted with
      | none => rfl
      | some c =>
        have small : key c ≤ key a := by
          rcases List.mem_cons.mp (List.mem_of_find?_eq_some found) with rfl | later
          · exact before
          · exact (least c later).trans before
        exact (if_neg (Nat.not_lt.mpr small)).symm
    · rw [List.find?_cons_of_neg is]
      rfl
    · cases this : wanted b with
      | true =>
        rw [List.find?_cons_of_pos this, List.find?_cons_of_pos this]
        exact (if_pos (Nat.lt_of_not_ge before)).symm
      | false => rw [List.find?_cons_of_neg (by simp [this]), List.find?_cons_of_neg (by simp [this]), ih ordered, if_pos is]
    · cases this : wanted b with
      | true =>
        rw [List.find?_cons_of_pos this, List.find?_cons_of_pos this]
        rfl
      | false => rw [List.find?_cons_of_neg (by simp [this]), List.find?_cons_of_neg (by simp [this]), ih ordered, if_neg is]

variable (key) in
theorem keys_total : Std.Total fun a b : α => key a ≥ key b := ⟨fun a b => Nat.le_total (key b) (key a)⟩

variable (key) in
theorem keys_trans : IsTrans α fun a b => key a ≥ key b := ⟨fun _ _ _ ab bc => Nat.le_trans bc ab⟩

/-- The first one that is wanted after a stable sort by falling keys. -/
theorem find_sorted (list : List α) :
    (list.insertionSort fun a b => key a ≥ key b).find? wanted = firstLongest key wanted list := by
  have total := keys_total key
  have transitive := keys_trans key
  induction list with
  | nil => rfl
  | cons a rest ih =>
    rw [List.insertionSort_cons, find_orderedInsert (List.pairwise_insertionSort _ rest), ih]
    rfl

end MacSftp.Lib
