import MacSftp.Transfer.Reachable
import MacSftp.Lib.Halving
import Mathlib.Algebra.Ring.Nat
import Mathlib.Data.Finset.Card

namespace MacSftp

open Lib

/-- A slice of transfer ids, which are 64-bit numbers. -/
structure IdSlice where
  ids : List TransferId
  fits : ∀ id ∈ ids, id.raw < 2 ^ 64
  short : ids.length < 2 ^ 64

/-- Sums and differences of 64-bit numbers: nothing where they would wrap. -/
def checkedAdd (a b : Nat) : Option Nat := if a + b < 2 ^ 64 then some (a + b) else none

def checkedSub (a b : Nat) : Option Nat := if b ≤ a then some (a - b) else none

theorem checkedAdd_of_lt {a b : Nat} (fits : a + b < 2 ^ 64) : checkedAdd a b = some (a + b) := if_pos fits

theorem checkedSub_of_le {a b : Nat} (le : b ≤ a) : checkedSub a b = some (a - b) := if_pos le

/-- `windows(2).all(|w| w[0].0 + 1 == w[1].0)`: the first window that fails ends it. -/
def consecutive : List TransferId → Option Bool
  | a :: b :: rest => do
    let next ← checkedAdd a.raw 1
    if next = b.raw then consecutive (b :: rest) else some false
  | _ => some true

/-- The test for a contiguous slice, each operand only when the one before it holds. -/
def spansExactly (ids : List TransferId) (first last : TransferId) : Option Bool :=
  if last.raw ≥ first.raw then do
    let span ← checkedSub last.raw first.raw
    let steps ← checkedSub ids.length 1
    if span = steps then (if ids.length ≤ 2 then some true else consecutive ids) else some false
  else some false

namespace IdMatcher

def newChecked (ids : List TransferId) : Option IdMatcher :=
  if ids = [] then some .empty
  else do
    let first ← ids[0]?
    let last ← ids[← checkedSub ids.length 1]?
    let contiguous ← spansExactly ids first last
    some <|
      if contiguous then .contiguous first.raw last.raw
      else if ids.IsChain (· ≤ ·) then .sorted ids
      else .set ids.toFinset

/-- `IdMatcher::contains`, which adds and subtracts nothing. -/
def holds (matcher : IdMatcher) (id : TransferId) : Bool :=
  match matcher with
  | empty => false
  | contiguous first last => id.raw ≥ first ∧ id.raw ≤ last
  | sorted ids => (searchHalves ids id).isOk
  | set ids => id ∈ ids

def len (matcher : IdMatcher) : Option Nat :=
  match matcher with
  | empty => some 0
  | contiguous first last => do checkedAdd (← checkedSub last first) 1
  | sorted ids => some ids.length
  | set ids => some ids.card

end IdMatcher

def planHasChildChecked (plan : TransferPlan) (transferId : TransferId) : Option Bool :=
  if plan.childJobs = [] then some false
  else do
    let first ← plan.childJobs[0]?
    let last ← plan.childJobs[← checkedSub plan.childJobs.length 1]?
    some <|
      if first ≤ last ∧ transferId ≥ first ∧ transferId ≤ last ∧ (searchHalves plan.childJobs transferId).isOk then true
      else plan.childJobs.contains transferId

section Arithmetic

variable {first last : TransferId} {ids : List TransferId}

/-- The window test adds to an id that is followed by another one: a run of consecutive ids up to the greatest 64-bit
number leaves no room for an id behind it. -/
theorem consecutive_checked (last : Nat) (fits : ∀ id ∈ first :: ids, id.raw < 2 ^ 64)
    (room : first.raw + ids.length = last) (bound : last < 2 ^ 64) :
    consecutive (first :: ids) = some (decide ((first :: ids).IsChain fun a b => a.raw + 1 = b.raw)) := by
  induction ids generalizing first with
  | nil => simp [consecutive]
  | cons next rest ih =>
    rw [List.length_cons] at room
    have sum : checkedAdd first.raw 1 = some (first.raw + 1) := checkedAdd_of_lt (by omega)
    unfold consecutive
    rw [sum]
    change (if first.raw + 1 = next.raw then consecutive (next :: rest) else some false) = _
    split_ifs with step
    · rw [ih (fun id inside => fits id (List.mem_cons_of_mem _ inside)) (by omega)]
      simp [step]
    · simp [step]

theorem spansExactly_checked (fits : ∀ id ∈ first :: ids, id.raw < 2 ^ 64) (lastFits : last.raw < 2 ^ 64) :
    spansExactly (first :: ids) first last = some (decide (last.raw ≥ first.raw ∧
      last.raw - first.raw = (first :: ids).length - 1 ∧
        ((first :: ids).length ≤ 2 ∨ (first :: ids).IsChain fun a b => a.raw + 1 = b.raw))) := by
  unfold spansExactly
  by_cases le : last.raw ≥ first.raw
  · have steps : checkedSub (first :: ids).length 1 = some ids.length := checkedSub_of_le (by simp)
    rw [if_pos le, checkedSub_of_le le, steps]
    change (if last.raw - first.raw = ids.length then
      (if (first :: ids).length ≤ 2 then some true else consecutive (first :: ids)) else some false) = _
    by_cases span : last.raw - first.raw = ids.length
    · rw [if_pos span]
      by_cases short : (first :: ids).length ≤ 2
      · rw [if_pos short, decide_eq_true ⟨le, span, .inl short⟩]
      · rw [if_neg short, consecutive_checked last.raw fits (by omega) lastFits]
        congr 2
        exact propext ⟨fun chain => ⟨le, span, .inr chain⟩, fun holds => holds.2.2.resolve_left short⟩
    · rw [if_neg span, decide_eq_false fun holds => span holds.2.1]
  · rw [if_neg le, decide_eq_false fun holds => le holds.1]

theorem IdSlice.first_last (slice : IdSlice) (some_ : slice.ids ≠ []) :
    ∃ first rest last, slice.ids = first :: rest ∧ slice.ids[0]? = some first ∧ slice.ids.getLast? = some last ∧
      slice.ids[slice.ids.length - 1]? = some last ∧ last.raw < 2 ^ 64 := by
  obtain ⟨first, rest, cut⟩ := List.exists_cons_of_ne_nil some_
  have ends : slice.ids.getLast? = some (slice.ids.getLast some_) := List.getLast?_eq_some_getLast some_
  refine ⟨first, rest, slice.ids.getLast some_, cut, by rw [cut]; rfl, ends, ?_, slice.fits _ (List.getLast_mem some_)⟩
  rw [← List.getLast?_eq_getElem?]
  exact ends

/-- The arithmetic of the constructor never wraps, so that it builds the matcher of the transfer store. -/
theorem IdMatcher.newChecked_eq (slice : IdSlice) : IdMatcher.newChecked slice.ids = some (IdMatcher.new slice.ids) := by
  by_cases empty : slice.ids = []
  · rw [empty]
    rfl
  · obtain ⟨first, rest, last, cut, firstAt, ends, lastAt, lastFits⟩ := slice.first_last empty
    have pos : 1 ≤ slice.ids.length := List.length_pos_iff.mpr empty
    have fits : ∀ id ∈ first :: rest, id.raw < 2 ^ 64 := cut ▸ slice.fits
    have spans := spansExactly_checked fits lastFits
    rw [← cut] at spans
    unfold IdMatcher.newChecked IdMatcher.new
    rw [if_neg empty, firstAt, checkedSub_of_le pos, List.head?_eq_getElem?, firstAt, ends]
    simp only [Option.bind_eq_bind, Option.bind_some, lastAt, spans, decide_eq_true_eq]

end Arithmetic

section Membership

variable {ids : List TransferId}

theorem IdMatcher.new_cases (ids : List TransferId) :
    (ids = [] ∧ IdMatcher.new ids = .empty) ∨
      (∃ first rest last, ids = first :: rest ∧ last = first.raw + rest.length ∧ IdMatcher.new ids = .contiguous first.raw last) ∨
      (ids.IsChain (· ≤ ·) ∧ IdMatcher.new ids = .sorted ids) ∨ IdMatcher.new ids = .set ids.toFinset := by
  cases ids with
  | nil => exact .inl ⟨rfl, rfl⟩
  | cons first rest =>
    right
    obtain ⟨last, ends⟩ : ∃ last, (first :: rest).getLast? = some last := ⟨_, List.getLast?_eq_some_getLast (by simp)⟩
    simp only [IdMatcher.new, List.head?_cons, ends]
    split_ifs with contiguous sorted
    · obtain ⟨-, reach⟩ := isChain_of_span ends contiguous.2.1 contiguous.1 contiguous.2.2
      exact .inl ⟨first, rest, last.raw, rfl, reach, rfl⟩
    · exact .inr (.inl ⟨sorted, rfl⟩)
    · exact .inr (.inr rfl)

theorem IdMatcher.holds_new (ids : List TransferId) (id : TransferId) : (IdMatcher.new ids).holds id = true ↔ id ∈ ids := by
  rw [← IdMatcher.contains_new]
  rcases IdMatcher.new_cases ids with ⟨-, made⟩ | ⟨first, rest, last, -, -, made⟩ | ⟨sorted, made⟩ | made
  · rw [made]
    rfl
  · rw [made]
    rfl
  · rw [IdMatcher.contains_new, made, IdMatcher.holds, searchHalves_isOk (sorted_of_isChain sorted)]
  · rw [made]
    rfl

theorem IdMatcher.len_new (short : ids.length < 2 ^ 64) (distinct : ids.Nodup) : (IdMatcher.new ids).len = some ids.length := by
  rcases IdMatcher.new_cases ids with ⟨rfl, made⟩ | ⟨first, rest, last, rfl, reach, made⟩ | ⟨-, made⟩ | made
  · rw [made]
    rfl
  · rw [List.length_cons] at short
    have span : last - first.raw = rest.length := by omega
    rw [made, IdMatcher.len, checkedSub_of_le (by omega), span]
    exact checkedAdd_of_lt short
  · rw [made]
    rfl
  · rw [made, IdMatcher.len, List.toFinset_card_of_nodup distinct]

theorem planHasChild_checked (plan : TransferPlan) (transferId : TransferId) :
    planHasChildChecked plan transferId = some (decide (transferId ∈ plan.childJobs)) := by
  unfold planHasChildChecked
  by_cases empty : plan.childJobs = []
  · rw [if_pos empty, empty]
    simp
  · have pos : 0 < plan.childJobs.length := List.length_pos_iff.mpr empty
    rw [if_neg empty, checkedSub_of_le pos, List.getElem?_eq_getElem pos]
    simp only [Option.bind_eq_bind, Option.bind_some, List.getElem?_eq_getElem (Nat.sub_one_lt_of_lt pos)]
    congr 1
    split_ifs with found
    · have isOk := found.2.2.2
      cases result : searchHalves plan.childJobs transferId with
      | ok index => exact (decide_eq_true (List.mem_of_getElem? (searchHalves_ok result))).symm
      | error place =>
        rw [result] at isOk
        cases isOk
    · exact List.contains_eq_mem _ _

/-- Both ways to look an id up tell whether it is in the list, and no step of theirs wraps. -/
theorem id_matching_exact (slice : IdSlice) :
    ∃ matcher, IdMatcher.newChecked slice.ids = some matcher ∧ (∀ id, matcher.holds id = true ↔ id ∈ slice.ids) ∧
      (slice.ids.Nodup → matcher.len = some slice.ids.length) ∧
        ∀ (plan : TransferPlan) (id : TransferId), planHasChildChecked plan id = some (decide (id ∈ plan.childJobs)) := by
  refine ⟨IdMatcher.new slice.ids, IdMatcher.newChecked_eq slice, IdMatcher.holds_new slice.ids, ?_, planHasChild_checked⟩
  intro distinct
  exact IdMatcher.len_new slice.short distinct

/-- Not sorted, with a duplicate of the largest id there is. -/
def largestTwice : IdSlice where
  ids := [⟨2 ^ 64 - 1⟩, ⟨3⟩, ⟨2 ^ 64 - 1⟩]
  fits := by decide
  short := by decide

theorem id_matching_exact_largest :
    ∃ matcher, IdMatcher.newChecked largestTwice.ids = some matcher ∧ matcher.holds ⟨2 ^ 64 - 1⟩ = true ∧
      ¬matcher.holds ⟨4⟩ = true := by
  obtain ⟨matcher, made, exact, _⟩ := id_matching_exact largestTwice
  exact ⟨matcher, made, (exact _).mpr (by decide), fun held => absurd ((exact _).mp held) (by decide)⟩

end Membership

end MacSftp
