import Mathlib.Data.List.Infix
import Mathlib.Data.List.Forall2

namespace MacSftp.Lib

/-- The signs of patterns: one for any text within a piece of the text, one for any character of a piece. Where pieces of the
text are separated the pattern has the separator too, and nothing else stands for it. -/
structure Globbing (α : Type) where
  star : α
  any : α
  separator : α
  same : α → α → Bool
  same_separator : ∀ c, same c separator = true → c = separator
  separator_same : ∀ c, same separator c = true → c = separator

namespace Globbing

variable {α : Type} [DecidableEq α] (g : Globbing α)

/-- What a sign of a pattern, other than a star, takes for itself. -/
def Allows (c d : α) : Prop := if c = g.any then d ≠ g.separator else g.same c d = true

instance (c d : α) : Decidable (g.Allows c d) :=
  inferInstanceAs (Decidable (if c = g.any then d ≠ g.separator else g.same c d = true))

def Piece (c : α) (part : List α) : Prop :=
  if c = g.star then g.separator ∉ part else ∃ d, part = [d] ∧ g.Allows c d

/-- A text that can be cut in parts, one for each sign of the pattern. -/
def Matches (pattern text : List α) : Prop := ∃ parts : List (List α), text = parts.flatten ∧ List.Forall₂ g.Piece pattern parts

variable {g} {pattern text : List α} {c d : α}

theorem matches_nil : g.Matches [] text ↔ text = [] := by
  constructor
  · rintro ⟨parts, rfl, pieces⟩
    cases pieces
    rfl
  · rintro rfl
    exact ⟨[], rfl, .nil⟩

theorem matches_cons :
    g.Matches (c :: pattern) text ↔ ∃ part rest, text = part ++ rest ∧ g.Piece c part ∧ g.Matches pattern rest := by
  constructor
  · rintro ⟨parts, rfl, pieces⟩
    cases pieces with
    | cons piece pieces => exact ⟨_, _, rfl, piece, _, rfl, pieces⟩
  · rintro ⟨part, rest, rfl, piece, parts, rfl, pieces⟩
    exact ⟨part :: parts, rfl, .cons piece pieces⟩

theorem matches_star :
    g.Matches (g.star :: pattern) text ↔
      ∃ skipped rest, text = skipped ++ rest ∧ g.separator ∉ skipped ∧ g.Matches pattern rest := by
  rw [matches_cons]
  unfold Piece
  simp only [if_pos]

theorem matches_single (single : c ≠ g.star) :
    g.Matches (c :: pattern) text ↔ ∃ d rest, text = d :: rest ∧ g.Allows c d ∧ g.Matches pattern rest := by
  rw [matches_cons]
  unfold Piece
  simp only [if_neg single]
  constructor
  · rintro ⟨_, rest, rfl, ⟨d, rfl, allowed⟩, found⟩
    exact ⟨d, rest, rfl, allowed, found⟩
  · rintro ⟨d, rest, rfl, allowed, found⟩
    exact ⟨[d], rest, rfl, ⟨d, rfl, allowed⟩, found⟩

theorem matches_single_cons (single : c ≠ g.star) :
    g.Matches (c :: pattern) (d :: text) ↔ g.Allows c d ∧ g.Matches pattern text := by
  rw [matches_single single]
  constructor
  · rintro ⟨_, _, cut, found⟩
    cases cut
    exact found
  · intro found
    exact ⟨d, text, rfl, found⟩

theorem matches_star_step :
    g.Matches (g.star :: pattern) text ↔
      g.Matches pattern text ∨ ∃ d rest, text = d :: rest ∧ d ≠ g.separator ∧ g.Matches (g.star :: pattern) rest := by
  rw [matches_star]
  constructor
  · rintro ⟨skipped, rest, rfl, inside, found⟩
    cases skipped with
    | nil => exact .inl found
    | cons d skipped =>
      obtain ⟨apart, inside⟩ := List.ne_and_not_mem_of_not_mem_cons inside
      exact .inr ⟨d, skipped ++ rest, rfl, apart.symm, matches_star.mpr ⟨skipped, rest, rfl, inside, found⟩⟩
  · rintro (found | ⟨d, rest, rfl, apart, found⟩)
    · exact ⟨[], text, rfl, List.not_mem_nil, found⟩
    · obtain ⟨skipped, rest, rfl, inside, found⟩ := matches_star.mp found
      exact ⟨d :: skipped, rest, rfl, List.not_mem_cons_of_ne_of_not_mem apart.symm inside, found⟩

theorem matches_segment {segment : List α} (plain : g.star ∉ segment) :
    g.Matches (segment ++ pattern) text ↔
      ∃ taken rest, text = taken ++ rest ∧ List.Forall₂ g.Allows segment taken ∧ g.Matches pattern rest := by
  induction segment generalizing text with
  | nil =>
    constructor
    · intro found
      exact ⟨[], text, rfl, .nil, found⟩
    · rintro ⟨_, rest, rfl, taken, found⟩
      cases taken
      exact found
  | cons c segment ih =>
    obtain ⟨single, plain⟩ := List.ne_and_not_mem_of_not_mem_cons plain
    rw [List.cons_append, matches_single single.symm]
    constructor
    · rintro ⟨d, rest, rfl, allowed, found⟩
      obtain ⟨taken, rest, rfl, all, found⟩ := (ih plain).mp found
      exact ⟨d :: taken, rest, rfl, .cons allowed all, found⟩
    · rintro ⟨_, rest, rfl, taken, found⟩
      cases taken with
      | cons allowed all => exact ⟨_, _, rfl, allowed, (ih plain).mpr ⟨_, rest, rfl, all, found⟩⟩

theorem separator_fixed {segment first second : List α} (one : List.Forall₂ g.Allows segment first)
    (other : List.Forall₂ g.Allows segment second) {i : Nat} (at_ : second[i]? = some g.separator) :
    first[i]? = some g.separator := by
  induction one generalizing second i with
  | nil =>
    cases other
    cases at_
  | @cons c d segment first allowed one ih =>
    cases other with
    | @cons _ e _ second allowed' other =>
      cases i with
      | zero =>
        rw [List.getElem?_cons_zero, Option.some_inj] at at_
        subst at_
        unfold Allows at allowed allowed'
        split_ifs at allowed allowed' with is
        · exact absurd rfl allowed'
        · rw [g.same_separator c allowed'] at allowed
          rw [List.getElem?_cons_zero, g.separator_same d allowed]
      | succ i => exact ih other at_

theorem separator_absent {segment passed taken skipped rest text : List α} (one : List.Forall₂ g.Allows segment passed)
    (other : List.Forall₂ g.Allows segment taken) (some_ : skipped ≠ []) (inside : g.separator ∉ skipped)
    (cut : passed ++ text = skipped ++ (taken ++ rest)) : g.separator ∉ taken := by
  have nowhere : ∀ i : Nat, taken[i]? ≠ some g.separator := by
    intro i
    induction i using Nat.strongRecOn with
    | ind i earlier =>
      intro at_
      have before : i < taken.length := (List.getElem?_eq_some_iff.mp at_).1
      have passedAt := separator_fixed one other at_
      have whole : (skipped ++ (taken ++ rest))[i]? = some g.separator := by
        rw [← cut, List.getElem?_append_left (List.getElem?_eq_some_iff.mp passedAt).1]
        exact passedAt
      have pos : 0 < skipped.length := List.length_pos_iff.mpr some_
      rcases Nat.lt_or_ge i skipped.length with early | late
      · rw [List.getElem?_append_left early] at whole
        exact inside (List.mem_of_getElem? whole)
      · rw [List.getElem?_append_right late, List.getElem?_append_left (by omega)] at whole
        exact earlier (i - skipped.length) (by omega) whole
  intro mem
  obtain ⟨i, at_⟩ := List.mem_iff_getElem?.mp mem
  exact nowhere i at_

/-- The first place of a segment will do: what a later one, over which an earlier star would have to go on, leaves to the
next star, that star can skip. -/
theorem matches_earliest {segment passed skipped rest text : List α} (plain : g.star ∉ segment)
    (one : List.Forall₂ g.Allows segment passed) (some_ : skipped ≠ []) (inside : g.separator ∉ skipped)
    (cut : passed ++ text = skipped ++ rest) (found : g.Matches (segment ++ g.star :: pattern) rest) :
    g.Matches (g.star :: pattern) text := by
  obtain ⟨taken, behind, rfl, other, found⟩ := (matches_segment plain).mp found
  obtain ⟨skipped', rest, rfl, inside', found⟩ := matches_star.mp found
  have absent := separator_absent one other some_ inside cut
  have lengths : passed.length = taken.length := one.length_eq.symm.trans other.length_eq
  have long : passed.length ≤ (skipped ++ taken).length := by
    rw [List.length_append]
    omega
  have left : text = (skipped ++ taken).drop passed.length ++ (skipped' ++ rest) := by
    rw [← List.drop_append_of_le_length long, List.append_assoc, ← cut, List.drop_left]
  refine matches_star.mpr ⟨(skipped ++ taken).drop passed.length ++ skipped', rest, ?_, ?_, found⟩
  · rw [List.append_assoc]
    exact left
  · intro mem
    rcases List.mem_append.mp mem with early | late
    · rcases List.mem_append.mp (List.mem_of_mem_drop early) with early | early
      · exact inside early
      · exact absent early
    · exact inside' late

theorem matches_length {segment : List α} (plain : g.star ∉ segment) (found : g.Matches (segment ++ pattern) text) :
    segment.length ≤ text.length := by
  obtain ⟨taken, rest, rfl, all, -⟩ := (matches_segment plain).mp found
  rw [all.length_eq, List.length_append]
  omega

theorem matches_nothing : g.Matches pattern [] ↔ pattern.dropWhile (· = g.star) = [] := by
  induction pattern with
  | nil => simp [matches_nil]
  | cons c pattern ih =>
    by_cases star : c = g.star
    · subst star
      rw [List.dropWhile_cons_of_pos (by simp), ← ih, matches_star]
      constructor
      · rintro ⟨skipped, rest, none_, -, found⟩
        rw [(List.append_eq_nil_iff.mp none_.symm).2] at found
        exact found
      · intro found
        exact ⟨[], [], rfl, List.not_mem_nil, found⟩
    · rw [List.dropWhile_cons_of_neg (by simp [star]), matches_single star]
      simp

end Globbing

end MacSftp.Lib
