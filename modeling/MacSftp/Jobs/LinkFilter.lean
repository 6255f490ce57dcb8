import MacSftp.Jobs.Links
import Mathlib.Data.List.Basic

namespace MacSftp

/-- How far one segment of a target leads down; `..` leads up. -/
def descent (segment : List Char) : Int :=
  if segment = [] ∨ segment = ['.'] then 0 else if segment = ['.', '.'] then -1 else 1

def climb : List (List Char) → Int
  | [] => 0
  | segment :: rest => descent segment + climb rest

/-- The lexical rule: a relative target in plain characters that never leads above the root, on its way from a
directory so many names below it. -/
structure StaysInside (depth : Nat) (target : List Char) : Prop where
  nonempty : target ≠ []
  relative : target.head? ≠ some '/'
  home : target.head? ≠ some '~'
  backslash : '\\' ∉ target
  plain : ∀ c ∈ target, isBidiOrControl c = false
  drive : ∀ letter rest, target = letter :: ':' :: rest → isAsciiAlphabetic letter = false
  below : ∀ k, 0 ≤ (depth : Int) + climb ((target.splitOn '/').take k)

theorem climb_prefixes (n : Int) (segment : List Char) (rest : List (List Char)) :
    (∀ k, 0 ≤ n + climb ((segment :: rest).take k)) ↔ 0 ≤ n ∧ ∀ k, 0 ≤ n + descent segment + climb (rest.take k) := by
  constructor
  · intro every
    constructor
    · have start := every 0
      simp only [List.take_zero, climb] at start
      omega
    · intro k
      have next := every (k + 1)
      simp only [List.take_succ_cons, climb] at next
      omega
  · rintro ⟨start, later⟩ k
    cases k with
    | zero =>
      simp only [List.take_zero, climb]
      omega
    | succ k =>
      have next := later k
      simp only [List.take_succ_cons, climb]
      omega

/-- The walk along a target fails exactly when one of its prefixes leads above the root. -/
theorem followTarget_isSome_iff (stack segments : List (List Char)) :
    (followTarget stack segments).isSome = true ↔ ∀ k, 0 ≤ (stack.length : Int) + climb (segments.take k) := by
  induction segments generalizing stack with
  | nil => simp [followTarget, climb]
  | cons segment rest ih =>
    rw [climb_prefixes]
    unfold followTarget
    by_cases skipped : segment = [] ∨ segment = ['.']
    · rw [if_pos skipped, descent, if_pos skipped, ih stack]
      simp
    rw [if_neg skipped, descent, if_neg skipped]
    by_cases up : segment = ['.', '.']
    · rw [if_pos up, if_pos up]
      cases stack with
      | nil =>
        refine iff_of_false (by simp) ?_
        rintro ⟨-, later⟩
        have first := later 0
        simp [climb] at first
      | cons top below =>
        have depth : (((top :: below).length : Nat) : Int) + -1 = below.length := by
          rw [List.length_cons]
          omega
        rw [depth]
        refine (ih below).trans ⟨fun every => ⟨by omega, every⟩, fun both => both.2⟩
    · rw [if_neg up, if_neg up]
      have depth : (stack.length : Int) + 1 = ((segment :: stack).length : Nat) := by
        rw [List.length_cons]
        omega
      rw [depth]
      refine (ih (segment :: stack)).trans ⟨fun every => ⟨by omega, every⟩, fun both => both.2⟩

theorem linkStack_normal (names : List (List Char)) : linkStack (names.map .normal) = some names := by
  induction names with
  | nil => rfl
  | cons name names ih => rw [List.map_cons, linkStack, ih]; rfl

theorem relativeLinkDir_inside (root : List Component) {names : List (List Char)} (strict : names ≠ []) :
    relativeLinkDir root (root ++ names.map .normal) = some (names.dropLast.map .normal) := by
  have mapped : names.map Component.normal ≠ [] := fun none => strict (List.map_eq_nil_iff.mp none)
  have apart : root ++ names.map Component.normal ≠ root := fun same => mapped (List.append_right_eq_self.mp same)
  have last : (names.map Component.normal).getLast? ≠ some .rootDir := by
    intro last
    obtain ⟨name, -, is⟩ := List.mem_map.mp (List.mem_of_getLast? last)
    cases is
  rw [relativeLinkDir, if_neg apart, if_pos (List.prefix_append _ _)]
  simp only [List.drop_left]
  rw [if_neg mapped, if_neg last, List.map_dropLast]

theorem drivePrefix_iff (target : List Char) :
    isWindowsDrivePrefix target = false ↔ ∀ letter rest, target = letter :: ':' :: rest → isAsciiAlphabetic letter = false := by
  constructor
  · rintro plain letter rest rfl
    exact plain
  · intro plain
    unfold isWindowsDrivePrefix
    split
    · rename_i letter rest
      exact plain letter rest rfl
    · rfl

/-- A link below the root is accepted exactly when its target follows the lexical rule. -/
theorem link_accepted_iff (root destination : LocalPath) (names : List (List Char)) (strict : names ≠ [])
    (inside : components destination.chars = components root.chars ++ names.map .normal) (target : List Char) :
    validateDownloadSymlinkTarget (some root) destination target = .ok () ↔ StaysInside (names.length - 1) target := by
  have walk := followTarget_isSome_iff names.dropLast.reverse (target.splitOn '/')
  rw [List.length_reverse, List.length_dropLast] at walk
  have verdict : validateDownloadSymlinkTarget (some root) destination target = .ok () ↔
      unsafeTarget target = false ∧ (followTarget names.dropLast.reverse (target.splitOn '/')).isSome = true := by
    simp only [validateDownloadSymlinkTarget, Option.map_some, Option.getD_some, inside, relativeLinkDir_inside _ strict,
      symlinkTargetEscapesRoot, linkStack_normal]
    cases unsafeTarget target <;> cases followTarget names.dropLast.reverse (target.splitOn '/') <;> simp
  rw [verdict, walk]
  have rule : unsafeTarget target = false ↔ target ≠ [] ∧ target.head? ≠ some '/' ∧ target.head? ≠ some '~' ∧ '\\' ∉ target ∧
      isWindowsDrivePrefix target = false ∧ ∀ c ∈ target, isBidiOrControl c = false := by
    simp [unsafeTarget, and_assoc]
  rw [rule, drivePrefix_iff]
  constructor
  · rintro ⟨⟨nonempty, relative, home, backslash, drive, plain⟩, below⟩
    exact ⟨nonempty, relative, home, backslash, plain, drive, below⟩
  · intro kept
    exact ⟨⟨kept.nonempty, kept.relative, kept.home, kept.backslash, kept.drive, kept.plain⟩, kept.below⟩

theorem neighbour_accepted : StaysInside 1 "../b/c".toList :=
  (link_accepted_iff (.new "/downloads") (.new "/downloads/a/link") ["a".toList, "link".toList] (by decide) (by decide)
    "../b/c".toList).mp (by decide)

end MacSftp
