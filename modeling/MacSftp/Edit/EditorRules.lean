import MacSftp.Lib.CaseMapping
import MacSftp.Lib.Choosing
import MacSftp.Lib.Globs
import MacSftp.Storage.Config

namespace MacSftp

open Lib

theorem counters_lt {a a' b b' c c' : Nat} (less : a < a' ∨ a ≤ a' ∧ (b < b' ∨ b ≤ b' ∧ c < c')) :
    Prod.Lex (· < ·) (Prod.Lex (· < ·) (· < ·)) (a, b, c) (a', b', c') := by
  rw [Prod.lex_def, Prod.lex_def]
  dsimp only
  omega

section Source

variable (tables : CaseTables)

def charsEqCi (a b : Char) : Bool := tables.lower a = tables.lower b

/-- The signs of a pattern that take the next character. -/
def takesChar (sign next : Char) : Bool := (sign = '?' ∧ next ≠ '/') ∨ (sign ≠ '*' ∧ sign ≠ '?' ∧ charsEqCi tables sign next)

/-- The loop of `match_glob`. An index into the pattern or the text is what is left from there on; `star` has both behind
the last star, `star_pattern + 1` and `star_text`. Nothing would be an index out of bounds. -/
def matchGlobLoop (pattern text : List Char) (star : Option (List Char × List Char)) : Option Bool :=
  match text with
  | [] => some (pattern.dropWhile (· = '*') = [])
  | next :: rest =>
    if pattern.head? = some '*' then matchGlobLoop pattern.tail (next :: rest) (some (pattern.tail, next :: rest))
    else if pattern.head?.any fun sign => takesChar tables sign next then matchGlobLoop pattern.tail rest star
    else
      match star with
      | none => some false
      | some (_, []) => none
      | some (behind, skipped :: starText) =>
        if skipped = '/' then some false else matchGlobLoop behind starText (some (behind, starText))
termination_by
  (max pattern.length (star.elim 0 fun s => s.1.length), max text.length (star.elim 0 fun s => s.2.length), text.length)
decreasing_by
  · rename_i starred
    have shorter := List.length_pos_of_mem (List.mem_of_mem_head? starred)
    apply counters_lt
    simp only [List.length_tail, Option.elim_some]
    omega
  · apply counters_lt
    simp only [List.length_tail, List.length_cons]
    omega
  · apply counters_lt
    simp only [List.length_cons, Option.elim_some]
    omega

def matchGlob (pattern text : List Char) : Option Bool := matchGlobLoop tables pattern text none

def EditorRule.matches (rule : EditorRule) (fileName : List Char) : Option Bool := matchGlob tables rule.pattern fileName

/-- The bytes of what follows the last star. -/
def patternSuffixLen (pattern : List Char) : Nat :=
  ((pattern.reverse.takeWhile (· ≠ '*')).map Char.utf8Size).foldl (· + ·) 0

def sortEditorRules (rules : List EditorRule) : List EditorRule :=
  rules.insertionSort fun a b => patternSuffixLen a.pattern ≥ patternSuffixLen b.pattern

def resolveStep (fileName : List Char) (state : Option EditorRule × Nat) (rule : EditorRule) :
    Option (Option EditorRule × Nat) := do
  if ← rule.matches tables fileName then
    let len := patternSuffixLen rule.pattern
    match state.1 with
    | none => some (some rule, len)
    | some _ => if len > state.2 then some (some rule, len) else some state
  else some state

def resolveEditorApp (fileName : List Char) (rules : List EditorRule) (fallback : Option (List Char)) :
    Option (Option (List Char)) := do
  let best ← rules.foldlM (resolveStep tables fileName) (none, 0)
  some ((best.1.map EditorRule.appName).or fallback)

end Source

section Loop

variable {tables : CaseTables}

/-- What the signs of a rule stand for. -/
def globSigns (tables : CaseTables) : Globbing Char where
  star := '*'
  any := '?'
  separator := '/'
  same := charsEqCi tables
  same_separator := by
    intro c same
    have slash : tables.lower '/' = ['/'] := tables.lower_ascii '/' (by decide)
    rw [charsEqCi, slash, decide_eq_true_eq] at same
    exact tables.lower_slash c same
  separator_same := by
    intro c same
    have slash : tables.lower '/' = ['/'] := tables.lower_ascii '/' (by decide)
    rw [charsEqCi, slash, decide_eq_true_eq] at same
    exact tables.lower_slash c same.symm

theorem takesChar_iff {sign next : Char} : takesChar tables sign next = true ↔ sign ≠ '*' ∧
    (globSigns tables).Allows sign next := by
  unfold takesChar Globbing.Allows
  change _ ↔ sign ≠ '*' ∧ (if sign = '?' then next ≠ '/' else charsEqCi tables sign next = true)
  by_cases any : sign = '?'
  · simp [any]
  · simp [any]

/-- Since the last star every sign has taken its character. -/
def SinceStar (tables : CaseTables) (pattern text : List Char) (star : Option (List Char × List Char)) : Prop :=
  ∀ behind starText, star = some (behind, starText) → ∃ segment passed, behind = segment ++ pattern ∧ starText = passed ++ text ∧
    '*' ∉ segment ∧ List.Forall₂ (globSigns tables).Allows segment passed

/-- The last star can take more than it has. -/
def StarGoesOn (tables : CaseTables) (star : Option (List Char × List Char)) : Prop :=
  ∃ behind skipped rest, star = some (behind, skipped :: rest) ∧ skipped ≠ '/' ∧ (globSigns tables).Matches ('*' :: behind) rest

theorem starGoesOn_earlier {pattern text : List Char} {star : Option (List Char × List Char)}
    (since : SinceStar tables ('*' :: pattern) text star) (goes : StarGoesOn tables star) :
    (globSigns tables).Matches ('*' :: pattern) text := by
  obtain ⟨behind, skipped, rest, rfl, apart, found⟩ := goes
  obtain ⟨segment, passed, rfl, cut, plain, all⟩ := since _ _ rfl
  obtain ⟨more, rest, rfl, inside, found⟩ := Globbing.matches_star.mp found
  refine Globbing.matches_earliest plain all (List.cons_ne_nil skipped more) ?_ (cut.symm.trans rfl) found
  exact List.not_mem_cons_of_ne_of_not_mem apart.symm inside

theorem starGoesOn_finished {pattern : List Char} {star : Option (List Char × List Char)}
    (since : SinceStar tables pattern [] star) (goes : StarGoesOn tables star) : False := by
  obtain ⟨behind, skipped, rest, rfl, apart, found⟩ := goes
  obtain ⟨segment, passed, rfl, cut, plain, all⟩ := since _ _ rfl
  obtain ⟨more, rest, rfl, inside, found⟩ := Globbing.matches_star.mp found
  have long := Globbing.matches_length plain found
  have lengths := congrArg List.length cut
  rw [List.append_nil, List.length_cons, List.length_append, ← all.length_eq] at lengths
  omega

theorem matches_star_goes {behind text : List Char} :
    (globSigns tables).Matches ('*' :: behind) text ↔
      (globSigns tables).Matches behind text ∨ StarGoesOn tables (some (behind, text)) := by
  refine Globbing.matches_star_step.trans (or_congr_right ?_)
  constructor
  · rintro ⟨skipped, rest, rfl, apart, found⟩
    exact ⟨behind, skipped, rest, rfl, apart, found⟩
  · rintro ⟨_, skipped, rest, same, apart, found⟩
    cases same
    exact ⟨skipped, rest, rfl, apart, found⟩

theorem not_matches_stuck {pattern rest : List Char} {next : Char} (plain : pattern.head? ≠ some '*')
    (stuck : ¬(pattern.head?.any fun sign => takesChar tables sign next) = true) :
    ¬(globSigns tables).Matches pattern (next :: rest) := by
  intro found
  cases pattern with
  | nil => cases Globbing.matches_nil.mp found
  | cons sign pattern =>
    have single : sign ≠ '*' := fun star => plain (congrArg some star)
    obtain ⟨allowed, -⟩ := (Globbing.matches_single_cons single).mp found
    exact stuck (takesChar_iff.mpr ⟨single, allowed⟩)

/-- The loop ends, never leaves the text, and answers whether what is left matches or the last star can go on. -/
theorem matchGlobLoop_spec (pattern text : List Char) (star : Option (List Char × List Char))
    (since : SinceStar tables pattern text star) :
    ∃ found, matchGlobLoop tables pattern text star = some found ∧
      (found = true ↔ (globSigns tables).Matches pattern text ∨ StarGoesOn tables star) := by
  induction pattern, text, star using matchGlobLoop.induct tables with
  | case1 pattern star =>
    refine ⟨decide (pattern.dropWhile (· = '*') = []), by rw [matchGlobLoop.eq_def], ?_⟩
    rw [decide_eq_true_eq, Globbing.matches_nothing]
    exact ⟨.inl, fun either => either.resolve_right (starGoesOn_finished since)⟩
  | case2 pattern star next rest starred ih =>
    obtain ⟨behind, rfl⟩ := List.head?_eq_some_iff.mp starred
    obtain ⟨found, done, means⟩ := ih (by
      rintro _ _ ⟨⟩
      exact ⟨[], [], rfl, rfl, List.not_mem_nil, .nil⟩)
    refine ⟨found, by rw [matchGlobLoop.eq_def]; exact (if_pos starred).trans done, ?_⟩
    rw [means, List.tail_cons, ← matches_star_goes]
    exact ⟨.inl, fun either => either.elim id (starGoesOn_earlier since)⟩
  | case3 pattern star next rest plain takes ih =>
    obtain ⟨sign, first, taken⟩ := (Option.any_eq_true _ _).mp takes
    obtain ⟨behind, rfl⟩ := List.head?_eq_some_iff.mp first
    obtain ⟨single, allowed⟩ := takesChar_iff.mp taken
    obtain ⟨found, done, means⟩ := ih (by
      intro whole starText is
      obtain ⟨segment, passed, rfl, rfl, noStar, all⟩ := since whole starText is
      refine ⟨segment ++ [sign], passed ++ [next], by simp, by simp, ?_, List.rel_append all (.cons allowed .nil)⟩
      rw [List.mem_append, List.mem_singleton]
      exact fun either => either.elim noStar fun same => single same.symm)
    refine ⟨found, by rw [matchGlobLoop.eq_def]; exact (if_neg plain).trans ((if_pos takes).trans done), ?_⟩
    rw [means, Globbing.matches_single_cons single]
    exact or_congr_left ⟨fun found => ⟨allowed, found⟩, fun both => both.2⟩
  | case4 pattern next rest plain stuck =>
    refine ⟨false, by rw [matchGlobLoop.eq_def]; exact (if_neg plain).trans (if_neg stuck), ?_⟩
    simp [not_matches_stuck plain stuck, StarGoesOn]
  | case5 pattern next rest plain stuck behind =>
    obtain ⟨segment, passed, -, cut, -⟩ := since behind [] rfl
    simp at cut
  | case6 pattern next rest plain stuck behind starText =>
    refine ⟨false, by rw [matchGlobLoop.eq_def]; exact (if_neg plain).trans ((if_neg stuck).trans (if_pos rfl)), ?_⟩
    simp [not_matches_stuck plain stuck, StarGoesOn]
  | case7 pattern next rest plain stuck behind skipped starText inside ih =>
    obtain ⟨found, done, means⟩ := ih (by
      rintro _ _ ⟨⟩
      exact ⟨[], [], rfl, rfl, List.not_mem_nil, .nil⟩)
    refine ⟨found, by rw [matchGlobLoop.eq_def]; exact (if_neg plain).trans ((if_neg stuck).trans ((if_neg inside).trans done)), ?_⟩
    rw [means, ← matches_star_goes]
    constructor
    · intro found
      exact .inr ⟨behind, skipped, starText, rfl, inside, found⟩
    · rintro (found | ⟨_, _, _, same, -, found⟩)
      · exact absurd found (not_matches_stuck plain stuck)
      · cases same
        exact found

theorem matchGlob_spec (tables : CaseTables) (pattern text : List Char) :
    ∃ found, matchGlob tables pattern text = some found ∧ (found = true ↔ (globSigns tables).Matches pattern text) := by
  obtain ⟨found, done, means⟩ := @matchGlobLoop_spec tables pattern text none fun _ _ is => nomatch is
  refine ⟨found, done, means.trans (or_iff_left ?_)⟩
  rintro ⟨_, _, _, is, -⟩
  cases is

end Loop

section Rules

variable {tables : CaseTables} {fileName : List Char}

theorem matches_some (rule : EditorRule) (fileName : List Char) :
    rule.matches tables fileName = some (decide (rule.matches tables fileName = some true)) := by
  obtain ⟨found, done, -⟩ := matchGlob_spec tables rule.pattern fileName
  rw [EditorRule.matches, done]
  cases found <;> rfl

/-- The best rule so far, with the length that is kept beside it. -/
def KeptLength (state : Option EditorRule × Nat) : Prop := ∀ best, state.1 = some best → state.2 = patternSuffixLen best.pattern

theorem resolveStep_longer {state : Option EditorRule × Nat} (kept : KeptLength state) (rule : EditorRule) :
    ∃ next, resolveStep tables fileName state rule = some next ∧ KeptLength next ∧
      next.1 = longer (fun rule => patternSuffixLen rule.pattern) state.1
        (if decide (rule.matches tables fileName = some true) then some rule else none) := by
  unfold resolveStep
  rw [matches_some]
  cases decide (rule.matches tables fileName = some true) with
  | false => exact ⟨state, rfl, kept, (longer_none _).symm⟩
  | true =>
    obtain ⟨best, length⟩ := state
    cases best with
    | none =>
      refine ⟨(some rule, patternSuffixLen rule.pattern), rfl, ?_, rfl⟩
      rintro _ ⟨⟩
      rfl
    | some best =>
      have known : length = patternSuffixLen best.pattern := kept best rfl
      subst known
      by_cases better : patternSuffixLen rule.pattern > patternSuffixLen best.pattern
      · refine ⟨(some rule, patternSuffixLen rule.pattern), if_pos better, ?_, (if_pos better).symm⟩
        rintro _ ⟨⟩
        rfl
      · exact ⟨(some best, patternSuffixLen best.pattern), if_neg better, kept, (if_neg better).symm⟩

theorem resolveLoop (rules : List EditorRule) {state : Option EditorRule × Nat} (kept : KeptLength state) :
    ∃ last, rules.foldlM (resolveStep tables fileName) state = some last ∧
      last.1 = longer (fun rule => patternSuffixLen rule.pattern) state.1
        (firstLongest (fun rule => patternSuffixLen rule.pattern) (fun rule =>
          rule.matches tables fileName = some true) rules) := by
  induction rules generalizing state with
  | nil => exact ⟨state, rfl, (longer_none _).symm⟩
  | cons rule rest ih =>
    obtain ⟨next, step, kept, better⟩ := @resolveStep_longer tables fileName _ kept rule
    obtain ⟨last, run, best⟩ := ih kept
    refine ⟨last, ?_, ?_⟩
    · rw [List.foldlM_cons, step]
      exact run
    · rw [best, better, longer_assoc]
      rfl

/-- A rule matches the names that its pattern can be cut along, and the first rule that matches after the sort is taken. -/
theorem editor_rules_exact (tables : CaseTables) :
    (∀ pattern text, ∃ found, matchGlob tables pattern text = some found ∧
      (found = true ↔ (globSigns tables).Matches pattern text)) ∧
      ∀ fileName rules fallback, resolveEditorApp tables fileName rules fallback =
        some ((((sortEditorRules rules).find? fun rule => rule.matches tables fileName = some true).map
          EditorRule.appName).or fallback) := by
  refine ⟨matchGlob_spec tables, ?_⟩
  intro fileName rules fallback
  have start : KeptLength (none, 0) := by
    rintro _ ⟨⟩
  obtain ⟨last, run, best⟩ := @resolveLoop tables fileName rules _ start
  have sorted := @find_sorted _ (fun rule : EditorRule => patternSuffixLen rule.pattern)
    (fun rule => rule.matches tables fileName = some true) rules
  unfold resolveEditorApp
  rw [run, sortEditorRules, sorted]
  exact congrArg (fun best => some ((Option.map EditorRule.appName best).or fallback)) best

/-- Tables that know of no letters beyond ASCII. -/
def asciiTables : CaseTables where
  lower c := if c.toNat < 128 then [c.toLower] else [c]
  cased c := c.isAlpha
  caseIgnorable _ := false
  lower_ascii _ ascii := if_pos ascii
  lower_slash := by
    intro c slash
    split_ifs at slash with ascii
    · have each : ∀ n < 128, (Char.ofNat n).toLower = '/' → Char.ofNat n = '/' := by decide
      have its := each c.toNat ascii
      rw [Char.ofNat_toNat] at its
      exact its (List.singleton_inj.mp slash)
    · exact List.singleton_inj.mp slash
  sigma_counts := rfl

example : resolveEditorApp asciiTables "A.T".toList [⟨"*".toList, "any".toList⟩, ⟨"?.t".toList, "text".toList⟩] none =
    some (some "text".toList) := by
  simp [resolveEditorApp, resolveStep, EditorRule.matches, matchGlob, matchGlobLoop, takesChar, charsEqCi, asciiTables,
    patternSuffixLen, Char.utf8Size]

end Rules

end MacSftp
