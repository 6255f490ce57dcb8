import Mathlib.Data.List.Infix
import Mathlib.Data.List.TakeWhile

namespace MacSftp.Lib

/-- What lower-casing reads of a version of the Unicode tables, with what every version promises of it. -/
structure CaseTables where
  lower : Char → List Char
  cased : Char → Bool
  caseIgnorable : Char → Bool
  lower_ascii : ∀ c : Char, c.toNat < 128 → lower c = [c.toLower]
  lower_slash : ∀ c : Char, lower c = ['/'] → c = '/'
  sigma_counts : caseIgnorable 'Σ' = false

namespace CaseTables

variable (tables : CaseTables)

/-- The first character that is not case-ignorable is cased. -/
def casedNext (text : List Char) : Bool :=
  match text.dropWhile tables.caseIgnorable with
  | [] => false
  | c :: _ => tables.cased c

/-- The lower case of a capital sigma between two texts, the one before it read backwards: at the end of a word another one. -/
def lowerSigma (before after : List Char) : Char :=
  if tables.casedNext before ∧ tables.casedNext after = false then 'ς' else 'σ'

/-- The lower case of a part of a text, between what is before it, read backwards, and what is after it. -/
def lowerWithin (before after : List Char) : List Char → List Char
  | [] => []
  | c :: rest =>
    (if c = 'Σ' then [tables.lowerSigma before (rest ++ after)] else tables.lower c) ++ lowerWithin (c :: before) after rest

def lowercase (text : List Char) : List Char := tables.lowerWithin [] [] text

variable {tables} {before after text : List Char}

theorem casedNext_ignored {ignored : List Char} (all : ∀ c ∈ ignored, tables.caseIgnorable c = true) (rest : List Char) :
    tables.casedNext (ignored ++ rest) = tables.casedNext rest := by
  unfold casedNext
  rw [List.dropWhile_append_of_pos all]

theorem casedNext_none {ignored : List Char} (all : ∀ c ∈ ignored, tables.caseIgnorable c = true) :
    tables.casedNext ignored = false := by
  have rest := casedNext_ignored all []
  rw [List.append_nil] at rest
  exact rest

theorem casedNext_stop {c : Char} (counts : tables.caseIgnorable c = false) (front rest : List Char) :
    tables.casedNext (front ++ c :: rest) = tables.casedNext (front ++ [c]) := by
  unfold casedNext
  rw [List.dropWhile_append, List.dropWhile_append]
  split_ifs with ignored
  · rw [List.dropWhile_cons_of_neg (by simp [counts]), List.dropWhile_cons_of_neg (by simp [counts])]
  · cases cut : front.dropWhile tables.caseIgnorable with
    | nil => simp [cut] at ignored
    | cons d tail => rfl

theorem casedNext_mono {front : List Char} (found : tables.casedNext front = true) (rest : List Char) :
    tables.casedNext (front ++ rest) = true := by
  unfold casedNext at found ⊢
  rw [List.dropWhile_append]
  cases cut : front.dropWhile tables.caseIgnorable with
  | nil => simp [cut] at found
  | cons d tail =>
    rw [cut] at found
    simpa using found

@[simp] theorem lowerWithin_nil : tables.lowerWithin before after [] = [] := rfl

theorem lowerWithin_cons {c : Char} (plain : c ≠ 'Σ') :
    tables.lowerWithin before after (c :: text) = tables.lower c ++ tables.lowerWithin (c :: before) after text := by
  rw [lowerWithin, if_neg plain]

theorem lowerWithin_sigma :
    tables.lowerWithin before after ('Σ' :: text) =
      tables.lowerSigma before (text ++ after) :: tables.lowerWithin ('Σ' :: before) after text := by
  rw [lowerWithin, if_pos rfl]
  rfl

theorem lowerWithin_append (first second : List Char) :
    tables.lowerWithin before after (first ++ second) =
      tables.lowerWithin before (second ++ after) first ++ tables.lowerWithin (first.reverse ++ before) after second := by
  induction first generalizing before with
  | nil => rfl
  | cons c rest ih =>
    rw [List.cons_append, lowerWithin, ih, lowerWithin, List.append_assoc, List.append_assoc, List.reverse_cons, List.append_assoc]
    rfl

/-- A sigma has one letter in each of its places, so that the context never moves what follows. -/
theorem lowerWithin_length (before after before' after' text : List Char) :
    (tables.lowerWithin before after text).length = (tables.lowerWithin before' after' text).length := by
  induction text generalizing before before' with
  | nil => rfl
  | cons c rest ih =>
    by_cases sigma : c = 'Σ'
    · subst sigma
      rw [lowerWithin_sigma, lowerWithin_sigma, List.length_cons, List.length_cons, ih ('Σ' :: before) ('Σ' :: before')]
    · rw [lowerWithin_cons sigma, lowerWithin_cons sigma, List.length_append, List.length_append, ih (c :: before) (c :: before')]

theorem lowerWithin_congr {before' after' : List Char}
    (same : ∀ u v, text = u ++ 'Σ' :: v →
      tables.lowerSigma (u.reverse ++ before) (v ++ after) = tables.lowerSigma (u.reverse ++ before') (v ++ after')) :
    tables.lowerWithin before after text = tables.lowerWithin before' after' text := by
  induction text generalizing before before' with
  | nil => rfl
  | cons c rest ih =>
    have later : tables.lowerWithin (c :: before) after rest = tables.lowerWithin (c :: before') after' rest := by
      apply ih
      rintro u v rfl
      simpa using same (c :: u) v rfl
    by_cases sigma : c = 'Σ'
    · subst sigma
      rw [lowerWithin_sigma, lowerWithin_sigma, later]
      exact congrArg (· :: _) (same [] rest rfl)
    · rw [lowerWithin_cons sigma, lowerWithin_cons sigma, later]

theorem lowerSigma_initial (initial : tables.casedNext before = false) : tables.lowerSigma before after = 'σ' := by
  rw [lowerSigma, if_neg]
  simp [initial]

theorem lowerSigma_medial (medial : tables.casedNext after = true) : tables.lowerSigma before after = 'σ' := by
  rw [lowerSigma, if_neg]
  simp [medial]

theorem lowerSigma_final (preceded : tables.casedNext before = true) (final : tables.casedNext after = false) :
    tables.lowerSigma before after = 'ς' := if_pos ⟨preceded, final⟩

section Parts

/-- The end of a text from a sigma on, and from the case-ignorable characters right before it, as it is lowered without the
letters in front of them. -/
def readAlone (tables : CaseTables) (before rest : List Char) : List Char :=
  tables.lowerWithin [] ('Σ' :: rest) (before.takeWhile tables.caseIgnorable).reverse ++
    'σ' :: tables.lowerWithin ('Σ' :: before) [] rest

/-- No capital sigma stands between letters, and what begins with one that ends a word is also found without that word. -/
structure SigmasStable (tables : CaseTables) (text : List Char) : Prop where
  apart : ∀ u v, text = u ++ 'Σ' :: v → tables.casedNext u.reverse = true → tables.casedNext v = false
  alone : ∀ u v, text = u ++ 'Σ' :: v → tables.casedNext u.reverse = true → tables.readAlone u.reverse v <:+: tables.lowercase text

variable {ignored front rest : List Char}

theorem lowerWithin_after_sigma (front back before' : List Char) :
    tables.lowerWithin (front ++ 'Σ' :: before) after back = tables.lowerWithin (front ++ 'Σ' :: before') after back := by
  apply lowerWithin_congr
  intro u v _
  unfold lowerSigma
  rw [← List.append_assoc, ← List.append_assoc, casedNext_stop tables.sigma_counts, casedNext_stop tables.sigma_counts _ before']

theorem lowercase_alone (all : ∀ c ∈ ignored, tables.caseIgnorable c = true) (before rest : List Char) :
    tables.lowercase (ignored ++ 'Σ' :: rest) =
      tables.lowerWithin [] ('Σ' :: rest) ignored ++ 'σ' :: tables.lowerWithin ('Σ' :: before) [] rest := by
  have unread : tables.casedNext (ignored.reverse ++ []) = false := by
    rw [List.append_nil]
    exact casedNext_none fun c mem => all c (List.mem_reverse.mp mem)
  rw [lowercase, lowerWithin_append, lowerWithin_sigma, lowerSigma_initial unread, List.append_nil]
  exact congrArg (fun tail => _ ++ 'σ' :: tail) (lowerWithin_after_sigma [] rest before)

theorem lowercase_readAlone (before rest : List Char) :
    tables.lowercase ((before.takeWhile tables.caseIgnorable).reverse ++ 'Σ' :: rest) = tables.readAlone before rest := by
  apply lowercase_alone
  intro c mem
  exact List.mem_takeWhile_imp (List.mem_reverse.mp mem)

theorem lowercase_beginning {front rest : List Char}
    (apart : ∀ u v, front ++ rest = u ++ 'Σ' :: v → tables.casedNext u.reverse = true → tables.casedNext v = false) :
    tables.lowercase front <+: tables.lowercase (front ++ rest) := by
  have same : tables.lowerWithin [] [] front = tables.lowerWithin [] (rest ++ []) front := by
    apply lowerWithin_congr
    rintro u v rfl
    rw [List.append_nil, List.append_nil, List.append_nil]
    cases preceded : tables.casedNext u.reverse with
    | false => rw [lowerSigma_initial preceded, lowerSigma_initial preceded]
    | true =>
      have behind : tables.casedNext (v ++ rest) = false := apart u (v ++ rest) (by simp) preceded
      have within : tables.casedNext v = false := by
        by_contra found
        rw [Bool.not_eq_false] at found
        rw [casedNext_mono found rest] at behind
        cases behind
      rw [lowerSigma_final preceded within, lowerSigma_final preceded behind]
  rw [lowercase, lowercase, lowerWithin_append, same]
  exact List.prefix_append _ _

theorem lowerWithin_end (tables : CaseTables) (before text : List Char) :
    tables.lowerWithin before [] text = tables.lowercase text ∨
      ∃ ignored rest, text = ignored ++ 'Σ' :: rest ∧ (∀ c ∈ ignored, tables.caseIgnorable c = true) ∧
        tables.casedNext (ignored.reverse ++ before) = true := by
  by_cases alone : ∃ ignored rest, text = ignored ++ 'Σ' :: rest ∧ (∀ c ∈ ignored, tables.caseIgnorable c = true) ∧
      tables.casedNext (ignored.reverse ++ before) = true
  · exact .inr alone
  · left
    apply lowerWithin_congr
    intro u v cut
    have same : tables.casedNext (u.reverse ++ before) = tables.casedNext (u.reverse ++ []) := by
      by_cases all : ∀ c ∈ u, tables.caseIgnorable c = true
      · have nothing : tables.casedNext (u.reverse ++ []) = false := by
          rw [List.append_nil]
          exact casedNext_none fun c mem => all c (List.mem_reverse.mp mem)
        rw [nothing, ← Bool.not_eq_true]
        exact fun found => alone ⟨u, v, cut, all, found⟩
      · push Not at all
        obtain ⟨c, mem, counts⟩ := all
        obtain ⟨x, y, split⟩ := List.append_of_mem (List.mem_reverse.mpr mem)
        have stops : tables.caseIgnorable c = false := Bool.not_eq_true _ ▸ counts
        rw [split, List.append_assoc, List.append_assoc]
        exact (casedNext_stop stops x _).trans (casedNext_stop stops x _).symm
    unfold lowerSigma
    rw [same]

theorem lowercase_end {front back : List Char} (stable : tables.SigmasStable (front ++ back)) :
    tables.lowercase back <:+: tables.lowercase (front ++ back) := by
  rcases lowerWithin_end tables front.reverse back with same | ⟨ignored, rest, cut, all, preceded⟩
  · rw [lowercase, lowercase, lowerWithin_append, List.append_nil, List.append_nil, same]
    exact (List.suffix_append _ _).isInfix
  · rw [← List.reverse_append] at preceded
    have found := stable.alone (front ++ ignored) rest (by rw [cut, List.append_assoc]) preceded
    refine List.IsInfix.trans ?_ found
    rw [← lowercase_readAlone, List.reverse_append,
      List.takeWhile_append_of_pos fun c mem => all c (List.mem_reverse.mp mem), List.reverse_append, List.reverse_reverse,
      List.append_assoc, ← cut, lowercase, lowercase, lowerWithin_append]
    rcases lowerWithin_end tables ((front.reverse.takeWhile tables.caseIgnorable).reverse.reverse ++ []) back with
      same | ⟨more, _, _, allMore, preceded⟩
    · rw [same]
      exact (List.suffix_append _ _).isInfix
    · rw [List.append_nil, List.reverse_reverse, casedNext_none] at preceded
      · cases preceded
      · intro c mem
        rcases List.mem_append.mp mem with mem | mem
        · exact allMore c (List.mem_reverse.mp mem)
        · exact List.mem_takeWhile_imp mem

theorem sigmasStable_iff (tables : CaseTables) (text : List Char) :
    tables.SigmasStable text ↔
      (∀ part, part <:+: text → tables.lowercase part <:+: tables.lowercase text) ∧
        ∀ front, front <+: text → tables.lowercase front <+: tables.lowercase text := by
  constructor
  · intro stable
    constructor
    · rintro part ⟨front, back, rfl⟩
      rw [List.append_assoc] at stable ⊢
      refine List.IsInfix.trans (lowercase_beginning ?_).isInfix (lowercase_end stable)
      intro u v cut preceded
      refine stable.apart (front ++ u) v (by rw [cut, List.append_assoc]) ?_
      rw [List.reverse_append]
      exact casedNext_mono preceded _
    · rintro front ⟨rest, rfl⟩
      exact lowercase_beginning stable.apart
  · rintro ⟨parts, fronts⟩
    constructor
    · rintro u v rfl preceded
      by_contra medial
      rw [Bool.not_eq_false] at medial
      obtain ⟨tail, whole⟩ := fronts (u ++ ['Σ']) ⟨v, by simp⟩
      rw [lowercase, lowercase, lowerWithin_append, lowerWithin_append, lowerWithin_sigma, lowerWithin_sigma,
        List.append_assoc] at whole
      have letters := (List.append_inj whole (lowerWithin_length _ _ _ _ u)).2
      simp only [List.append_nil, List.cons_append, List.cons.injEq] at letters
      rw [lowerSigma_medial medial, lowerSigma_final preceded rfl] at letters
      exact absurd letters.1 (by decide)
    · rintro u v rfl preceded
      rw [← lowercase_readAlone]
      apply parts
      have suffix : (u.reverse.takeWhile tables.caseIgnorable).reverse <:+ u := by
        rw [← List.reverse_prefix, List.reverse_reverse]
        exact List.takeWhile_prefix _
      obtain ⟨front, cut⟩ := suffix
      exact ⟨front, [], by rw [← List.append_assoc, cut, List.append_nil]⟩

end Parts

end CaseTables

end MacSftp.Lib
