import MacSftp.Panes.Visible
import MacSftp.Lib.CaseMapping

namespace MacSftp.Panes

open Lib

/-- `char::to_lowercase` and `str::to_lowercase` of one version of the Unicode tables. -/
def unicodeFolding (tables : CaseTables) : CaseFolding where
  char := tables.lower
  text := tables.lowercase

theorem ascii_induction {P : Char → Prop} (every : ∀ n < 128, P (Char.ofNat n)) {c : Char} (ascii : c.toNat < 128) : P c := by
  have here := every c.toNat ascii
  rwa [Char.ofNat_toNat] at here

theorem asciiLower_toLower {c : Char} (ascii : c.toNat < 128) : asciiLower c = c.toLower :=
  ascii_induction (P := fun c => asciiLower c = c.toLower) (by decide) ascii

theorem toLower_slash {c : Char} (ascii : c.toNat < 128) : c.toLower = '/' → c = '/' :=
  ascii_induction (P := fun c => c.toLower = '/' → c = '/') (by decide) ascii

section OwnText

variable (folding : CaseFolding)

/-- A name is found by everything that stands in it, and by everything that it begins with. -/
def FoundByOwnText (name : List Char) : Prop :=
  (∀ query, query <:+: name → queryMatches folding query name = true) ∧
    ∀ typed, typed ≠ [] → typed <+: name → prefixMatches folding typed name = true

variable {folding} {name part : List Char}

theorem isAscii_part (inside : part <:+: name) (ascii : isAscii name = true) : isAscii part = true := by
  rw [isAscii, List.all_eq_true] at ascii ⊢
  exact fun c mem => ascii c (inside.subset mem)

theorem eqIgnoreAsciiCase_refl (text : List Char) : eqIgnoreAsciiCase text text = true := decide_eq_true rfl

/-- The windows of a plain name hold each of its parts. -/
theorem queryMatches_ascii (ascii : isAscii name = true) (inside : part <:+: name) : queryMatches folding part name = true := by
  unfold queryMatches
  split_ifs with empty plain
  · rfl
  · obtain ⟨front, back, rfl⟩ := inside
    refine List.any_eq_true.mpr ⟨part ++ back, ?_, ?_⟩
    · rw [List.append_assoc]
      exact (List.mem_tails _ _).mpr (List.suffix_append _ _)
    · rw [List.take_left]
      simp [eqIgnoreAsciiCase_refl]
  · exact absurd ⟨isAscii_part inside ascii, ascii⟩ plain

theorem prefixMatches_ascii (ascii : isAscii name = true) (some_ : part ≠ []) (begins : part <+: name) :
    prefixMatches folding part name = true := by
  unfold prefixMatches
  rw [if_neg some_, if_pos ⟨isAscii_part begins.isInfix ascii, ascii⟩]
  obtain ⟨back, rfl⟩ := begins
  rw [List.take_left]
  simp [eqIgnoreAsciiCase_refl]

theorem queryMatches_unicode (unicode : isAscii name ≠ true) (some_ : part ≠ []) :
    queryMatches folding part name = true ↔ folding.text part <:+: folding.text name := by
  unfold queryMatches
  rw [if_neg some_, if_neg fun both => unicode both.2, decide_eq_true_eq]

theorem prefixMatches_unicode (unicode : isAscii name ≠ true) (some_ : part ≠ []) :
    prefixMatches folding part name = true ↔ folding.text part <+: folding.text name := by
  unfold prefixMatches
  rw [if_neg some_, if_neg fun both => unicode both.2, decide_eq_true_eq]

end OwnText

variable {tables : CaseTables} {name : List Char}

theorem no_sigma {u v : List Char} (ascii : isAscii name = true) : name ≠ u ++ 'Σ' :: v := by
  rintro rfl
  rw [isAscii, List.all_eq_true] at ascii
  exact absurd (ascii 'Σ' (by simp)) (by decide)

/-- Which names are found by all of their own text. -/
theorem found_by_own_text_iff (tables : CaseTables) (name : List Char) :
    FoundByOwnText (unicodeFolding tables) name ↔ tables.SigmasStable name := by
  by_cases ascii : isAscii name = true
  · constructor
    · intro _
      exact ⟨fun u v cut => absurd cut (no_sigma ascii), fun u v cut => absurd cut (no_sigma ascii)⟩
    · intro _
      exact ⟨fun query inside => queryMatches_ascii ascii inside, fun typed some_ begins => prefixMatches_ascii ascii some_ begins⟩
  · rw [CaseTables.sigmasStable_iff]
    constructor
    · rintro ⟨queries, typed⟩
      constructor
      · intro part inside
        by_cases empty : part = []
        · rw [empty]
          exact List.nil_infix
        · exact (queryMatches_unicode ascii empty).mp (queries part inside)
      · intro front begins
        by_cases empty : front = []
        · rw [empty]
          exact List.nil_prefix
        · exact (prefixMatches_unicode ascii empty).mp (typed front empty begins)
    · rintro ⟨parts, fronts⟩
      constructor
      · intro query inside
        by_cases empty : query = []
        · rw [empty]
          exact queryMatches_empty _ _
        · exact (queryMatches_unicode ascii empty).mpr (parts query inside)
      · intro typed some_ begins
        exact (prefixMatches_unicode ascii some_).mpr (fronts typed begins)

section Greek

def isGreekCapital (c : Char) : Bool := 0x391 ≤ c.toNat ∧ c.toNat ≤ 0x3A9 ∧ c.toNat ≠ 0x3A2

/-- The rows of the tables for ASCII and for the Greek letters without accents. -/
def greekTables : CaseTables where
  lower c := if c.toNat < 128 then [c.toLower] else if isGreekCapital c then [Char.ofNat (c.toNat + 32)] else [c]
  cased c := c.isAlpha || isGreekCapital c || (0x3B1 ≤ c.toNat && c.toNat ≤ 0x3C9)
  caseIgnorable c := c ∈ ['\'', '.', ':', '^', Char.ofNat 0x60]
  lower_ascii := fun c ascii => if_pos ascii
  lower_slash := by
    intro c slash
    split_ifs at slash with ascii greek
    · exact toLower_slash ascii (List.singleton_inj.mp slash)
    · simp only [isGreekCapital, decide_eq_true_eq] at greek
      have letters : ∀ n < 25, Char.ofNat (0x391 + n + 32) ≠ '/' := by decide
      have code : 0x391 + (c.toNat - 0x391) = c.toNat := by omega
      have letter := letters (c.toNat - 0x391) (by omega)
      rw [code] at letter
      exact absurd (List.singleton_inj.mp slash) letter
    · exact List.singleton_inj.mp slash
  sigma_counts := by decide

/-- A name of three letters is not found by the first two of them. -/
theorem medial_sigma_lost : ¬∀ name, FoundByOwnText (unicodeFolding greekTables) name := by
  intro every
  exact absurd ((every "ΑΣΑ".toList).1 "ΑΣ".toList ⟨[], ['Α'], rfl⟩) (by decide +kernel)

end Greek

end MacSftp.Panes
