import MacSftp.Lib.Filtering
import MacSftp.Panes.Workspace

namespace MacSftp.Panes

open Lib

/-- What lower-casing does to ASCII texts, whatever the Unicode tables say of other characters. -/
def CaseFolding.LowersAscii (folding : CaseFolding) : Prop :=
  ∀ text, isAscii text = true → folding.text text = text.map asciiLower

/-- The matchers without their ASCII paths. -/
def slowQueryMatches (folding : CaseFolding) (query name : List Char) : Bool :=
  query = [] || folding.text query <:+: folding.text name

def slowPrefixMatches (folding : CaseFolding) (typed name : List Char) : Bool :=
  typed ≠ [] && folding.text typed <+: folding.text name

/-- The loop of `visible_index_of_path`, with the row it has come to. -/
def visibleIndexLoop (folding : CaseFolding) (showHidden : Bool) (query path : List Char) : List FileEntry → Nat → Option Nat
  | [], _ => none
  | entry :: entries, visibleIndex =>
    if !showHidden && isDotfile entry.name then visibleIndexLoop folding showHidden query path entries visibleIndex
    else if query ≠ [] ∧ queryMatches folding query entry.name = false then
      visibleIndexLoop folding showHidden query path entries visibleIndex
    else if entry.path = path then some visibleIndex
    else visibleIndexLoop folding showHidden query path entries (visibleIndex + 1)

theorem prefix_take {α : Type} [DecidableEq α] (l m : List α) : l <+: m ↔ l.length ≤ m.length ∧ m.take l.length = l := by
  rw [List.prefix_iff_eq_take]
  constructor
  · intro same
    refine ⟨?_, same.symm⟩
    have short := congrArg List.length same
    rw [List.length_take] at short
    omega
  · exact fun both => both.2.symm

theorem infix_tails {α β : Type} (f : α → β) (l : List β) (m : List α) :
    l <:+: m.map f ↔ ∃ tail ∈ m.tails, l <+: tail.map f := by
  rw [List.infix_iff_prefix_suffix]
  constructor
  · rintro ⟨t, starts, front, ends⟩
    obtain ⟨before, after, rfl, rfl, rfl⟩ := List.map_eq_append_iff.mp ends.symm
    exact ⟨after, (List.mem_tails after (before ++ after)).mpr (List.suffix_append before after), starts⟩
  · rintro ⟨tail, listed, starts⟩
    exact ⟨tail.map f, starts, ((List.mem_tails tail m).mp listed).map f⟩

theorem queryMatches_slow {folding : CaseFolding} (lowers : folding.LowersAscii) (query name : List Char) :
    queryMatches folding query name = slowQueryMatches folding query name := by
  unfold queryMatches slowQueryMatches
  split_ifs with empty ascii
  · simp [empty]
  · rw [lowers query ascii.1, lowers name ascii.2, Bool.eq_iff_iff]
    simp only [List.any_eq_true, empty, decide_false, Bool.false_or, decide_eq_true_eq]
    rw [infix_tails]
    apply exists_congr
    intro tail
    rw [prefix_take, List.length_map, List.length_map, ← List.map_take, eqIgnoreAsciiCase, decide_eq_true_eq]
  · simp [empty]

theorem prefixMatches_slow {folding : CaseFolding} (lowers : folding.LowersAscii) (typed name : List Char) :
    prefixMatches folding typed name = slowPrefixMatches folding typed name := by
  unfold prefixMatches slowPrefixMatches
  split_ifs with empty ascii
  · simp [empty]
  · rw [lowers typed ascii.1, lowers name ascii.2, Bool.eq_iff_iff]
    simp only [empty, ne_eq, not_false_eq_true, decide_true, Bool.true_and, decide_eq_true_eq]
    rw [prefix_take, List.length_map, List.length_map, ← List.map_take, eqIgnoreAsciiCase, decide_eq_true_eq]
  · simp [empty]

section

variable {folding : CaseFolding} {showHidden : Bool} {query : List Char}

theorem visibleName_query (name : List Char) : (!(!showHidden && isDotfile name) && queryMatches folding query name) =
    visibleName folding showHidden query name := by
  rw [visibleName, Bool.not_and, Bool.not_not]

theorem visibleName_all (name : List Char) : visibleName folding true [] name = true := by
  simp [visibleName, queryMatches_empty]

theorem visibleName_plain (name : List Char) : visibleName folding false [] name = !isDotfile name := by
  simp [visibleName, queryMatches_empty]

theorem visibleIndices_eq (names : List (List Char)) :
    visibleIndices folding names showHidden query = positions (visibleName folding showHidden query) names := by
  unfold visibleIndices
  split_ifs with empty all
  · subst empty all
    exact (positions_all fun name _ => visibleName_all name).symm
  · subst empty
    rw [Bool.not_eq_true] at all
    subst all
    exact positions_congr fun name _ => (visibleName_plain name).symm
  · exact positions_congr fun name _ => visibleName_query name

theorem countVisible_eq (names : List (List Char)) :
    countVisible folding names showHidden query = (visibleIndices folding names showHidden query).length := by
  rw [visibleIndices_eq, length_positions]
  unfold countVisible
  split_ifs with empty all
  · subst empty all
    rw [List.filter_eq_self.mpr fun name _ => visibleName_all name]
  · subst empty
    rw [Bool.not_eq_true] at all
    subst all
    exact congrArg List.length (List.filter_congr fun name _ => (visibleName_plain name).symm)
  · rfl

theorem realIndexAt_eq (names : List (List Char)) (visibleIndex : Nat) :
    realIndexAt folding names visibleIndex showHidden query = (visibleIndices folding names showHidden query)[visibleIndex]? := by
  unfold realIndexAt visibleIndices
  split_ifs with empty all inside
  · rw [List.getElem?_range inside]
  · rw [List.getElem?_eq_none (by simpa using inside)]
  · rfl
  · congr 1
    exact positions_congr fun name _ => (visibleName_query name).symm

theorem visibleIndexLoop_eq (path : List Char) (entries : List FileEntry) (visibleIndex : Nat) :
    visibleIndexLoop folding showHidden query path entries visibleIndex =
      ((entries.filter fun entry => visibleName folding showHidden query entry.name).findIdx? fun entry => entry.path = path).map
        (· + visibleIndex) := by
  induction entries generalizing visibleIndex with
  | nil => rfl
  | cons entry entries ih =>
    unfold visibleIndexLoop
    split_ifs with hidden unmatched same
    · have skipped : visibleName folding showHidden query entry.name = false := by
        rw [← visibleName_query, hidden, Bool.not_true, Bool.false_and]
      rw [List.filter_cons_of_neg (by simp [skipped]), ih]
    · have skipped : visibleName folding showHidden query entry.name = false := by
        rw [visibleName, unmatched.2, Bool.and_false]
      rw [List.filter_cons_of_neg (by simp [skipped]), ih]
    all_goals
      have shown : visibleName folding showHidden query entry.name = true := by
        rw [← visibleName_query]
        by_cases empty : query = []
        · simp [hidden, empty, queryMatches_empty]
        · simp [hidden, empty] at unmatched ⊢
          exact unmatched
      rw [List.filter_cons_of_pos (by exact shown), List.findIdx?_cons]
    · simp [same]
    · rw [ih, if_neg (by simpa using same), Option.map_map]
      congr 1
      funext row
      simp only [Function.comp_apply]
      omega

theorem firstPrefixMatch_eq (names : List (List Char)) (start : Nat) (typed : List Char) :
    firstPrefixMatch folding names start typed =
      ((List.range names.length).rotate (start % names.length)).find? fun index =>
        prefixMatches folding typed (names[index]?.getD []) := by
  unfold firstPrefixMatch
  split_ifs with none_
  · symm
    rw [List.find?_eq_none]
    intro index listed
    rcases none_ with rfl | rfl
    · simp at listed
    · simp [prefixMatches]
  · rw [range_rotate]

/-- The workspace finds a row by the loop over the entries of its active tab. -/
theorem visibleIndexOfPath_loop (s : Workspace) (side : PaneSide) (entry : FileEntry) :
    s.visibleIndexOfPath folding side (entryPath side entry) = s.activePanes.bind fun panes =>
      visibleIndexLoop folding s.showHidden (s.filterQuery side) entry.path (panes.entries side) 0 := by
  unfold Workspace.visibleIndexOfPath
  congr 1
  funext panes
  rw [visibleIndexLoop_eq]
  simp only [Nat.add_zero, Option.map_id']
  congr 1
  funext other
  cases side <;> simp [entryPath]

end

/-- The rows of a pane and the stored entries, as the four functions relate them. -/
structure RowsConsistent (folding : CaseFolding) (showHidden : Bool) (query : List Char) (entries : List FileEntry) : Prop where
  sorted : (visibleIndices folding (entries.map FileEntry.name) showHidden query).Pairwise (· < ·)
  exact_ : ∀ index, index ∈ visibleIndices folding (entries.map FileEntry.name) showHidden query ↔
    ∃ entry, entries[index]? = some entry ∧ (showHidden = true ∨ isDotfile entry.name = false) ∧
      slowQueryMatches folding query entry.name = true
  count : countVisible folding (entries.map FileEntry.name) showHidden query =
    (visibleIndices folding (entries.map FileEntry.name) showHidden query).length
  real : ∀ row, realIndexAt folding (entries.map FileEntry.name) row showHidden query =
    (visibleIndices folding (entries.map FileEntry.name) showHidden query)[row]?
  row : (entries.map FileEntry.path).Nodup → ∀ row index entry,
    (visibleIndices folding (entries.map FileEntry.name) showHidden query)[row]? = some index → entries[index]? = some entry →
      visibleIndexLoop folding showHidden query entry.path entries 0 = some row
  hidden : (entries.map FileEntry.path).Nodup → ∀ index entry, entries[index]? = some entry →
    index ∉ visibleIndices folding (entries.map FileEntry.name) showHidden query →
      visibleIndexLoop folding showHidden query entry.path entries 0 = none

theorem rowsConsistent {folding : CaseFolding} (lowers : folding.LowersAscii) (showHidden : Bool) (query : List Char)
    (entries : List FileEntry) : RowsConsistent folding showHidden query entries where
  sorted := by
    rw [visibleIndices_eq]
    exact positions_sorted _ _
  exact_ index := by
    rw [visibleIndices_eq, positions_map, mem_positions]
    simp only [visibleName, Bool.and_eq_true, Bool.or_eq_true, Bool.not_eq_true', queryMatches_slow lowers]
  count := countVisible_eq _
  real := realIndexAt_eq _
  row distinct row index entry shown at_ := by
    rw [visibleIndices_eq, positions_map] at shown
    rw [visibleIndexLoop_eq, findIdx?_row FileEntry.path distinct shown at_]
    rfl
  hidden distinct index entry at_ hidden := by
    rw [visibleIndices_eq, positions_map] at hidden
    rw [visibleIndexLoop_eq, findIdx?_hidden FileEntry.path distinct at_ hidden]
    rfl

theorem visible_rows_consistent (folding : CaseFolding) (lowers : folding.LowersAscii) :
    (∀ showHidden query entries, RowsConsistent folding showHidden query entries) ∧
      (∀ names start typed, firstPrefixMatch folding names start typed =
        ((List.range names.length).rotate (start % names.length)).find? fun index =>
          slowPrefixMatches folding typed (names[index]?.getD [])) ∧
      (∀ query name, queryMatches folding query name = slowQueryMatches folding query name) ∧
      ∀ typed name, prefixMatches folding typed name = slowPrefixMatches folding typed name := by
  refine ⟨rowsConsistent lowers, ?_, queryMatches_slow lowers, prefixMatches_slow lowers⟩
  intro names start typed
  rw [firstPrefixMatch_eq]
  simp only [prefixMatches_slow lowers]

/-- Lower-casing that knows no letters beyond ASCII. -/
def asciiFolding : CaseFolding where
  char c := [asciiLower c]
  text := List.map asciiLower

theorem visible_rows_consistent_ascii :
    RowsConsistent asciiFolding false ['a'] [⟨['.', 'a'], ['.', 'a'], .file, none, none⟩, ⟨['A'], ['A'], .file, none, none⟩] :=
  (visible_rows_consistent asciiFolding fun _ _ => rfl).1 _ _ _

end MacSftp.Panes
