import MacSftp.Panes.Matching

namespace MacSftp.Panes

open Lib Std

/-- The two ways of `compare_names`. -/
def compareNamesAscii (a b : List Char) : Ordering :=
  (compareChars (a.map asciiLower) (b.map asciiLower)).then (compareChars a b)

def compareNamesUnicode (folding : CaseFolding) (a b : List Char) : Ordering :=
  (compareChars (a.flatMap folding.char) (b.flatMap folding.char)).then (compareChars a b)

section Texts

def compareCodes (a b : Char) : Ordering := compare a.toNat b.toNat

instance : TransCmp compareCodes := inferInstanceAs (TransCmp (compareOn Char.toNat))

instance : LawfulEqCmp compareCodes where
  compare_self := ReflOrd.compare_self
  eq_of_compare same := Char.toNat_inj.mp (LawfulEqOrd.eq_of_compare same)

theorem compareChars_lex : compareChars = List.compareLex compareCodes := by
  funext a b
  induction a generalizing b with
  | nil => cases b <;> rfl
  | cons c a ih =>
    cases b with
    | nil => rfl
    | cons d b =>
      rw [compareChars, List.compareLex_cons_cons, ih]
      rfl

instance : TransCmp compareChars := by
  rw [compareChars_lex]
  infer_instance

theorem compareChars_eq {a b : List Char} (same : compareChars a b = .eq) : a = b := by
  rw [compareChars_lex] at same
  exact LawfulEqCmp.eq_of_compare same

/-- Texts compared by what stands for them. -/
instance compareFolded (fold : List Char → List Char) : TransCmp fun a b => compareChars (fold a) (fold b) where
  eq_swap := by
    intro a b
    exact @OrientedCmp.eq_swap _ compareChars _ (fold a) (fold b)
  isLE_trans := by
    intro a b c ab bc
    exact @TransCmp.isLE_trans _ compareChars _ (fold a) (fold b) (fold c) ab bc

instance (folding : CaseFolding) : TransCmp (compareNamesUnicode folding) :=
  inferInstanceAs (TransCmp (compareLex (fun a b => compareChars (a.flatMap folding.char) (b.flatMap folding.char)) compareChars))

theorem folded_ascii (tables : CaseTables) {name : List Char} (ascii : isAscii name = true) :
    name.flatMap (unicodeFolding tables).char = name.map asciiLower := by
  induction name with
  | nil => rfl
  | cons c name ih =>
    rw [isAscii, List.all_cons, Bool.and_eq_true, decide_eq_true_eq] at ascii
    rw [List.flatMap_cons, ih ascii.2, List.map_cons, asciiLower_toLower ascii.1]
    exact congrArg (· ++ _) (tables.lower_ascii c ascii.1)

theorem compareNames_agree (tables : CaseTables) {a b : List Char} (plain : isAscii a = true) (plain' : isAscii b = true) :
    compareNamesAscii a b = compareNamesUnicode (unicodeFolding tables) a b := by
  rw [compareNamesUnicode, folded_ascii tables plain, folded_ascii tables plain', compareNamesAscii]

/-- so that it never matters which one is taken. -/
theorem compareNames_unicode (tables : CaseTables) :
    compareNames (unicodeFolding tables) = compareNamesUnicode (unicodeFolding tables) := by
  funext a b
  unfold compareNames
  split_ifs with plain
  · exact compareNames_agree tables plain.1 plain.2
  · rfl

end Texts

section Entries

theorem compareOption_compare {α : Type} [Ord α] (a b : Option α) : compareOption compare a b = compare a b := by
  cases a <;> cases b <;> rfl

/-- The order by one field: what the field holds, and then the name. -/
def fieldKey : FileSortField → FileEntry → FileEntry → Ordering
  | .name => fun _ _ => .eq
  | .kind => compareOn fun entry => entry.kind.rank
  | .size => compareOn FileEntry.size
  | .modifiedAt => compareOn fun entry => entry.modifiedAt.map Timestamp.nanos

def compareNamesOf (folding : CaseFolding) (a b : FileEntry) : Ordering := compareNamesUnicode folding a.name b.name

instance (folding : CaseFolding) : TransCmp (compareNamesOf folding) where
  eq_swap := by
    intro a b
    exact @OrientedCmp.eq_swap _ (compareNamesUnicode folding) _ a.name b.name
  isLE_trans := by
    intro a b c ab bc
    exact @TransCmp.isLE_trans _ (compareNamesUnicode folding) _ a.name b.name c.name ab bc

instance equalAll : TransCmp fun (_ _ : FileEntry) => Ordering.eq where
  eq_swap := rfl
  isLE_trans := fun _ _ => rfl

instance (field : FileSortField) : TransCmp (fieldKey field) := by
  cases field
  · exact equalAll
  · exact inferInstanceAs (TransCmp (compareOn _))
  · exact inferInstanceAs (TransCmp (compareOn _))
  · exact inferInstanceAs (TransCmp (compareOn _))

theorem compareField_lex (tables : CaseTables) (a b : FileEntry) (field : FileSortField) :
    compareField (unicodeFolding tables) a b field =
      compareLex (fieldKey field) (compareNamesOf (unicodeFolding tables)) a b := by
  unfold compareField
  rw [compareNames_unicode]
  cases field with
  | name => rfl
  | kind => rfl
  | size =>
    rw [compareOption_compare]
    rfl
  | modifiedAt =>
    have times : compareOption (fun x y : Timestamp => compare x.nanos y.nanos) a.modifiedAt b.modifiedAt =
        compare (a.modifiedAt.map Timestamp.nanos) (b.modifiedAt.map Timestamp.nanos) := by
      cases a.modifiedAt <;> cases b.modifiedAt <;> rfl
    dsimp only
    rw [times]
    rfl

/-- Directories in front, when they are to be. -/
def group (sort : FileSort) (entry : FileEntry) : Nat := if sort.directoriesFirst ∧ entry.kind ≠ .directory then 1 else 0

def directed (direction : SortDirection) (order : FileEntry → FileEntry → Ordering) (a b : FileEntry) : Ordering :=
  match direction with
  | .ascending => order a b
  | .descending => (order a b).swap

instance (direction : SortDirection) (order : FileEntry → FileEntry → Ordering) [TransCmp order] :
    TransCmp (directed direction order) := by
  cases direction with
  | ascending => exact inferInstanceAs (TransCmp order)
  | descending =>
    have turned : directed .descending order = fun a b => order b a := by
      funext a b
      exact OrientedCmp.eq_swap.symm
    rw [turned]
    exact TransCmp.opposite

def entryOrder (folding : CaseFolding) (sort : FileSort) : FileEntry → FileEntry → Ordering :=
  compareLex (compareOn (group sort))
    (compareLex (directed sort.direction (compareLex (fieldKey sort.field) (compareNamesOf folding)))
      fun a b => compareChars a.path b.path)

instance comparePaths : TransCmp fun (a b : FileEntry) => compareChars a.path b.path where
  eq_swap := by
    intro a b
    exact @OrientedCmp.eq_swap _ compareChars _ a.path b.path
  isLE_trans := by
    intro a b c ab bc
    exact @TransCmp.isLE_trans _ compareChars _ a.path b.path c.path ab bc

instance (folding : CaseFolding) (sort : FileSort) : TransCmp (entryOrder folding sort) :=
  inferInstanceAs (TransCmp (compareLex _ _))

theorem group_lt {sort : FileSort} {a b : FileEntry} (first : sort.directoriesFirst = true) (is : a.kind = .directory)
    (isNot : b.kind ≠ .directory) : group sort a = 0 ∧ group sort b = 1 :=
  ⟨if_neg fun both => both.2 is, if_pos ⟨first, isNot⟩⟩

theorem compareEntries_lex (tables : CaseTables) (sort : FileSort) :
    compareEntries (unicodeFolding tables) sort = entryOrder (unicodeFolding tables) sort := by
  funext a b
  unfold compareEntries entryOrder
  rw [compareLex, compareOn]
  split_ifs with before after
  · obtain ⟨lo, hi⟩ := group_lt before.1 before.2.1 before.2.2
    rw [lo, hi]
    rfl
  · obtain ⟨lo, hi⟩ := group_lt after.1 after.2.2 after.2.1
    rw [lo, hi]
    rfl
  · have same : group sort a = group sort b := by
      unfold group
      by_cases is : a.kind = .directory <;> by_cases is' : b.kind = .directory <;> simp_all
    rw [same, compareField_lex, ReflOrd.compare_self]
    unfold directed
    cases sort.direction <;> rfl

variable (tables : CaseTables) (sort : FileSort)

instance : TransCmp (compareEntries (unicodeFolding tables) sort) := by
  rw [compareEntries_lex]
  infer_instance

theorem compareEntries_path {a b : FileEntry} (same : compareEntries (unicodeFolding tables) sort a b = .eq) : a.path = b.path := by
  rw [compareEntries_lex, entryOrder, compareLex_eq_eq, compareLex_eq_eq] at same
  exact compareChars_eq same.2.2

/-- Entries that may stand in this order. -/
def Before (a b : FileEntry) : Prop := compareEntries (unicodeFolding tables) sort a b ≠ .gt

instance : DecidableRel (Before tables sort) := fun _ _ => inferInstanceAs (Decidable (_ ≠ _))

theorem compareEntries_swap (a b : FileEntry) :
    compareEntries (unicodeFolding tables) sort a b = (compareEntries (unicodeFolding tables) sort b a).swap :=
  OrientedCmp.eq_swap

instance : Std.Total (Before tables sort) where
  total a b := by
    unfold Before
    rw [compareEntries_swap tables sort b a]
    cases compareEntries (unicodeFolding tables) sort a b <;> simp

theorem before_trans {a b c : FileEntry} (ab : Before tables sort a b) (bc : Before tables sort b c) : Before tables sort a c :=
  Ordering.isLE_iff_ne_gt.mp (TransCmp.isLE_trans (Ordering.isLE_iff_ne_gt.mpr ab) (Ordering.isLE_iff_ne_gt.mpr bc))

instance : IsTrans FileEntry (Before tables sort) where
  trans _ _ _ := before_trans tables sort

theorem before_antisymm {a b : FileEntry} (ab : Before tables sort a b) (ba : Before tables sort b a) : a.path = b.path := by
  apply compareEntries_path tables sort
  unfold Before at ab ba
  rw [compareEntries_swap tables sort b a] at ba
  cases order : compareEntries (unicodeFolding tables) sort a b with
  | lt =>
    rw [order] at ba
    exact absurd rfl ba
  | eq => rfl
  | gt => exact absurd order ab

theorem sortEntries_sorted (entries : List FileEntry) :
    (sortEntries (unicodeFolding tables) sort entries).Pairwise (Before tables sort) :=
  List.pairwise_insertionSort (Before tables sort) entries

theorem sortEntries_perm {xs ys : List FileEntry} (distinct : (xs.map FileEntry.path).Nodup) (perm : xs.Perm ys) :
    sortEntries (unicodeFolding tables) sort xs = sortEntries (unicodeFolding tables) sort ys := by
  have both : (sortEntries (unicodeFolding tables) sort xs).Perm (sortEntries (unicodeFolding tables) sort ys) :=
    (List.perm_insertionSort _ xs).trans (perm.trans (List.perm_insertionSort _ ys).symm)
  apply both.eq_of_pairwise ?_ (sortEntries_sorted tables sort xs) (sortEntries_sorted tables sort ys)
  intro a b inXs inYs ab ba
  have left : a ∈ xs := mem_sortEntries.mp inXs
  have right : b ∈ xs := perm.mem_iff.mpr (mem_sortEntries.mp inYs)
  exact List.inj_on_of_nodup_map distinct left right (before_antisymm tables sort ab ba)

theorem before_directories {a b : FileEntry} (first : sort.directoriesFirst = true) (ab : Before tables sort a b)
    (directory : b.kind = .directory) : a.kind = .directory := by
  by_contra other
  apply ab
  unfold compareEntries
  rw [if_neg fun both => other both.2.1, if_pos ⟨first, other, directory⟩]

/-- The order of a listing is total, whichever way its names are compared, and fixes the list. -/
theorem listing_order_total (tables : CaseTables) (sort : FileSort) :
    (∀ a b, compareEntries (unicodeFolding tables) sort a b = (compareEntries (unicodeFolding tables) sort b a).swap) ∧
    (∀ a b c, compareEntries (unicodeFolding tables) sort a b ≠ .gt → compareEntries (unicodeFolding tables) sort b c ≠ .gt →
      compareEntries (unicodeFolding tables) sort a c ≠ .gt) ∧
    (∀ a b, a.path ≠ b.path → compareEntries (unicodeFolding tables) sort a b ≠ .eq) ∧
    (∀ a b, compareNames (unicodeFolding tables) a b = compareNamesUnicode (unicodeFolding tables) a b ∧
      (isAscii a = true → isAscii b = true → compareNamesAscii a b = compareNamesUnicode (unicodeFolding tables) a b)) ∧
    (∀ xs ys : List FileEntry, (xs.map FileEntry.path).Nodup → xs.Perm ys →
      sortEntries (unicodeFolding tables) sort xs = sortEntries (unicodeFolding tables) sort ys) ∧
    (sort.directoriesFirst = true → ∀ xs : List FileEntry, (sortEntries (unicodeFolding tables) sort xs).Pairwise fun a b =>
      b.kind = .directory → a.kind = .directory) := by
  refine ⟨compareEntries_swap tables sort, fun a b c => before_trans tables sort, ?_, ?_,
    fun xs ys => sortEntries_perm tables sort, ?_⟩
  · intro a b different same
    exact different (compareEntries_path tables sort same)
  · intro a b
    exact ⟨congrFun (congrFun (compareNames_unicode tables) a) b, compareNames_agree tables⟩
  · intro first xs
    exact (sortEntries_sorted tables sort xs).imp (before_directories tables sort first)

theorem listing_order_greek :
    sortEntries (unicodeFolding greekTables) {}
        [⟨"b".toList, "/b".toList, .file, none, none⟩, ⟨"Α".toList, "/Α".toList, .directory, none, none⟩] =
      sortEntries (unicodeFolding greekTables) {}
        [⟨"Α".toList, "/Α".toList, .directory, none, none⟩, ⟨"b".toList, "/b".toList, .file, none, none⟩] :=
  (listing_order_total greekTables {}).2.2.2.2.1 _ _ (by decide) (List.Perm.swap _ _ _)

end Entries

end MacSftp.Panes
