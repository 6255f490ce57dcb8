import MacSftp.Core.Types
import MacSftp.Lib.Filtering
import Mathlib.Data.List.Infix
import Mathlib.Data.List.Sort

namespace MacSftp.Panes

/-- The Unicode tables behind `char::to_lowercase` and `str::to_lowercase`. -/
structure CaseFolding where
  char : Char → List Char
  text : List Char → List Char

inductive FileKind
  | file
  | directory
  | symlink
  | other
  | unknown
  deriving DecidableEq, Repr

/-- A local or a remote entry. -/
structure FileEntry where
  name : List Char
  path : List Char
  kind : FileKind
  size : Option Nat := none
  modifiedAt : Option Timestamp := none
  deriving DecidableEq, Repr

def isDotfile (name : List Char) : Bool := name.head? = some '.'

def isAscii (text : List Char) : Bool := text.all (·.toNat < 128)

def asciiLower (c : Char) : Char := if 'A' ≤ c ∧ c ≤ 'Z' then Char.ofNat (c.toNat + 32) else c

def eqIgnoreAsciiCase (a b : List Char) : Bool := a.map asciiLower = b.map asciiLower

/-- `QueryMatcher::matches`. -/
def queryMatches (folding : CaseFolding) (query name : List Char) : Bool :=
  if query = [] then true
  else if isAscii query ∧ isAscii name then
    name.tails.any fun tail => query.length ≤ tail.length ∧ eqIgnoreAsciiCase (tail.take query.length) query
  else folding.text query <:+: folding.text name

/-- `PrefixMatcher::matches`. -/
def prefixMatches (folding : CaseFolding) (typed name : List Char) : Bool :=
  if typed = [] then false
  else if isAscii typed ∧ isAscii name then typed.length ≤ name.length ∧ eqIgnoreAsciiCase (name.take typed.length) typed
  else folding.text typed <+: folding.text name

def visibleName (folding : CaseFolding) (showHidden : Bool) (query name : List Char) : Bool :=
  (showHidden || !isDotfile name) && queryMatches folding query name

def indicesWhere (keep : List Char → Bool) (names : List (List Char)) : List Nat :=
  (names.zipIdx.filter fun name => keep name.1).map Prod.snd

def visibleIndices (folding : CaseFolding) (names : List (List Char)) (showHidden : Bool) (query : List Char) : List Nat :=
  if query = [] then
    if showHidden then List.range names.length else indicesWhere (fun name => !isDotfile name) names
  else indicesWhere (fun name => !(!showHidden && isDotfile name) && queryMatches folding query name) names

def countVisible (folding : CaseFolding) (names : List (List Char)) (showHidden : Bool) (query : List Char) : Nat :=
  if query = [] then
    if showHidden then names.length else (names.filter fun name => !isDotfile name).length
  else (names.filter (visibleName folding showHidden query)).length

def realIndexAt (folding : CaseFolding) (names : List (List Char)) (visibleIndex : Nat) (showHidden : Bool) (query : List Char) :
    Option Nat :=
  if query = [] then
    if showHidden then (if visibleIndex < names.length then some visibleIndex else none)
    else (indicesWhere (fun name => !isDotfile name) names)[visibleIndex]?
  else (indicesWhere (visibleName folding showHidden query) names)[visibleIndex]?

/-- The first name from `start` on that begins with what has been typed, going round at the end. -/
def firstPrefixMatch (folding : CaseFolding) (names : List (List Char)) (start : Nat) (typed : List Char) : Option Nat :=
  if names = [] ∨ typed = [] then none
  else
    ((List.range names.length).map fun offset => (start % names.length + offset) % names.length).find? fun index =>
      prefixMatches folding typed (names[index]?.getD [])

theorem queryMatches_empty (folding : CaseFolding) (name : List Char) : queryMatches folding [] name = true := if_pos rfl

theorem mem_indicesWhere {keep : List Char → Bool} {names : List (List Char)} {index : Nat} :
    index ∈ indicesWhere keep names ↔ ∃ name, names[index]? = some name ∧ keep name = true :=
  Lib.mem_positions

theorem mem_visibleIndices {folding : CaseFolding} {names : List (List Char)} {showHidden : Bool} {query : List Char}
    {index : Nat} :
    index ∈ visibleIndices folding names showHidden query ↔
      ∃ name, names[index]? = some name ∧ visibleName folding showHidden query name = true := by
  unfold visibleIndices visibleName
  split_ifs with empty all
  · subst empty
    simp only [all, queryMatches_empty, List.mem_range, Bool.true_or, Bool.and_self, and_true]
    exact ⟨fun inside => ⟨_, List.getElem?_eq_getElem inside⟩, fun ⟨name, at_⟩ => (List.getElem?_eq_some_iff.mp at_).1⟩
  · subst empty
    rw [mem_indicesWhere]
    simp [all, queryMatches_empty]
  · rw [mem_indicesWhere]
    simp

theorem realIndexAt_visible {folding : CaseFolding} {names : List (List Char)} {visibleIndex index : Nat} {showHidden : Bool}
    {query : List Char} (found : realIndexAt folding names visibleIndex showHidden query = some index) :
    ∃ name, names[index]? = some name ∧ visibleName folding showHidden query name = true := by
  unfold realIndexAt at found
  split_ifs at found with empty all inside
  · subst empty
    cases found
    exact ⟨_, List.getElem?_eq_getElem inside, by simp [visibleName, all, queryMatches_empty]⟩
  · subst empty
    obtain ⟨name, at_, shown⟩ := mem_indicesWhere.mp (List.mem_of_getElem? found)
    exact ⟨name, at_, by simp [visibleName, shown, queryMatches_empty]⟩
  · exact mem_indicesWhere.mp (List.mem_of_getElem? found)

inductive FileSortField
  | name
  | kind
  | size
  | modifiedAt
  deriving DecidableEq, Repr

inductive SortDirection
  | ascending
  | descending
  deriving DecidableEq, Repr

structure FileSort where
  field : FileSortField := .name
  direction : SortDirection := .ascending
  directoriesFirst : Bool := true
  deriving DecidableEq, Repr

/-- The order of texts and of their bytes: the first character that differs decides. -/
def compareChars : List Char → List Char → Ordering
  | [], [] => .eq
  | [], _ :: _ => .lt
  | _ :: _, [] => .gt
  | a :: as, b :: bs => (compare a.toNat b.toNat).then (compareChars as bs)

def compareNames (folding : CaseFolding) (a b : List Char) : Ordering :=
  if isAscii a ∧ isAscii b then (compareChars (a.map asciiLower) (b.map asciiLower)).then (compareChars a b)
  else (compareChars (a.flatMap folding.char) (b.flatMap folding.char)).then (compareChars a b)

def FileKind.rank : FileKind → Nat
  | directory => 0
  | file => 1
  | symlink => 2
  | other => 3
  | unknown => 4

/-- Nothing comes before something. -/
def compareOption {α : Type} (compare : α → α → Ordering) : Option α → Option α → Ordering
  | none, none => .eq
  | none, some _ => .lt
  | some _, none => .gt
  | some a, some b => compare a b

def compareField (folding : CaseFolding) (a b : FileEntry) : FileSortField → Ordering
  | .name => compareNames folding a.name b.name
  | .kind => (compare a.kind.rank b.kind.rank).then (compareNames folding a.name b.name)
  | .size => (compareOption compare a.size b.size).then (compareNames folding a.name b.name)
  | .modifiedAt =>
    (compareOption (fun x y : Timestamp => compare x.nanos y.nanos) a.modifiedAt b.modifiedAt).then
      (compareNames folding a.name b.name)

def compareEntries (folding : CaseFolding) (sort : FileSort) (a b : FileEntry) : Ordering :=
  if sort.directoriesFirst ∧ a.kind = .directory ∧ b.kind ≠ .directory then .lt
  else if sort.directoriesFirst ∧ a.kind ≠ .directory ∧ b.kind = .directory then .gt
  else
    let ordering := compareField folding a b sort.field
    let directed :=
      match sort.direction with
      | .ascending => ordering
      | .descending => ordering.swap
    directed.then (compareChars a.path b.path)

def sortEntries (folding : CaseFolding) (sort : FileSort) (entries : List FileEntry) : List FileEntry :=
  entries.insertionSort fun a b => compareEntries folding sort a b ≠ .gt

theorem mem_sortEntries {folding : CaseFolding} {sort : FileSort} {entries : List FileEntry} {entry : FileEntry} :
    entry ∈ sortEntries folding sort entries ↔ entry ∈ entries :=
  (List.perm_insertionSort _ entries).mem_iff

end MacSftp.Panes
