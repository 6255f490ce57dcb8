import MacSftp.Edit.Invariant
import MacSftp.Jobs.Links
import MacSftp.Jobs.Siblings

namespace MacSftp

open Lib EditSessionStore

/-- `std::path::Path::extension`: what stands after the last dot of the file name, when something stands before it. -/
def extension (path : List Char) : Option (List Char) :=
  match fileName path with
  | none => none
  | some name =>
    match name.reverse.dropWhile (· ≠ '.') with
    | [] | [_] => none
    | _ :: _ :: _ => some (name.reverse.takeWhile (· ≠ '.')).reverse

def conflictName (path : List Char) : List Char :=
  match extension path with
  | some e => if e ≠ [] ∧ ¬e.any isBidiOrControl then "conflict-remote.".toList ++ e else "conflict-remote".toList
  | none => "conflict-remote".toList

def conflictRemotePath (localTempPath : LocalPath) : LocalPath :=
  let parent := (parentPath localTempPath.chars).getD localTempPath.chars
  ⟨joinPath (joinPath parent "compare".toList) (conflictName localTempPath.chars)⟩

/-- Neither path is the other one or a directory above it. -/
def LocalPath.Apart (a b : LocalPath) : Prop :=
  ¬components a.chars <+: components b.chars ∧ ¬components b.chars <+: components a.chars

instance decidableApart (a b : LocalPath) : Decidable (a.Apart b) := inferInstanceAs (Decidable (_ ∧ _))

section Paths

/-- A name that a file can have below a directory. -/
structure PlainName (name : List Char) : Prop where
  plain : '/' ∉ name
  some_ : name ≠ []
  dot : name ≠ ['.']

theorem components_child {parent name : List Char} (inside : parent ≠ []) (named : PlainName name) :
    components (parent ++ '/' :: name) = components parent ++ [.ofSegment name] := by
  obtain ⟨c, rest, rfl⟩ := List.exists_cons_of_ne_nil inside
  have cut : (c :: rest ++ '/' :: name).splitOn '/' = (c :: rest).splitOn '/' ++ [name] := splitOn_rsplit named.plain
  have first : ((c :: rest).splitOn '/' ++ [name]).head? = ((c :: rest).splitOn '/').head? := by
    rw [List.head?_append_of_ne_nil _ (List.splitOn_ne_nil '/' _)]
  have last : [name].filter (fun c => decide (c ≠ [] ∧ c ≠ ['.'])) = [name] :=
    List.filter_cons_of_pos (decide_eq_true ⟨named.some_, named.dot⟩)
  unfold components
  dsimp only
  rw [cut, first, List.filter_append, last, List.map_append, List.cons_append, List.head?_cons, List.head?_cons]
  split_ifs <;> rfl

theorem joinPath_child {parent name last : List Char} (named : PlainName last) :
    joinPath (parent ++ '/' :: last) name = parent ++ '/' :: last ++ '/' :: name := by
  have ends : (parent ++ '/' :: last).getLast? ≠ some '/' := by
    rw [List.getLast?_append_of_ne_nil _ (List.cons_ne_nil _ _), List.getLast?_cons]
    cases back : last.getLast? with
    | none => exact absurd (List.getLast?_eq_none_iff.mp back) named.some_
    | some c =>
      intro same
      obtain rfl := Option.some.inj same
      exact named.plain (List.mem_of_getLast? back)
  unfold joinPath
  rw [if_neg (by simp), if_neg ends]

theorem trimBack_child (root : Bool) (front : List Char) {name : List Char} (named : PlainName name) :
    trimBack root ((front ++ '/' :: name).splitOn '/').reverse = name :: (front.splitOn '/').reverse := by
  rw [splitOn_rsplit named.plain, List.reverse_append, List.reverse_singleton, List.singleton_append]
  exact trimBack_cons named.some_ named.dot _

theorem intercalate_splitOn_child (front : List Char) {name : List Char} (named : PlainName name) :
    ['/'].intercalate (name :: (front.splitOn '/').reverse).reverse = front ++ '/' :: name := by
  rw [List.reverse_cons, List.reverse_reverse, ← splitOn_rsplit named.plain, List.intercalate_splitOn]

theorem parentPath_child (front : List Char) {last name : List Char} (lastNamed : PlainName last) (named : PlainName name) :
    parentPath ((front ++ '/' :: last) ++ '/' :: name) = some (front ++ '/' :: last) := by
  cases front with
  | nil =>
    have whole : trimBack true ((last ++ '/' :: name).splitOn '/').reverse = [name, last] := by
      rw [trimBack_child true last named, List.splitOn_eq_singleton lastNamed.plain]
      rfl
    have single : trimBack true [last] = [last] := trimBack_cons lastNamed.some_ lastNamed.dot []
    refine (parentPath_cons whole).trans ?_
    rw [single, List.reverse_singleton, List.intercalate_singleton]
    rfl
  | cons c front =>
    by_cases root : c = '/'
    · subst root
      have whole := trimBack_child true (front ++ '/' :: last) named
      refine (parentPath_cons whole).trans ?_
      rw [trimBack_child true front lastNamed, intercalate_splitOn_child front lastNamed]
      rfl
    · have relative : (c :: front ++ '/' :: last ++ '/' :: name).head? ≠ some '/' := fun same => root (Option.some.inj same)
      have whole := trimBack_child false (c :: front ++ '/' :: last) named
      unfold parentPath
      dsimp only
      rw [decide_eq_false relative, if_neg Bool.false_ne_true, whole]
      dsimp only
      rw [trimBack_child false (c :: front) lastNamed, intercalate_splitOn_child (c :: front) lastNamed]
      rfl

theorem fileName_plain {path name : List Char} (h : fileName path = some name) : PlainName name ∧ name ≠ ['.', '.'] := by
  have plain := slash_not_mem_fileName h
  unfold fileName at h
  split at h
  case h_1 => cases h
  case h_2 last found =>
    split at h
    case isTrue => cases h
    case isFalse dots =>
      cases h
      have kept := of_decide_eq_true (List.mem_filter.mp (List.mem_of_getLast? found)).2
      exact ⟨⟨plain, kept.1, kept.2⟩, dots⟩

theorem safeFileName_plain {path : RemotePath} {name : List Char} (h : safeFileName path = some name) :
    PlainName name ∧ name ≠ ['.', '.'] :=
  fileName_plain (Option.filter_eq_some_iff.mp h).1

theorem digits_plain (n : Nat) : PlainName (Nat.toDigits 10 n) where
  plain := fun mem => slash_not_digit n '/' mem rfl
  some_ := Nat.toDigits_ne_nil
  dot := by
    intro same
    have digit := Nat.isDigit_of_mem_toDigits (by decide) (by decide) (same ▸ List.mem_singleton_self '.')
    exact absurd digit (by decide)

theorem extension_plain {path e : List Char} (h : extension path = some e) : '/' ∉ e := by
  unfold extension at h
  split at h
  case h_1 => cases h
  case h_2 name named =>
    split at h
    case h_1 | h_2 => cases h
    case h_3 =>
      cases h
      intro mem
      exact slash_not_mem_fileName named (List.mem_reverse.mp ((List.takeWhile_sublist _).subset (List.mem_reverse.mp mem)))

theorem conflictName_plain (path : List Char) : PlainName (conflictName path) := by
  unfold conflictName
  split
  case h_1 e found =>
    split
    · refine ⟨?_, by simp, by simp⟩
      rw [List.mem_append, not_or]
      exact ⟨by decide, extension_plain found⟩
    · exact ⟨by decide, by decide, by decide⟩
  case h_2 => exact ⟨by decide, by decide, by decide⟩

end Paths

section Prefixes

variable {α : Type} {p x y : List α} {a b c : α}

theorem prefix_child_iff : p ++ [a] <+: p ++ [b, c] ↔ a = b := by
  rw [List.prefix_append_right_inj, List.cons_prefix_cons]
  exact and_iff_left (List.nil_prefix)

theorem not_prefix_shorter : ¬p ++ [b, c] <+: p ++ [a] := by
  intro longer
  have length := longer.length_le
  simp only [List.length_append, List.length_cons, List.length_nil] at length
  omega

theorem not_prefix_beside (other : a ≠ b) : ¬p ++ a :: x <+: p ++ b :: y := by
  rw [List.prefix_append_right_inj, List.cons_prefix_cons]
  exact fun same => other same.1

end Prefixes

namespace RemoteEditLifecycle

variable {l : RemoteEditLifecycle}

def NamedPaths (l : RemoteEditLifecycle) : Prop :=
  ∀ session ∈ l.store.sessions, ∃ name, safeFileName session.remotePath = some name ∧
    session.localTempPath = l.tempPath session.id name

theorem NamedPaths.of_retained {l' : RemoteEditLifecycle} (paths : l.NamedPaths) (dir : l'.editsDir = l.editsDir)
    (run : l'.runId = l.runId) (retained : l.store.Retained l'.store) : l'.NamedPaths := by
  intro session' hs'
  obtain ⟨session, hs, same⟩ := retained.origin session' hs'
  obtain ⟨name, safe, path⟩ := paths session hs
  simp only [EditSession.target, EditTarget.mk.injEq] at same
  refine ⟨name, ?_, ?_⟩
  · rw [same.2.1]
    exact safe
  · rw [same.2.2.2.2.2, path, same.1, tempPath, tempPath, dir, run]

theorem NamedPaths.startDownload (paths : l.NamedPaths) (pending : PendingEdit) : (l.startDownload pending).1.NamedPaths := by
  unfold RemoteEditLifecycle.startDownload
  cases safe : safeFileName pending.remotePath with
  | none => exact paths
  | some name =>
    intro session hs
    rcases List.mem_append.mp hs with old | new
    · exact paths session old
    · rw [List.mem_singleton.mp new]
      exact ⟨name, safe, rfl⟩

theorem NamedPaths.apply (paths : l.NamedPaths) (valid : l.store.Valid) (op : EditOp) : (l.apply op).1.NamedPaths := by
  obtain ⟨dir, run⟩ := apply_dirs l op
  rcases apply_opens valid op with retained | ⟨mid, pending, hd, hr, carried, opened⟩
  · exact paths.of_retained dir run retained
  · rw [opened]
    exact (paths.of_retained hd hr carried.retained).startDownload pending

section Components

/-- The directory of the run's sessions. -/
def runDir (editsDir : LocalPath) (runId : List Char) : List Char := editsDir.chars ++ '/' :: runId

theorem components_temp {id : EditSessionId} {name : List Char} (named : PlainName name) :
    components (l.tempPath id name).chars =
      components (runDir l.editsDir l.runId) ++ [.ofSegment (Nat.toDigits 10 id.raw), .ofSegment name] := by
  have inside : l.editsDir.chars ++ '/' :: l.runId ≠ [] := by simp
  have below : l.editsDir.chars ++ '/' :: l.runId ++ '/' :: Nat.toDigits 10 id.raw ≠ [] := by simp
  unfold tempPath
  rw [components_child below named, components_child inside (digits_plain id.raw), List.append_assoc]
  rfl

theorem components_conflict {id : EditSessionId} {name : List Char} (named : PlainName name) :
    components (conflictRemotePath (l.tempPath id name)).chars =
      components (runDir l.editsDir l.runId) ++ [.ofSegment (Nat.toDigits 10 id.raw), .normal "compare".toList,
        .ofSegment (conflictName (l.tempPath id name).chars)] := by
  have inside : l.editsDir.chars ++ '/' :: l.runId ≠ [] := by simp
  have below : l.editsDir.chars ++ '/' :: l.runId ++ '/' :: Nat.toDigits 10 id.raw ≠ [] := by simp
  have compare : PlainName "compare".toList := ⟨by decide, by decide, by decide⟩
  have beside : l.editsDir.chars ++ '/' :: l.runId ++ '/' :: Nat.toDigits 10 id.raw ++ '/' :: "compare".toList ≠ [] := by simp
  have parent : parentPath (l.tempPath id name).chars =
      some (l.editsDir.chars ++ '/' :: l.runId ++ '/' :: Nat.toDigits 10 id.raw) :=
    parentPath_child (l.editsDir.chars ++ '/' :: l.runId) (digits_plain id.raw) named
  unfold conflictRemotePath
  dsimp only
  rw [parent, Option.getD_some, joinPath_child (digits_plain id.raw), joinPath_child compare,
    components_child beside (conflictName_plain _), components_child below compare, components_child inside (digits_plain id.raw),
    List.append_assoc, List.append_assoc]
  rfl

theorem apart_iff (l : RemoteEditLifecycle) (id : EditSessionId) {name : List Char} (named : PlainName name)
    (dots : name ≠ ['.', '.']) :
    (l.tempPath id name).Apart (conflictRemotePath (l.tempPath id name)) ↔ name ≠ "compare".toList := by
  have segment : Component.ofSegment name = .normal name := if_neg dots
  unfold LocalPath.Apart
  rw [components_temp named, components_conflict named, segment, List.append_cons _ (Component.ofSegment _) [_],
    List.append_cons _ (Component.ofSegment _) [_, _], prefix_child_iff, Component.normal.injEq]
  exact and_iff_left not_prefix_shorter

theorem apart_sessions {a b : EditSessionId} (other : a ≠ b) {x y : LocalPath} {p : List Component} {s t : List Component}
    (first : components x.chars = p ++ .ofSegment (Nat.toDigits 10 a.raw) :: s)
    (second : components y.chars = p ++ .ofSegment (Nat.toDigits 10 b.raw) :: t) : x.Apart y := by
  have digits : ∀ n, Component.ofSegment (Nat.toDigits 10 n) = .normal (Nat.toDigits 10 n) := by
    intro n
    apply if_neg
    intro same
    have digit := Nat.isDigit_of_mem_toDigits (by decide) (by decide) (same ▸ List.mem_cons_self)
    exact absurd digit (by decide)
  have apart : Component.ofSegment (Nat.toDigits 10 a.raw) ≠ .ofSegment (Nat.toDigits 10 b.raw) := by
    rw [digits, digits]
    intro same
    apply other
    cases a
    cases b
    exact congrArg _ (toDigits_injective (Component.normal.inj same))
  unfold LocalPath.Apart
  rw [first, second]
  exact ⟨not_prefix_beside apart, not_prefix_beside apart.symm⟩

end Components

section Run

variable (editsDir : LocalPath) (runId : List Char)

theorem reachable_namedPaths (ops : List EditOp) :
    let l := machine.run (new editsDir runId) ops
    l.store.Valid ∧ l.NamedPaths ∧ l.editsDir = editsDir ∧ l.runId = runId := by
  refine machine.run_invariant (I := fun l => l.store.Valid ∧ l.NamedPaths ∧ l.editsDir = editsDir ∧ l.runId = runId) ?_
    ⟨new_valid editsDir runId, fun session never => absurd never List.not_mem_nil, rfl, rfl⟩ ops
  rintro l op ⟨valid, paths, dir, run⟩
  obtain ⟨sameDir, sameRun⟩ := apply_dirs l op
  exact ⟨apply_valid valid op, paths.apply valid op, sameDir.trans dir, sameRun.trans run⟩

/-- A session that is stored at some time of the run. -/
def StoredIn (ops : List EditOp) (session : EditSession) : Prop :=
  ∃ before, before <+: ops ∧ session ∈ (machine.run (new editsDir runId) before).store.sessions

theorem stored_path {ops : List EditOp} {session : EditSession} (stored : StoredIn editsDir runId ops session) :
    ∃ name, safeFileName session.remotePath = some name ∧
      session.localTempPath = (new editsDir runId).tempPath session.id name := by
  obtain ⟨before, -, mem⟩ := stored
  obtain ⟨-, paths, dir, run⟩ := reachable_namedPaths editsDir runId before
  obtain ⟨name, safe, path⟩ := paths session mem
  refine ⟨name, safe, path.trans ?_⟩
  rw [tempPath, tempPath, dir, run]
  rfl

/-- The comparison copy is apart from the edited copy, and from both copies of every other session of the run. -/
def ComparisonApart (ops : List EditOp) (session : EditSession) : Prop :=
  session.localTempPath.Apart (conflictRemotePath session.localTempPath) ∧
    ∀ other, StoredIn editsDir runId ops other → other.id ≠ session.id →
      (conflictRemotePath session.localTempPath).Apart other.localTempPath ∧
        (conflictRemotePath session.localTempPath).Apart (conflictRemotePath other.localTempPath)

/-- The only name that collides is the one of the directory of the comparison copy. -/
theorem comparison_apart_iff (ops : List EditOp) (session : EditSession) (stored : StoredIn editsDir runId ops session) :
    ComparisonApart editsDir runId ops session ↔ safeFileName session.remotePath ≠ some "compare".toList := by
  obtain ⟨name, safe, path⟩ := stored_path editsDir runId stored
  obtain ⟨named, dots⟩ := safeFileName_plain safe
  have own := apart_iff (new editsDir runId) session.id named dots
  rw [safe, Ne, Option.some_inj]
  constructor
  · rintro ⟨apart, -⟩
    rw [path] at apart
    exact own.mp apart
  · intro differ
    refine ⟨?_, ?_⟩
    · rw [path]
      exact own.mpr differ
    · intro other storedOther differs
      obtain ⟨name', safe', path'⟩ := stored_path editsDir runId storedOther
      have named' := (safeFileName_plain safe').1
      rw [path, path']
      exact ⟨apart_sessions differs.symm (components_conflict named) (components_temp named'),
        apart_sessions differs.symm (components_conflict named) (components_conflict named')⟩

end Run

/-- One download of a file with the name. -/
def editingOne (name : String) : List EditOp := [.startDownload { samplePending with remotePath := .new ("/" ++ name) }]

def sessionOf (name : String) : EditSession :=
  downloadSession { samplePending with remotePath := .new ("/" ++ name) } ⟨1⟩ ((new (.new "/e") ['r']).tempPath ⟨1⟩ name.toList)

theorem comparison_apart_notes :
    StoredIn (.new "/e") ['r'] (editingOne "notes.txt") (sessionOf "notes.txt") ∧
      ComparisonApart (.new "/e") ['r'] (editingOne "notes.txt") (sessionOf "notes.txt") := by
  have stored : StoredIn (.new "/e") ['r'] (editingOne "notes.txt") (sessionOf "notes.txt") :=
    ⟨editingOne "notes.txt", List.prefix_rfl, by decide +kernel⟩
  exact ⟨stored, (comparison_apart_iff (.new "/e") ['r'] (editingOne "notes.txt") (sessionOf "notes.txt") stored).mpr
      (by decide +kernel)⟩

theorem comparison_below_edited_copy :
    ¬∀ session, StoredIn (.new "/e") ['r'] (editingOne "compare") session →
      session.localTempPath.Apart (conflictRemotePath session.localTempPath) := by
  intro every
  have stored : StoredIn (.new "/e") ['r'] (editingOne "compare") (sessionOf "compare") :=
    ⟨editingOne "compare", List.prefix_rfl, by decide +kernel⟩
  exact absurd (every (sessionOf "compare") stored) (by decide +kernel)

end RemoteEditLifecycle

end MacSftp
