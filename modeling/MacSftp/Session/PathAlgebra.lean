import MacSftp.Session.Joining

namespace MacSftp.Session

/-- Where one component leads to from a directory, which its names from `/` on stand for. -/
def enter (names : List (List Char)) (component : List Char) : List (List Char) :=
  if component = [] ∨ component = ['.'] then names
  else if component = ['.', '.'] then names.dropLast
  else names ++ [component]

def walk (names components : List (List Char)) : List (List Char) := components.foldl enter names

/-- A name that can stand in a directory. -/
def NamesEntry (name : List Char) : Prop := '/' ∉ name ∧ name ≠ [] ∧ name ≠ ['.'] ∧ name ≠ ['.', '.']

theorem enter_names {names : List (List Char)} {component : List Char} (valid : ∀ name ∈ names, NamesEntry name)
    (plain : '/' ∉ component) : ∀ name ∈ enter names component, NamesEntry name := by
  intro name mem
  unfold enter at mem
  split_ifs at mem with detour dots
  · exact valid name mem
  · exact valid name (List.dropLast_subset _ mem)
  · rcases List.mem_append.mp mem with before | last
    · exact valid name before
    · rw [List.mem_singleton.mp last]
      push Not at detour
      exact ⟨plain, detour.1, detour.2, dots⟩

theorem walk_names {names components : List (List Char)} (valid : ∀ name ∈ names, NamesEntry name)
    (plain : ∀ component ∈ components, '/' ∉ component) : ∀ name ∈ walk names components, NamesEntry name := by
  induction components generalizing names with
  | nil => exact valid
  | cons component rest ih =>
    have first := enter_names valid (plain component List.mem_cons_self)
    exact ih first fun c mem => plain c (List.mem_cons_of_mem _ mem)

theorem walk_append (names first second : List (List Char)) : walk names (first ++ second) = walk (walk names first) second :=
  List.foldl_append

theorem walk_filter (names components : List (List Char)) :
    walk names (components.filter fun c => c ≠ [] ∧ c ≠ ['.']) = walk names components := by
  induction components generalizing names with
  | nil => rfl
  | cons component rest ih =>
    by_cases detour : component = [] ∨ component = ['.']
    · have stays : enter names component = names := if_pos detour
      rw [List.filter_cons_of_neg (by simpa [or_iff_not_imp_left] using detour), ih]
      exact (congrArg (walk · rest) stays).symm
    · rw [List.filter_cons_of_pos (by simpa [not_or] using detour)]
      exact ih (enter names component)

theorem walk_down {names components : List (List Char)} (plain : ∀ c ∈ components, c ≠ [] ∧ c ≠ ['.'] ∧ c ≠ ['.', '.']) :
    walk names components = names ++ components := by
  induction components generalizing names with
  | nil => exact (List.append_nil names).symm
  | cons component rest ih =>
    obtain ⟨some_, dot, dots⟩ := plain component List.mem_cons_self
    have down : enter names component = names ++ [component] := by
      unfold enter
      rw [if_neg (not_or.mpr ⟨some_, dot⟩), if_neg dots]
    change walk (enter names component) rest = _
    rw [down, ih fun c mem => plain c (List.mem_cons_of_mem _ mem), List.append_assoc]
    rfl

theorem normalizeLoop_walk (names components : List (List Char)) : Core.normalizeLoop names components = walk names components := by
  induction components generalizing names with
  | nil => rfl
  | cons component rest ih =>
    rw [Core.normalizeLoop, ih, ih, ih]
    change _ = walk (enter names component) rest
    unfold enter
    split_ifs <;> rfl

/-- The directory or the entry that a text leads to, by the names on the way from `/`. -/
def named (text : List Char) : List (List Char) := walk [] (segments text)

theorem named_eq (text : List Char) : named text = walk [] (text.splitOn '/') := walk_filter [] _

theorem named_valid (text : List Char) : ∀ name ∈ named text, NamesEntry name := by
  apply walk_names
  · simp
  · intro component mem
    exact (segments_valid mem).1

theorem normalizeRemotePath_named (text : List Char) : Core.normalizeRemotePath text = '/' :: ['/'].intercalate (named text) := by
  rw [Core.normalizeRemotePath, normalizeLoop_walk, named_eq]

theorem segments_normalized (text : List Char) : segments (Core.normalizeRemotePath text) = named text := by
  rw [normalizeRemotePath_named]
  apply segments_joined
  intro name mem
  obtain ⟨plain, some_, dot, -⟩ := named_valid text name mem
  exact ⟨plain, some_, dot⟩

theorem named_normalized (text : List Char) : named (Core.normalizeRemotePath text) = named text := by
  rw [named, segments_normalized]
  exact walk_down fun name mem => (named_valid text name mem).2

theorem normalizeRemotePath_idem (text : List Char) :
    Core.normalizeRemotePath (Core.normalizeRemotePath text) = Core.normalizeRemotePath text := by
  rw [normalizeRemotePath_named (Core.normalizeRemotePath text), named_normalized, ← normalizeRemotePath_named]

section Joined

variable {path name : List Char}

/-- A path without a slash at its end, apart from the root. -/
def Trimmed (path : List Char) : Prop := path = ['/'] ∨ path.getLast? ≠ some '/'

theorem trimEndSlash_trimmed (trimmed : path.getLast? ≠ some '/') : trimEndSlash path = path := by
  rcases List.eq_nil_or_concat path with rfl | ⟨front, last, rfl⟩
  · rfl
  · rw [List.concat_eq_append] at trimmed ⊢
    rw [List.getLast?_concat, ne_eq, Option.some_inj] at trimmed
    exact trimEndSlash_char front trimmed

theorem joinPathComponent_cut (absolute : path.head? = some '/') (trimmed : Trimmed path) (some_ : name ≠ []) (plain : '/' ∉ name) :
    ∃ front, joinPathComponent path name = front ++ '/' :: name ∧ path = (if front = [] then ['/'] else front) := by
  unfold joinPathComponent
  rw [trimSlashes_name plain some_]
  by_cases root : path = ['/']
  · exact ⟨[], if_pos (.inr root), root⟩
  · have filled : path ≠ [] := by
      rintro rfl
      cases absolute
    refine ⟨path, ?_, (if_neg filled).symm⟩
    rw [if_neg (not_or.mpr ⟨filled, root⟩), trimEndSlash_trimmed (trimmed.resolve_left root)]

theorem parentPath_join (absolute : path.head? = some '/') (trimmed : Trimmed path) (some_ : name ≠ []) (plain : '/' ∉ name) :
    Core.parentPath (joinPathComponent path name) = some path := by
  obtain ⟨front, joined, back⟩ := joinPathComponent_cut absolute trimmed some_ plain
  obtain ⟨parent, found, same⟩ := Option.map_eq_some_iff.mp (@parent_named front name plain some_)
  rw [joined, back, ← RemotePath.mk.inj same]
  exact found

theorem lastComponent_join (absolute : path.head? = some '/') (trimmed : Trimmed path) (some_ : name ≠ []) (plain : '/' ∉ name) :
    lastComponent (joinPathComponent path name) = name := by
  obtain ⟨front, joined, -⟩ := joinPathComponent_cut absolute trimmed some_ plain
  rw [joined, lastComponent_append plain]

end Joined

section Targets

/-- The directory that a target is relative to. -/
def linkParent (link : RemotePath) : List Char := (link.parent.getD ⟨['/']⟩).chars

theorem resolveLinkTarget_names (link : RemotePath) (target : List Char) :
    segments (link.resolveLinkTarget target).chars =
      if target.head? = some '/' then walk [] (segments target) else walk [] (segments (linkParent link) ++ segments target) := by
  unfold RemotePath.resolveLinkTarget
  split_ifs with absolute
  · exact segments_normalized target
  · have lead : segments (trimEndSlash (linkParent link) ++ '/' :: target) = segments (linkParent link) ++ segments target := by
      rw [segments_slash, segments_trimEndSlash]
    rw [← lead]
    exact segments_normalized _

theorem walk_target {names : List (List Char)} {target : List Char} (level : ['.', '.'] ∉ segments target) :
    walk names (segments target) = names ++ segments target := by
  apply walk_down
  intro component mem
  obtain ⟨-, some_, dot⟩ := segments_valid mem
  exact ⟨some_, dot, fun dots => level (dots ▸ mem)⟩

theorem resolveLinkTarget_appends (link : RemotePath) {target : List Char} (level : ['.', '.'] ∉ segments target) :
    segments (link.resolveLinkTarget target).chars =
      if target.head? = some '/' then segments target else named (linkParent link) ++ segments target := by
  rw [resolveLinkTarget_names, walk_append, walk_target level, walk_target level]
  rfl

end Targets

/-- How the operations on paths go together: a joined name comes off again, normal forms are walked paths, and a link's
target is put behind the link's directory. -/
theorem path_algebra :
    (∀ path name : List Char, path.head? = some '/' → Trimmed path → name ≠ [] → '/' ∉ name →
      ((RemotePath.mk path).join name).parent = some ⟨path⟩ ∧ ((LocalPath.mk path).join name).parent = some ⟨path⟩ ∧
        lastComponent ((RemotePath.mk path).join name).chars = name ∧ lastComponent ((LocalPath.mk path).join name).chars = name) ∧
    (∀ text, Core.normalizeRemotePath (Core.normalizeRemotePath text) = Core.normalizeRemotePath text ∧
      Core.normalizeRemotePath text = '/' :: ['/'].intercalate (walk [] (text.splitOn '/')) ∧
        ∀ name ∈ walk [] (text.splitOn '/'), NamesEntry name) ∧
    ∀ (link : RemotePath) (target : List Char), ['.', '.'] ∉ segments target →
      segments (link.resolveLinkTarget target).chars =
          (if target.head? = some '/' then walk [] (segments target) else walk [] (segments (linkParent link) ++ segments target)) ∧
        segments (link.resolveLinkTarget target).chars =
          (if target.head? = some '/' then segments target else named (linkParent link) ++ segments target) := by
  refine ⟨?_, ?_, ?_⟩
  · intro path name absolute trimmed some_ plain
    have back := parentPath_join absolute trimmed some_ plain
    have last := lastComponent_join absolute trimmed some_ plain
    exact ⟨congrArg (Option.map RemotePath.mk) back, congrArg (Option.map LocalPath.mk) back, last, last⟩
  · intro text
    rw [← named_eq]
    exact ⟨normalizeRemotePath_idem text, normalizeRemotePath_named text, named_valid text⟩
  · intro link target level
    exact ⟨resolveLinkTarget_names link target, resolveLinkTarget_appends link level⟩

theorem path_algebra_nested :
    ((RemotePath.mk "/srv/www".toList).join "site".toList).parent = some ⟨"/srv/www".toList⟩ ∧
      segments ((RemotePath.mk "/srv/www/site".toList).resolveLinkTarget "./shared//a".toList).chars =
        ["srv".toList, "www".toList, "shared".toList, "a".toList] := by
  refine ⟨(path_algebra.1 _ _ rfl (.inr (by decide)) (by decide) (by decide)).1, ?_⟩
  rw [(path_algebra.2.2 ⟨"/srv/www/site".toList⟩ "./shared//a".toList (by decide)).2]
  decide

end MacSftp.Session
