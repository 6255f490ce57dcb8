import MacSftp.Jobs.Conflict

namespace MacSftp

/-- The names of the directories that a path leads through. -/
def directory (path : List Char) : List (List Char) := (path.splitOn '/').dropLast.filter (· ≠ [])

def lastComponent (path : List Char) : List Char := (path.splitOn '/').getLastD []

/-- The temporary file of one transfer is in the directory of its destination, and nobody else's. -/
structure TemporaryBeside (destination : RemotePath) (transferId : TransferId) : Prop where
  absolute : (remoteTemporaryPath destination transferId).chars.head? = some '/'
  beside : directory (remoteTemporaryPath destination transferId).chars = directory destination.chars
  different : remoteTemporaryPath destination transferId ≠ destination
  own : ∀ other, other ≠ transferId → remoteTemporaryPath destination other ≠ remoteTemporaryPath destination transferId

structure LocalTemporaryBeside (destination : LocalPath) (transferId : TransferId) : Prop where
  absolute : (localTemporaryPath destination transferId).chars.head? = some '/'
  beside : parentPath (localTemporaryPath destination transferId).chars = parentPath destination.chars
  different : localTemporaryPath destination transferId ≠ destination
  own : ∀ other, other ≠ transferId → localTemporaryPath destination other ≠ localTemporaryPath destination transferId

/-- A renamed destination is absolute, in the same directory, and has the new name. -/
def RenamedBeside (name : List Char) : TransferEndpoint → TransferEndpoint → Prop
  | .remote before, .remote after =>
    after.chars.head? = some '/' ∧ directory after.chars = directory before.chars ∧ lastComponent after.chars = name
  | .local before, .local after =>
    after.chars.head? = some '/' ∧ parentPath after.chars = parentPath before.chars ∧ fileName after.chars = some name
  | _, _ => False

theorem exists_rsplit {path : List Char} (slash : '/' ∈ path) : ∃ parent name, path = parent ++ '/' :: name ∧ '/' ∉ name := by
  obtain ⟨front, back, split, plain⟩ := List.eq_append_cons_of_mem (List.mem_reverse.mpr slash)
  refine ⟨back.reverse, front.reverse, ?_, fun mem => plain (List.mem_reverse.mp mem)⟩
  rw [← List.reverse_reverse path, split]
  simp

theorem rsplitOnce_append {parent name : List Char} (plain : '/' ∉ name) :
    rsplitOnce (parent ++ '/' :: name) = some (parent, name) := by
  have others : ∀ c ∈ name.reverse, decide (c ≠ '/') = true := by
    intro c mem
    exact decide_eq_true fun same => plain (same ▸ List.mem_reverse.mp mem)
  have reversed : (parent ++ '/' :: name).reverse = name.reverse ++ '/' :: parent.reverse := by simp
  unfold rsplitOnce
  rw [reversed, List.dropWhile_append_of_pos others, List.takeWhile_append_of_pos others]
  simp

theorem splitOn_rsplit {parent name : List Char} (plain : '/' ∉ name) :
    (parent ++ '/' :: name).splitOn '/' = parent.splitOn '/' ++ [name] := by
  rw [List.splitOn_append_cons_self, List.splitOn_eq_singleton plain]

theorem directory_append {parent name : List Char} (plain : '/' ∉ name) :
    directory (parent ++ '/' :: name) = (parent.splitOn '/').filter (· ≠ []) := by
  rw [directory, splitOn_rsplit plain, List.dropLast_concat]

theorem lastComponent_append {parent name : List Char} (plain : '/' ∉ name) : lastComponent (parent ++ '/' :: name) = name := by
  rw [lastComponent, splitOn_rsplit plain]
  simp

theorem slash_in_tail {parent name : List Char} (plain : '/' ∉ name) : '/' ∈ (parent ++ '/' :: name).tail ↔ parent ≠ [] := by
  cases parent with
  | nil => simpa using plain
  | cons c parent => simp

theorem head_append {parent : List Char} (some_ : parent ≠ []) (rest : List Char) : (parent ++ rest).head? = parent.head? := by
  cases parent with
  | nil => exact absurd rfl some_
  | cons c parent => rfl

theorem head_plain {name : List Char} (plain : '/' ∉ name) : name.head? ≠ some '/' := by
  intro first
  exact plain (List.mem_of_mem_head? first)

theorem partName_injective {name : List Char} {a b : TransferId} (same : partName name a = partName name b) : a = b := by
  apply TransferId.raw_injective
  exact toDigits_injective (List.append_cancel_left same)

theorem joinPath_injective {parent a b : List Char} (same : joinPath parent a = joinPath parent b) : a = b := by
  unfold joinPath at same
  split_ifs at same
  · exact same
  · exact List.append_cancel_left same
  · exact (List.cons.inj (List.append_cancel_left same)).2

theorem remoteTemporaryPath_append (parent : List Char) {name : List Char} (plain : '/' ∉ name) (transferId : TransferId) :
    (remoteTemporaryPath ⟨parent ++ '/' :: name⟩ transferId).chars =
      if parent = [] then partName name transferId
      else if parent = ['/'] then '/' :: partName name transferId
      else parent ++ '/' :: partName name transferId := by
  simp only [remoteTemporaryPath, rsplitOnce_append plain, Option.getD_some]

section Remote

variable {parent name : List Char} (plain : '/' ∉ name)

include plain

theorem remoteTemporaryPath_beside (transferId : TransferId) (nested : parent ≠ []) (rooted : parent.head? = some '/') :
    TemporaryBeside ⟨parent ++ '/' :: name⟩ transferId := by
  have own := partName_plain plain transferId
  have temporary := remoteTemporaryPath_append parent plain transferId
  rw [if_neg nested] at temporary
  have beside : directory (if parent = ['/'] then '/' :: partName name transferId else parent ++ '/' :: partName name transferId) =
      directory (parent ++ '/' :: name) := by
    rw [directory_append plain]
    split_ifs with top
    · have here : '/' :: partName name transferId = [] ++ '/' :: partName name transferId := rfl
      rw [here, directory_append own, top]
      decide
    · exact directory_append own
  constructor
  · rw [temporary]
    split_ifs
    · rfl
    · rw [head_append nested, rooted]
  · rw [temporary, beside]
  · exact fun same => remoteTemporaryPath_ne _ transferId (congrArg RemotePath.chars same)
  · intro other apart same
    have paths := congrArg RemotePath.chars same
    rw [temporary, remoteTemporaryPath_append parent plain other, if_neg nested] at paths
    apply apart
    split_ifs at paths
    · exact partName_injective (List.cons.inj paths).2
    · exact partName_injective (List.cons.inj (List.append_cancel_left paths)).2

theorem remoteTemporaryPath_relative (transferId : TransferId) :
    ¬ TemporaryBeside ⟨'/' :: name⟩ transferId := by
  intro kept
  have absolute := kept.absolute
  have temporary := remoteTemporaryPath_append [] plain transferId
  rw [if_pos rfl] at temporary
  rw [show ('/' :: name) = [] ++ '/' :: name from rfl, temporary] at absolute
  exact head_plain (partName_plain plain transferId) absolute

theorem renamedEndpoint_append (newName : List Char) :
    renamedEndpoint newName (.remote ⟨parent ++ '/' :: name⟩) =
      .remote ⟨if parent = [] then newName else parent ++ '/' :: newName⟩ := by
  simp only [renamedEndpoint, rsplitOnce_append plain, Option.map_some, Option.getD_some]

theorem renamedRemote_iff {newName : List Char} (accepted : '/' ∉ newName) (absolute : (parent ++ '/' :: name).head? = some '/') :
    RenamedBeside newName (.remote ⟨parent ++ '/' :: name⟩) (renamedEndpoint newName (.remote ⟨parent ++ '/' :: name⟩)) ↔
      parent ≠ [] := by
  rw [renamedEndpoint_append plain]
  by_cases top : parent = []
  · rw [if_pos top]
    exact ⟨fun kept => absurd kept.1 (head_plain accepted), fun nested => absurd top nested⟩
  · rw [if_neg top]
    refine iff_of_true ⟨?_, ?_, lastComponent_append accepted⟩ top
    · change (parent ++ '/' :: newName).head? = some '/'
      rw [head_append top, ← absolute, head_append top]
    · exact (directory_append accepted).trans (directory_append plain).symm

end Remote

theorem trimBack_idem (root : Bool) (segments : List (List Char)) :
    trimBack root (trimBack root segments) = trimBack root segments := by
  induction segments with
  | nil => rfl
  | cons s rest ih =>
    cases rest with
    | nil =>
      simp only [trimBack]
      split_ifs with dropped
      · rfl
      · simp [trimBack, dropped]
    | cons t rest =>
      simp only [trimBack]
      split_ifs with dropped
      · exact ih
      · simp [trimBack, dropped]

theorem trimBack_mem {root : Bool} {segments : List (List Char)} {s : List Char} (mem : s ∈ trimBack root segments) :
    s ∈ segments := by
  induction segments with
  | nil => exact mem
  | cons t rest ih =>
    cases rest with
    | nil =>
      simp only [trimBack] at mem
      split_ifs at mem with dropped
      · cases mem
      · exact mem
    | cons u rest =>
      simp only [trimBack] at mem
      split_ifs at mem with dropped
      · exact List.mem_cons_of_mem t (ih mem)
      · exact mem

theorem trimBack_head (root : Bool) (segments : List (List Char)) : (trimBack root segments).head? ≠ some [] := by
  induction segments with
  | nil => simp [trimBack]
  | cons s rest ih =>
    cases rest with
    | nil =>
      simp only [trimBack]
      split_ifs with dropped
      · simp
      · intro empty
        exact dropped (.inl (Option.some.inj empty))
    | cons t rest =>
      simp only [trimBack]
      split_ifs with dropped
      · exact ih
      · intro empty
        exact dropped (.inl (Option.some.inj empty))

theorem parentPath_cons {body s : List Char} {rest : List (List Char)}
    (trimmed : trimBack true (body.splitOn '/').reverse = s :: rest) :
    parentPath ('/' :: body) = some ('/' :: ['/'].intercalate (trimBack true rest).reverse) := by
  simp [parentPath, trimmed]

theorem parentPath_nil {body : List Char} (trimmed : trimBack true (body.splitOn '/').reverse = []) :
    parentPath ('/' :: body) = none := by
  simp [parentPath, trimmed]

theorem parentPath_some {path parent : List Char} (absolute : path.head? = some '/') (found : parentPath path = some parent) :
    ∃ components, parent = '/' :: ['/'].intercalate components.reverse ∧ trimBack true components = components ∧
      ∀ c ∈ components, '/' ∉ c := by
  obtain ⟨body, rfl⟩ := List.head?_eq_some_iff.mp absolute
  cases trimmed : trimBack true (body.splitOn '/').reverse with
  | nil =>
    rw [parentPath_nil trimmed] at found
    cases found
  | cons s rest =>
    rw [parentPath_cons trimmed] at found
    refine ⟨trimBack true rest, (Option.some.inj found).symm, trimBack_idem true rest, ?_⟩
    intro c mem
    have within : c ∈ trimBack true (body.splitOn '/').reverse := trimmed ▸ List.mem_cons_of_mem s (trimBack_mem mem)
    exact slash_not_mem_splitOn (List.mem_reverse.mp (trimBack_mem within))

theorem trimBack_cons {root : Bool} {name : List Char} (some_ : name ≠ []) (dot : name ≠ ['.']) (rest : List (List Char)) :
    trimBack root (name :: rest) = name :: rest := by
  cases rest <;> simp [trimBack, some_, dot]

theorem parentPath_joinPath {path parent name : List Char} (absolute : path.head? = some '/')
    (found : parentPath path = some parent)
    (plain : '/' ∉ name) (some_ : name ≠ []) (dot : name ≠ ['.']) :
    (joinPath parent name).head? = some '/' ∧ parentPath (joinPath parent name) = some parent := by
  obtain ⟨components, rfl, trimmed, segments⟩ := parentPath_some absolute found
  cases components with
  | nil =>
    have joined : joinPath ('/' :: ['/'].intercalate ([] : List (List Char)).reverse) name = '/' :: name := by
      simp [joinPath, List.intercalate_nil]
    have single : trimBack true (name.splitOn '/').reverse = name :: [] := by
      rw [List.splitOn_eq_singleton plain]
      exact trimBack_cons some_ dot []
    rw [joined]
    exact ⟨rfl, parentPath_cons single⟩
  | cons last before =>
    have front : (['/'].intercalate (last :: before).reverse).splitOn '/' = (last :: before).reverse :=
      List.splitOn_intercalate '/' (fun c mem => segments c (List.mem_reverse.mp mem)) (by simp)
    generalize whole : ['/'].intercalate (last :: before).reverse = text at front ⊢
    -- the parent does not end in a slash, since its last component is not empty
    have ends : ('/' :: text).getLast? ≠ some '/' := by
      intro ends
      obtain ⟨init, last_⟩ := List.getLast?_eq_some_iff.mp ends
      cases init with
      | nil =>
        cases (List.cons.inj last_).2
        rw [List.splitOn_nil] at front
        have one : last :: before = [[]] := by rw [← List.reverse_reverse (last :: before), ← front]; rfl
        exact trimBack_head true (last :: before) (by rw [trimmed, one]; rfl)
      | cons c init =>
        have inner : text = init ++ '/' :: [] := (List.cons.inj last_).2
        rw [inner, splitOn_rsplit List.not_mem_nil] at front
        have reversed := congrArg List.reverse front
        rw [List.reverse_reverse, List.reverse_append] at reversed
        exact trimBack_head true (last :: before) (by rw [trimmed, ← reversed]; rfl)
    have joined : joinPath ('/' :: text) name = '/' :: (text ++ '/' :: name) := by
      rw [joinPath, if_neg (List.cons_ne_nil _ _), if_neg ends]
      rfl
    have cut : trimBack true ((text ++ '/' :: name).splitOn '/').reverse = name :: (last :: before) := by
      rw [splitOn_rsplit plain, front, List.reverse_append, List.reverse_reverse]
      exact trimBack_cons some_ dot _
    rw [joined]
    refine ⟨rfl, ?_⟩
    rw [parentPath_cons cut, trimmed, whole]

section Local

variable {path name : List Char} (absolute : path.head? = some '/') (plain : '/' ∉ name) (some_ : name ≠ []) (dot : name ≠ ['.'])

include absolute plain some_ dot

theorem joinPath_beside_iff :
    (joinPath ((parentPath path).getD []) name).head? = some '/' ∧
        parentPath (joinPath ((parentPath path).getD []) name) = parentPath path ↔
      parentPath path ≠ none := by
  cases found : parentPath path with
  | none =>
    have joined : joinPath ((none : Option (List Char)).getD []) name = name := rfl
    rw [joined]
    exact ⟨fun kept => absurd kept.1 (head_plain plain), fun top => absurd rfl top⟩
  | some parent => exact iff_of_true (parentPath_joinPath absolute found plain some_ dot) (by simp)

end Local

theorem localTemporaryBeside_iff {destination : LocalPath} (absolute : destination.chars.head? = some '/')
    (transferId : TransferId) :
    LocalTemporaryBeside destination transferId ↔ parentPath destination.chars ≠ none := by
  have plain := partName_plain (destinationName_plain destination) transferId
  have long := partName_length (destinationName destination) transferId
  have some_ : partName (destinationName destination) transferId ≠ [] := fun same => by simp [same] at long
  have dot : partName (destinationName destination) transferId ≠ ['.'] := fun same => by simp [same] at long
  rw [← joinPath_beside_iff absolute plain some_ dot]
  constructor
  · exact fun kept => ⟨kept.absolute, kept.beside⟩
  · rintro ⟨rooted, beside⟩
    refine ⟨rooted, beside, ?_, ?_⟩
    · exact fun same => localTemporaryPath_ne destination transferId (congrArg LocalPath.chars same)
    · intro other apart same
      exact apart (partName_injective (joinPath_injective (congrArg LocalPath.chars same)))

theorem renamedLocal_iff {destination : LocalPath} (absolute : destination.chars.head? = some '/') {newName : List Char}
    (plain : '/' ∉ newName) (some_ : newName ≠ []) (dot : newName ≠ ['.']) (dots : newName ≠ ['.', '.']) :
    RenamedBeside newName (.local destination) (renamedEndpoint newName (.local destination)) ↔
      parentPath destination.chars ≠ none := by
  rw [← joinPath_beside_iff absolute plain some_ dot]
  constructor
  · exact fun kept => ⟨kept.1, kept.2.1⟩
  · exact fun kept => ⟨kept.1, kept.2, fileName_joinPath plain some_ dot dots⟩

theorem renameDestination_ok {job renamed : TransferJob} {newName : List Char}
    (accepted : renameDestination job newName = .ok renamed) :
    renamed.destination = renamedEndpoint newName job.destination ∧
      newName ≠ [] ∧ newName ≠ ['.'] ∧ newName ≠ ['.', '.'] ∧ '/' ∉ newName := by
  unfold renameDestination at accepted
  split_ifs at accepted with refused
  cases accepted
  simp only [not_or] at refused
  exact ⟨rfl, refused⟩

def AbsoluteDestination : TransferEndpoint → Prop
  | .remote destination => destination.chars.head? = some '/' ∧ lastComponent destination.chars ≠ []
  | .local destination => destination.chars.head? = some '/'

/-- A remote path with a directory above it that is not the root, a local one that is not the root itself. -/
def Nested : TransferEndpoint → Prop
  | .remote destination => '/' ∈ destination.chars.tail
  | .local destination => parentPath destination.chars ≠ none

def TemporaryStays : TransferEndpoint → TransferId → Prop
  | .remote destination => TemporaryBeside destination
  | .local destination => LocalTemporaryBeside destination

/-- Temporary and renamed files stay beside a remote destination exactly when it is not right under the root, and
beside a local one exactly when it is not the root itself. -/
theorem stays_beside_iff {destination : TransferEndpoint} (absolute : AbsoluteDestination destination) :
    (∀ transferId, TemporaryStays destination transferId ↔ Nested destination) ∧
      ∀ job newName renamed, job.destination = destination → renameDestination job newName = .ok renamed →
        (RenamedBeside newName job.destination renamed.destination ↔ Nested destination) := by
  cases destination with
  | remote destination =>
    obtain ⟨path⟩ := destination
    replace absolute := absolute.1
    obtain ⟨parent, name, rfl, plain⟩ := exists_rsplit (List.mem_of_mem_head? absolute)
    have nested : Nested (.remote ⟨parent ++ '/' :: name⟩) ↔ parent ≠ [] := slash_in_tail plain
    rw [nested]
    constructor
    · intro transferId
      constructor
      · rintro kept rfl
        exact remoteTemporaryPath_relative plain transferId kept
      · intro nested
        exact remoteTemporaryPath_beside plain transferId nested ((head_append nested _).symm.trans absolute)
    · intro job newName renamed is accepted
      obtain ⟨moved, -, -, -, free⟩ := renameDestination_ok accepted
      rw [moved, is]
      exact renamedRemote_iff plain free absolute
  | «local» destination =>
    refine ⟨localTemporaryBeside_iff absolute, ?_⟩
    intro job newName renamed is accepted
    obtain ⟨moved, some_, dot, dots, free⟩ := renameDestination_ok accepted
    rw [moved, is]
    exact renamedLocal_iff absolute free some_ dot dots

def reportJob (destination : RemotePath) : TransferJob where
  id := ⟨4⟩
  direction := .upload
  source := .local (.new "/home/report.txt")
  destination := .remote destination
  state := .queued
  metadataPolicy := {}
  conflictPolicy := .ask
  warnings := []
  createdAt := ⟨0⟩

theorem nested_stays_beside : TemporaryBeside (.new "/srv/report.txt") ⟨4⟩ ∧
    RenamedBeside "b.txt".toList (.remote (.new "/srv/report.txt")) (.remote (.new "/srv/b.txt")) := by
  have absolute : AbsoluteDestination (.remote (.new "/srv/report.txt")) := ⟨by decide, by decide⟩
  have nested : Nested (.remote (.new "/srv/report.txt")) := by
    change '/' ∈ (RemotePath.new "/srv/report.txt").chars.tail
    decide
  obtain ⟨temporary, renamed⟩ := stays_beside_iff absolute
  refine ⟨(temporary ⟨4⟩).mpr nested, ?_⟩
  exact (renamed (reportJob (.new "/srv/report.txt")) "b.txt".toList (reportJob (.new "/srv/b.txt")) rfl (by decide)).mpr nested

theorem top_level_goes_home :
    ((RemotePath.new "/report.txt").chars.head? = some '/' ∧ lastComponent (RemotePath.new "/report.txt").chars ≠ []) ∧
    (remoteTemporaryPath (.new "/report.txt") ⟨4⟩ = .new ".report.txt.macsftp-part-4" ∧
      ¬ TemporaryBeside (.new "/report.txt") ⟨4⟩) ∧
    renameDestination (reportJob (.new "/report.txt")) "b.txt".toList = .ok (reportJob (.new "b.txt")) ∧
      ¬ RenamedBeside "b.txt".toList (.remote (.new "/report.txt")) (.remote (.new "b.txt")) := by
  refine ⟨⟨by decide, by decide⟩, ⟨by decide, fun kept => ?_⟩, by decide, fun kept => ?_⟩
  · exact absurd kept.absolute (by decide)
  · exact absurd kept.1 (by decide)

end MacSftp
