import MacSftp.Planner.DownloadWalk

namespace MacSftp.DownloadPlanning

open Lib Program UploadPlanning

/-- A name that an entry can have and that is downloaded. -/
structure Named (name : List Char) : Prop where
  plain : '/' ∉ name
  some_ : name ≠ []
  dot : name ≠ ['.']
  up : name ≠ ['.', '.']
  safe : name.any isBidiOrControl = false

/-- All that is below the source has such names. -/
def Safe : Rose RemoteEntry → Prop := Rose.All fun _ children => ∀ c ∈ children, Named c.label.name

def pathOf (fs : RemoteFs) (source : List Char) (names : List (List Char)) : List Char := names.foldl fs.entryPath source

def relativeOf (names : List (List Char)) : List Char := ['/'].intercalate names

def destinationOf (root : List Char) (names : List (List Char)) : List Char :=
  if names = [] then root else joinPath root (relativeOf names)

section Names

variable {fs : RemoteFs} {names : List (List Char)} {name : List Char}

theorem relativeOf_concat (some_ : names ≠ []) (name : List Char) :
    relativeOf (names ++ [name]) = relativeOf names ++ '/' :: name := by
  unfold relativeOf
  induction names with
  | nil => exact absurd rfl some_
  | cons first rest ih =>
    cases rest with
    | nil => simp [List.intercalate]
    | cons second rest =>
      have below := ih (List.cons_ne_nil _ _)
      simp only [List.intercalate, List.intersperse, List.cons_append, List.flatten_cons] at below ⊢
      rw [below]
      simp

theorem relativeOf_last (valid : ∀ name ∈ names, Named name) (some_ : names ≠ []) :
    relativeOf names ≠ [] ∧ (relativeOf names).getLast? ≠ some '/' := by
  obtain rfl | ⟨front, last, rfl⟩ := List.eq_nil_or_concat names
  · exact absurd rfl some_
  rw [List.concat_eq_append] at valid ⊢
  have named := valid last (List.mem_append_right _ (List.mem_singleton_self _))
  have ends : ∀ before : List Char, (before ++ last) ≠ [] ∧ (before ++ last).getLast? ≠ some '/' := by
    intro before
    refine ⟨List.append_ne_nil_of_right_ne_nil _ named.some_, fun slash => named.plain ?_⟩
    rw [List.getLast?_append_of_ne_nil _ named.some_] at slash
    exact List.mem_of_getLast? slash
  by_cases alone : front = []
  · subst alone
    simpa [relativeOf, List.intercalate] using ends []
  · rw [relativeOf_concat alone, List.append_cons]
    exact ends _

theorem relativeOf_first (valid : ∀ name ∈ names, Named name) (some_ : names ≠ []) : (relativeOf names).head? ≠ some '/' := by
  obtain ⟨first, rest, rfl⟩ := List.exists_cons_of_ne_nil some_
  have named := valid first List.mem_cons_self
  obtain ⟨c, tail, rfl⟩ := List.exists_cons_of_ne_nil named.some_
  have front : ∃ more, relativeOf ((c :: tail) :: rest) = c :: more := by
    cases rest with
    | nil => exact ⟨tail, by simp [relativeOf, List.intercalate]⟩
    | cons second rest =>
      refine ⟨tail ++ '/' :: relativeOf (second :: rest), ?_⟩
      simp [relativeOf, List.intercalate]
  obtain ⟨more, is⟩ := front
  rw [is]
  rintro ⟨⟩
  exact named.plain List.mem_cons_self

theorem pathOf_eq (joins : fs.Joins) (source : List Char) (valid : ∀ name ∈ names, Named name) (some_ : names ≠ []) :
    pathOf fs source names = source ++ '/' :: relativeOf names ∨ pathOf fs source names = source ++ relativeOf names := by
  induction names using List.reverseRecOn with
  | nil => exact absurd rfl some_
  | append_singleton front name ih =>
    have step : pathOf fs source (front ++ [name]) = fs.entryPath (pathOf fs source front) name := by
      rw [pathOf, List.foldl_append]
      rfl
    by_cases alone : front = []
    · subst alone
      have only : relativeOf [name] = name := by simp [relativeOf, List.intercalate]
      rw [step]
      show fs.entryPath source name = source ++ '/' :: relativeOf [name] ∨ fs.entryPath source name = source ++ relativeOf [name]
      rw [only]
      exact (joins source name).imp_right And.right
    · have before := ih (fun name mem => valid name (List.mem_append_left _ mem)) alone
      obtain ⟨inside, last⟩ := relativeOf_last (fun name mem => valid name (List.mem_append_left _ mem)) alone
      have ends : (pathOf fs source front).getLast? ≠ some '/' := by
        rcases before with is | is
        · rw [is, List.append_cons, List.getLast?_append_of_ne_nil _ inside]
          exact last
        · rw [is, List.getLast?_append_of_ne_nil _ inside]
          exact last
      rcases joins (pathOf fs source front) name with slash | ⟨never, _⟩
      · rw [step, slash, relativeOf_concat alone]
        rcases before with is | is
        · rw [is]
          exact Or.inl (by simp)
        · rw [is]
          exact Or.inr (by simp)
      · exact absurd never ends

theorem relativePath_pathOf (joins : fs.Joins) (source : List Char) (valid : ∀ name ∈ names, Named name) (some_ : names ≠ []) :
    relativePath source (pathOf fs source names) = some (relativeOf names) := by
  obtain ⟨inside, _⟩ := relativeOf_last valid some_
  have first := relativeOf_first valid some_
  have trimmed : (relativeOf names).dropWhile (· = '/') = relativeOf names := by
    obtain ⟨c, rest, is⟩ := List.exists_cons_of_ne_nil inside
    rw [is] at first ⊢
    have other : c ≠ '/' := fun same => first (by rw [same]; rfl)
    exact List.dropWhile_cons_of_neg (by simpa using other)
  unfold relativePath
  rcases pathOf_eq joins source valid some_ with is | is
  · rw [is, if_pos (List.prefix_append _ _), List.drop_left, List.dropWhile_cons_of_pos (by rfl), trimmed]
    simp [inside]
  · rw [is, if_pos (List.prefix_append _ _), List.drop_left, trimmed]
    simp [inside]

theorem components_relativeOf (valid : ∀ name ∈ names, Named name) (some_ : names ≠ []) :
    components (relativeOf names) = names.map .normal := by
  have split : (relativeOf names).splitOn '/' = names := List.splitOn_intercalate '/' (fun name mem => (valid name mem).plain) some_
  have first : names.head? ≠ some ['.'] := fun dot => (valid ['.'] (List.mem_of_mem_head? dot)).dot rfl
  have kept : names.filter (fun c => decide (c ≠ [] ∧ c ≠ ['.'])) = names := by
    refine List.filter_eq_self.mpr fun name mem => ?_
    simpa using ⟨(valid name mem).some_, (valid name mem).dot⟩
  simp only [components]
  rw [if_neg (relativeOf_first valid some_), split, if_neg first, kept]
  exact List.map_congr_left fun name mem => if_neg (valid name mem).up

theorem relativeOf_safe (valid : ∀ name ∈ names, Named name) : (relativeOf names).any isBidiOrControl = false := by
  induction names using List.reverseRecOn with
  | nil => rfl
  | append_singleton front name ih =>
    have before := ih fun name mem => valid name (List.mem_append_left _ mem)
    have last := (valid name (List.mem_append_right _ (List.mem_singleton_self _))).safe
    by_cases alone : front = []
    · subst alone
      simpa [relativeOf, List.intercalate] using last
    · have slash : isBidiOrControl '/' = false := by decide
      rw [relativeOf_concat alone, List.any_append, List.any_cons, before, slash, last]
      rfl

end Names

/-- An entry by the labels on the way to it, the source itself first. -/
def Emission.at (fs : RemoteFs) (source root : List Char) (route : List RemoteEntry) : Emission where
  source := pathOf fs source (route.tail.map RemoteEntry.name)
  destination := destinationOf root (route.tail.map RemoteEntry.name)
  size := route.getLast?.bind RemoteEntry.size

/-- A directory that is to be scanned, with the way to it. -/
abbrev Scan := List RemoteEntry × Rose RemoteEntry

def Scan.route (scan : Scan) : List RemoteEntry := scan.1 ++ [scan.2.label]

def Scan.path (fs : RemoteFs) (source : List Char) (scan : Scan) : List Char :=
  pathOf fs source (scan.route.tail.map RemoteEntry.name)

structure Scan.Ready (fs : RemoteFs) (source : List Char) (scan : Scan) : Prop where
  named : ∀ name ∈ scan.route.tail.map RemoteEntry.name, Named name
  shown : fs.Shows (scan.path fs source) scan.2
  dir : scan.2.label.isDir = true
  safe : Safe scan.2

/-- The directories among the children of a node. -/
def subdirectories (route : List RemoteEntry) (children : List (Rose RemoteEntry)) : List Scan :=
  (children.filter fun c => c.label.isDir).map fun c => (route, c)

/-- Nothing comes before the directory that it is in. -/
def ParentsFirst (order : List (List RemoteEntry)) : Prop :=
  ∀ before route entry after, order = before ++ (route ++ [entry]) :: after → route = [] ∨ route ∈ before

section Walk

variable {fs : RemoteFs} {plan : RemoteDownloadPlanner} {emissions : List Emission} {planner : Planner} {source root : List Char}

theorem Scan.tail_route (scan : Scan) (entry : RemoteEntry) :
    (scan.route ++ [entry]).tail.map RemoteEntry.name = scan.route.tail.map RemoteEntry.name ++ [entry.name] := by
  have some_ : scan.route ≠ [] := List.append_ne_nil_of_right_ne_nil _ (List.cons_ne_nil _ _)
  rw [List.tail_append_of_ne_nil some_, List.map_append, List.map_singleton]

theorem pathOf_concat (names : List (List Char)) (name : List Char) :
    pathOf fs source (names ++ [name]) = fs.entryPath (pathOf fs source names) name := by
  rw [pathOf, List.foldl_append]
  rfl

theorem localDownloadDestination_returns {names : List (List Char)} (valid : ∀ name ∈ names, Named name) (some_ : names ≠ []) :
    Returns fs (Emits plan emissions planner) (localDownloadDestination ⟨root⟩ (relativeOf names)) (fun destination past w =>
      Emits plan emissions planner past w ∧ destination = ⟨destinationOf root names⟩) := by
  have fine : ¬ ((relativeOf names).any isBidiOrControl ∨
    (components (relativeOf names)).any (fun component => !isNormal component)) := by
    rw [relativeOf_safe valid, components_relativeOf valid some_]
    simp [isNormal]
  unfold localDownloadDestination destinationOf
  rw [if_neg fine, if_neg some_]
  exact returns_pure fun _ _ emits => ⟨emits, rfl⟩

theorem planEntry_returns (joins : fs.Joins) {scan : Scan} {child : Rose RemoteEntry} {entry : DirEntry}
    (valid : ∀ name ∈ (scan.route ++ [child.label]).tail.map RemoteEntry.name, Named name)
    (shown : fs.Shows (fs.entryPath (scan.path fs source) child.label.name) child)
    (tells : fs.Tells (scan.path fs source) child.label.name entry) (waiting : List Scan) :
    Returns fs (Emits plan emissions planner) (plan.planEntry ⟨source⟩ ⟨root⟩ planner (waiting.map (Scan.path fs source)) entry)
      (fun found past w => Emits plan (emissions ++ [Emission.at fs source root (scan.route ++ [child.label])]) found.1 past w ∧
        found.2 = (subdirectories scan.route [child] ++ waiting).map (Scan.path fs source)) := by
  obtain ⟨path, told⟩ := tells
  have some_ : (scan.route ++ [child.label]).tail.map RemoteEntry.name ≠ [] := by
    rw [scan.tail_route]
    exact List.append_ne_nil_of_right_ne_nil _ (List.cons_ne_nil _ _)
  have here : entry.path = pathOf fs source ((scan.route ++ [child.label]).tail.map RemoteEntry.name) := by
    rw [path, scan.tail_route, pathOf_concat]
    rfl
  have relative : relativePath source entry.path = some (relativeOf ((scan.route ++ [child.label]).tail.map RemoteEntry.name)) := by
    rw [here]
    exact relativePath_pathOf joins source valid some_
  obtain ⟨node, is, size, dir⟩ := shown.node
  rw [← path] at is
  obtain ⟨kind, known⟩ := told node is
  have emitted (size' : Option Nat) (same : size' = child.label.size) :
      (⟨entry.path, destinationOf root ((scan.route ++ [child.label]).tail.map RemoteEntry.name), size'⟩ : Emission) =
        Emission.at fs source root (scan.route ++ [child.label]) := by
    rw [Emission.at, here, same, List.getLast?_concat]
    rfl
  unfold RemoteDownloadPlanner.planEntry
  apply returns_bind ensureNotCancelled_returns
  intro _
  rw [relative]
  apply returns_bind (localDownloadDestination_returns valid some_)
  intro destination
  apply returns_fact
  rintro rfl
  by_cases folder : entry.kind = .dir
  · have isDir : child.label.isDir = true := dir.mpr (kind.symm.trans folder)
    have nothing : some 0 = child.label.size := by
      rw [size]
      cases node with
      | item kind' plain size => exact absurd (kind.symm.trans folder) plain
      | directory names => rfl
    have pushed : subdirectories scan.route [child] = [(scan.route, child)] := by simp [subdirectories, isDir]
    rw [if_pos folder, pushed, ← emitted (some 0) nothing]
    apply returns_bind (emitChild_returns _ _ _)
    intro after
    refine returns_pure fun _ _ emits => ⟨emits, ?_⟩
    rw [List.map_append, List.map_singleton]
    exact congrArg (· :: waiting.map (Scan.path fs source)) here
  · have isDir : ¬ child.label.isDir = true := fun isDir => folder (kind.trans (dir.mp isDir))
    have pushed : subdirectories scan.route [child] = [] := by simp [subdirectories, isDir]
    rw [if_neg folder, pushed, ← emitted entry.size ((known folder).trans size.symm)]
    apply returns_bind (emitChild_returns _ _ _)
    intro after
    exact returns_pure fun _ _ emits => ⟨emits, rfl⟩

theorem subdirectories_cons (route : List RemoteEntry) (child : Rose RemoteEntry) (children : List (Rose RemoteEntry)) :
    subdirectories route (child :: children) = subdirectories route [child] ++ subdirectories route children := by
  rw [subdirectories, List.filter_cons]
  split_ifs with dir <;> simp [subdirectories, dir]

theorem planEntries_returns (joins : fs.Joins) {scan : Scan} {children : List (Rose RemoteEntry)} {entries : List DirEntry}
    (valid : ∀ c ∈ children, ∀ name ∈ (scan.route ++ [c.label]).tail.map RemoteEntry.name, Named name)
    (shown : ∀ c ∈ children, fs.Shows (fs.entryPath (scan.path fs source) c.label.name) c)
    (tells : List.Forall₂ (fun c => fs.Tells (scan.path fs source) c.label.name) children entries) (waiting : List Scan) :
    Returns fs (Emits plan emissions planner) (plan.planEntries ⟨source⟩ ⟨root⟩ planner (waiting.map (Scan.path fs source)) entries)
      (fun found past w =>
        Emits plan (emissions ++ children.map fun c => Emission.at fs source root (scan.route ++ [c.label])) found.1 past w ∧
          ∃ more : List Scan, found.2 = more.map (Scan.path fs source) ∧
            more.Perm (subdirectories scan.route children ++ waiting)) := by
  induction tells generalizing emissions planner waiting with
  | nil =>
    apply returns_pure
    intro past w emits
    rw [List.map_nil, List.append_nil]
    exact ⟨emits, waiting, rfl, List.Perm.refl _⟩
  | @cons c entry children entries first rest ih =>
    unfold RemoteDownloadPlanner.planEntries
    apply returns_bind (planEntry_returns joins (valid c List.mem_cons_self) (shown c List.mem_cons_self) first waiting)
    rintro ⟨after, found⟩
    apply returns_fact
    rintro (rfl : found = _)
    have below := @ih (emissions ++ [Emission.at fs source root (scan.route ++ [c.label])]) after
      (fun d mem => valid d (List.mem_cons_of_mem c mem)) (fun d mem => shown d (List.mem_cons_of_mem c mem))
      (subdirectories scan.route [c] ++ waiting)
    rw [List.map_cons, List.append_cons emissions _ (children.map fun c => Emission.at fs source root (scan.route ++ [c.label]))]
    refine returns_mono below ?_
    rintro found past w ⟨emits, more, is, same⟩
    refine ⟨emits, more, is, same.trans ?_⟩
    rw [subdirectories_cons scan.route c children, List.append_assoc]
    exact List.perm_append_comm_assoc _ _ _

theorem spawnScans_split (inFlight pending : List (List Char)) :
    ∃ started rest, pending = started ++ rest ∧ spawnScans inFlight pending = (inFlight ++ started, rest) := by
  induction pending generalizing inFlight with
  | nil => exact ⟨[], [], rfl, by rw [spawnScans, List.append_nil]⟩
  | cons current pending ih =>
    rw [spawnScans]
    split_ifs with room
    · obtain ⟨started, rest, is, spawned⟩ := ih (inFlight ++ [current])
      refine ⟨current :: started, rest, ?_, ?_⟩
      · rw [is, List.cons_append]
      · rw [spawned, List.append_assoc]
        rfl
    · exact ⟨[], current :: pending, rfl, by rw [List.append_nil]⟩

theorem spawnScans_idle {inFlight pending : List (List Char)} (idle : (spawnScans inFlight pending).1 = []) :
    inFlight = [] ∧ pending = [] := by
  induction pending generalizing inFlight with
  | nil => exact ⟨idle, rfl⟩
  | cons current pending ih =>
    rw [spawnScans] at idle
    split_ifs at idle with room
    · exact absurd (ih idle).1 (List.append_ne_nil_of_right_ne_nil _ (List.cons_ne_nil _ _))
    · refine absurd (show inFlight.length < maxConcurrentDirScans from ?_) room
      rw [show inFlight = [] from idle]
      decide

theorem ParentsFirst.concat {order : List (List RemoteEntry)} (parents : ParentsFirst order) {route : List RemoteEntry}
    (mem : route ∈ order) (entries : List RemoteEntry) : ParentsFirst (order ++ entries.map fun entry => route ++ [entry]) := by
  induction entries using List.reverseRecOn with
  | nil => simpa using parents
  | append_singleton entries last ih =>
    intro before route' entry after is
    rw [List.map_append, ← List.append_assoc, List.map_singleton] at is
    obtain rfl | ⟨front, final, rfl⟩ := List.eq_nil_or_concat after
    · obtain ⟨rfl, same⟩ := List.append_inj' is rfl
      obtain ⟨rfl, -⟩ := List.append_inj' (List.cons.inj same).1 rfl
      exact Or.inr (List.mem_append_left _ mem)
    · rw [List.concat_eq_append, ← List.cons_append, ← List.append_assoc] at is
      exact ih before route' entry front (List.append_inj' is rfl).1

end Walk

end MacSftp.DownloadPlanning
