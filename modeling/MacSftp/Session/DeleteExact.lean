import MacSftp.Session.Removal

namespace MacSftp.Session

open Lib Program

namespace ServerTree

variable {home : Place} {t t' u : ServerTree} {place : Place} {path : RemotePath}

/-- The place that a deletion names by one of its entries. -/
def Targets (home : Place) (t : ServerTree) (entry : FsEntryRef) (place : Place) : Prop :=
  ∃ path, entry.path = .remote path ∧ t.Names home path place

/-- An entry as listings give it: not the root, and marked as a directory only when it is no link. -/
def Refers (home : Place) (t : ServerTree) (entry : FsEntryRef) : Prop :=
  ∀ place, Targets home t entry place → place ≠ [] ∧ (entry.isDir = true → (t.node place).bind ServerNode.linkText = none)

/-- A removal that is asked for is one of a node at or below the place of the entry, and of a directory only when nothing is
left in it. -/
def IssuedFor (home : Place) (t : ServerTree) (entry : FsEntryRef) (a : Asked ServerTree SessionOp SessionOp.Answer) : Prop :=
  ∀ q, a.op.removes = some q → ∃ path names, entry.path = .remote path ∧ q = joinAll path names ∧ refusesDeletion q = false ∧
    ∀ place, a.before.Names home q place → ∃ top, t.Names home path top ∧ place = top ++ names ∧
      (a.op = .removeDir q → ∀ name, a.before.node (place ++ [name]) = none)

/-- What the deletion of one entry does, seen from the tree in which the entries are named. -/
structure DeletesEntry (home : Place) (origin : ServerTree) (entry : FsEntryRef) (t t' : ServerTree) (asked : DeleteLog)
    (result : Except DeleteStop Unit) : Prop where
  outside : ∀ other, t'.node other = t.node other ∨
    ((∃ place, Targets home origin entry place ∧ place <+: other) ∧ t'.node other = none)
  issued : ∀ a ∈ asked, IssuedFor home origin entry a
  gone : result = .ok () → ∀ place, Targets home origin entry place → t'.node place = none
  finished : result ≠ .error .unfinished

theorem runs_deletePath {fuel : Nat} {isDir : Bool} {asked : DeleteLog} {result : Except DeleteStop Unit}
    (names : NamesOnly home t path place) (leads : isDir = true → LeadsOnly home t path place) (deep : Deep t place fuel)
    (run : Runs home t (deleteEntry fuel ⟨.remote path, isDir⟩) asked t' result) :
    Cleans home path place t t' asked ∧ (result = .ok () → t'.node place = none) ∧ result ≠ .error .unfinished := by
  change Runs home t (if refusesDeletion path then fail rootDeletionError else if isDir then removeRemoteDirRecursive fuel path
    else _) asked t' result at run
  split_ifs at run with refused directory
  · obtain ⟨rfl, rfl, rfl⟩ := runs_done run
    exact ⟨.nil t', nofun, by simp⟩
  · exact runs_removeRemoteDirRecursive home fuel _ _ _ _ _ _ names (leads directory) deep run
  · obtain ⟨answer, after, rest, rfl, does, later⟩ := runs_ask run
    obtain ⟨rfl, rfl, returned, finished⟩ := runs_orFail later
    obtain ⟨cleans, gone⟩ := cleans_removal rfl does names (Bool.eq_false_of_not_eq_true refused) nofun
    refine ⟨cleans, ?_, finished⟩
    intro ok
    rw [(returned ()).mp ok] at gone
    exact gone rfl

theorem runs_deleteEntry {origin : ServerTree} {fuel : Nat} {entry : FsEntryRef} {asked : DeleteLog}
    {result : Except DeleteStop Unit} (refers : Refers home origin entry) (shrinks : origin.Shrinks t)
    (deep : ∀ place, Deep origin place fuel) (run : Runs home t (deleteEntry fuel entry) asked t' result) :
    DeletesEntry home origin entry t t' asked result := by
  obtain ⟨path | path, isDir⟩ := entry
  · obtain ⟨rfl, rfl, rfl⟩ := runs_done run
    exact ⟨fun _ => .inl rfl, fun _ never => absurd never List.not_mem_nil, nofun, by simp⟩
  have at_ (place : Place) (names : NamesOnly home origin path place) (leads : isDir = true → LeadsOnly home origin path place) :=
    runs_deletePath (names.shrinks shrinks) (fun directory => (leads directory).shrinks shrinks) ((deep place).shrinks shrinks) run
  by_cases named : ∃ top, origin.Names home path top
  · obtain ⟨top, named⟩ := named
    have only : NamesOnly home origin path top := fun other names => LinkedFs.Names.unique names named
    have leads : isDir = true → LeadsOnly home origin path top := by
      intro directory other resolves
      have plain := (refers top ⟨path, rfl, named⟩).2 directory
      exact LinkedFs.Resolves.unique resolves (LinkedFs.Names.resolves named plain)
    obtain ⟨cleans, gone, finished⟩ := at_ top only leads
    refine ⟨?_, ?_, ?_, finished⟩
    · intro other
      exact (cleans.outside other).imp_right fun changed => ⟨⟨top, ⟨path, rfl, named⟩, changed.1⟩, changed.2⟩
    · intro a mem q removes
      obtain ⟨names, joined, below, taken, empty⟩ := cleans.issued a mem q removes
      refine ⟨path, names, rfl, joined, taken, ?_⟩
      intro place there
      obtain rfl := below place there
      exact ⟨top, named, rfl, empty⟩
    · rintro ok place ⟨_, same, names⟩
      cases same
      rw [only place names]
      exact gone ok
  · -- nothing is named, so that any place would do, and two different ones show that nothing happens
    have nowhere (place : Place) := at_ place (fun other names => absurd ⟨other, names⟩ named) fun _ other resolves =>
      absurd (LinkedFs.Resolves.named resolves) named
    obtain ⟨first, _, finished⟩ := nowhere [['a']]
    obtain ⟨second, _, _⟩ := nowhere [['b']]
    have apart : ∀ other : Place, ¬ ([['a']] <+: other ∧ [['b']] <+: other) := by
      rintro other ⟨⟨x, rfl⟩, y, same⟩
      simp at same
    refine ⟨?_, ?_, ?_, finished⟩
    · intro other
      rcases first.outside other with same | ⟨one, _⟩
      · exact .inl same
      · rcases second.outside other with same | ⟨two, _⟩
        · exact .inl same
        · exact absurd ⟨one, two⟩ (apart other)
    · intro a mem q removes
      obtain ⟨names, joined, below, taken, _⟩ := first.issued a mem q removes
      obtain ⟨_, _, below', _⟩ := second.issued a mem q removes
      refine ⟨path, names, rfl, joined, taken, ?_⟩
      intro place there
      have one := below place there
      exact absurd ⟨one ▸ List.prefix_append _ _, below' place there ▸ List.prefix_append _ _⟩ (apart place)
    · rintro _ place ⟨_, same, names⟩
      cases same
      exact absurd ⟨place, names⟩ named

theorem DeletesEntry.shrinks {origin : ServerTree} {entry : FsEntryRef} {asked : DeleteLog} {result : Except DeleteStop Unit}
    (deletes : DeletesEntry home origin entry t t' asked result) : t.Shrinks t' :=
  fun other => (deletes.outside other).imp_right And.right

theorem exists_deep (t : ServerTree) : ∃ depth, ∀ fuel, depth ≤ fuel → ∀ place, Deep t place fuel := by
  obtain ⟨depth, bound⟩ := t.exists_depth
  refine ⟨depth, ?_⟩
  intro fuel enough place
  constructor
  · have root := bound [] (by rw [t.root]; exact Option.some_ne_none _)
    exact Nat.lt_of_lt_of_le root enough
  · intro below present
    have short := bound _ present
    rw [List.length_append] at short
    omega

/-- Nothing but what lies at or below the places of these entries is another than before. -/
def ChangesOnly (home : Place) (origin : ServerTree) (entries : List FsEntryRef) (t t' : ServerTree) : Prop :=
  ∀ other, (∀ entry ∈ entries, ∀ place, Targets home origin entry place → ¬ place <+: other) → t'.node other = t.node other

theorem DeletesEntry.changesOnly {origin : ServerTree} {entry : FsEntryRef} {asked : DeleteLog} {result : Except DeleteStop Unit}
    (deletes : DeletesEntry home origin entry t t' asked result) : ChangesOnly home origin [entry] t t' := by
  intro other away
  rcases deletes.outside other with same | ⟨⟨place, target, inside⟩, _⟩
  · exact same
  · exact absurd inside (away entry List.mem_cons_self place target)

theorem ChangesOnly.trans {origin : ServerTree} {front back : List FsEntryRef} (first : ChangesOnly home origin front t t')
    (second : ChangesOnly home origin back t' u) : ChangesOnly home origin (front ++ back) t u := by
  intro other away
  rw [second other fun entry mem => away entry (List.mem_append_right _ mem)]
  exact first other fun entry mem => away entry (List.mem_append_left _ mem)

/-- The deletion stopped at an entry with an error: the entries before it are deleted, and those after it are not begun. -/
structure StopsAt (home : Place) (fuel : Nat) (origin t t' : ServerTree) (entries : List FsEntryRef) (asked : DeleteLog)
    (error : UserFacingError) (done rest : List FsEntryRef) (failing : FsEntryRef) (middle : ServerTree) (before last : DeleteLog) :
    Prop where
  entries : entries = done ++ failing :: rest
  asked : asked = before ++ last
  deleted : Runs home t (deleteEntries fuel done) before middle (.ok ())
  failed : Runs home middle (deleteEntry fuel failing) last t' (.error (.failed error))
  changes : ChangesOnly home origin (done ++ [failing]) t t'

theorem runs_deleteEntries {origin : ServerTree} {fuel : Nat} {entries : List FsEntryRef}
    (refers : ∀ entry ∈ entries, Refers home origin entry) (deep : ∀ place, Deep origin place fuel) (shrinks : origin.Shrinks t)
    {asked : DeleteLog} {result : Except DeleteStop Unit} (run : Runs home t (deleteEntries fuel entries) asked t' result) :
    t.Shrinks t' ∧ (∀ a ∈ asked, ∃ entry ∈ entries, IssuedFor home origin entry a) ∧
      ((result = .ok () ∧ ChangesOnly home origin entries t t' ∧
          ∀ entry ∈ entries, ∀ place, Targets home origin entry place → t'.node place = none) ∨
        ∃ error done rest failing middle before last, result = .error (.failed error) ∧
          StopsAt home fuel origin t t' entries asked error done rest failing middle before last) := by
  induction entries generalizing t asked with
  | nil =>
    obtain ⟨rfl, rfl, rfl⟩ := runs_done run
    exact ⟨.refl t', fun _ never => absurd never List.not_mem_nil,
      .inl ⟨rfl, fun _ _ => rfl, fun _ never => absurd never List.not_mem_nil⟩⟩
  | cons entry entries ih =>
    rcases run.of_bind with ⟨e, failed, rfl⟩ | ⟨before, last, v, ⟨⟩, rfl, first, second⟩
    · have deletes := runs_deleteEntry (refers entry List.mem_cons_self) shrinks deep failed
      refine ⟨deletes.shrinks, fun a mem => ⟨entry, List.mem_cons_self, deletes.issued a mem⟩, .inr ?_⟩
      cases e with
      | unfinished => exact absurd rfl deletes.finished
      | failed error => exact ⟨error, [], entries, entry, t, [], asked, rfl, rfl, rfl, .done _ _, failed, deletes.changesOnly⟩
    · have deletes := runs_deleteEntry (refers entry List.mem_cons_self) shrinks deep first
      obtain ⟨shrinks', issued, ended⟩ := ih (fun other mem => refers other (List.mem_cons_of_mem _ mem))
        (shrinks.trans deletes.shrinks) second
      refine ⟨deletes.shrinks.trans shrinks', ?_, ?_⟩
      · intro a mem
        rcases List.mem_append.mp mem with mem | mem
        · exact ⟨entry, List.mem_cons_self, deletes.issued a mem⟩
        · obtain ⟨other, listed, issued⟩ := issued a mem
          exact ⟨other, List.mem_cons_of_mem _ listed, issued⟩
      · rcases ended with ⟨ok, changes, gone⟩ | ⟨error, done, rest, failing, middle, before', last', ended, stops⟩
        · refine .inl ⟨ok, deletes.changesOnly.trans changes, ?_⟩
          intro other mem place target
          rcases List.mem_cons.mp mem with rfl | mem
          · rcases shrinks' place with same | missing
            · rw [same]
              exact deletes.gone rfl place target
            · exact missing
          · exact gone other mem place target
        · refine .inr ⟨error, entry :: done, rest, failing, middle, before ++ before', last', ended, ?_⟩
          refine ⟨by rw [stops.entries]; rfl, by rw [stops.asked, List.append_assoc], ?_, stops.failed, ?_⟩
          · exact first.bind stops.deleted
          · exact deletes.changesOnly.trans stops.changes

/-- Every removal that is asked for is one of a named entry or of what is below it, and of a directory after all that is in it;
a deletion that returns leaves nothing of the named subtrees and everything else; one that stops leaves everything outside
the subtrees of the entries up to the failing one. -/
theorem delete_exact (home : Place) (t : ServerTree) (entries : List FsEntryRef) (refers : ∀ entry ∈ entries, Refers home t entry) :
    ∃ depth, ∀ fuel, depth ≤ fuel → ∀ asked t' result, Runs home t (deleteEntries fuel entries) asked t' result →
      (∀ a ∈ asked, ∃ entry ∈ entries, IssuedFor home t entry a) ∧
      ((result = .ok () ∧ ChangesOnly home t entries t t' ∧
          ∀ entry ∈ entries, ∀ place, Targets home t entry place → ∀ below, t'.node (place ++ below) = none) ∨
        ∃ error done rest failing middle before last, result = .error (.failed error) ∧
          StopsAt home fuel t t t' entries asked error done rest failing middle before last) := by
  obtain ⟨depth, deep⟩ := t.exists_deep
  refine ⟨depth, ?_⟩
  intro fuel enough asked t' result run
  obtain ⟨_, issued, ended⟩ := runs_deleteEntries refers (deep fuel enough) (.refl t) run
  refine ⟨issued, ended.imp_left ?_⟩
  rintro ⟨ok, changes, gone⟩
  exact ⟨ok, changes, fun entry mem place target => missing_below (gone entry mem place target)⟩

/-- A tree by its nodes, each after its parent. -/
def ofNodes (nodes : List (Place × ServerNode)) (root : nodes.lookup [] = some .directory)
    (placed : ∀ node ∈ nodes, node.1 = [] ∨
      nodes.lookup node.1.dropLast = some .directory ∧ '/' ∉ node.1.getLastD [] ∧ node.1.getLastD [] ≠ [] ∧
        node.1.getLastD [] ≠ ['.'] ∧ node.1.getLastD [] ≠ ['.', '.']) : ServerTree :=
  have listed : ∀ place, nodes.lookup place ≠ none → ∃ node ∈ nodes, node.1 = place := by
    intro place present
    by_contra missing
    push Not at missing
    exact present (List.lookup_eq_none_iff.mpr fun node mem => by simpa using fun same => missing node mem same.symm)
  have placed' : ∀ place name, nodes.lookup (place ++ [name]) ≠ none → nodes.lookup place = some .directory ∧ validName name := by
    intro place name present
    obtain ⟨node, mem, same⟩ := listed _ present
    obtain ⟨parent, valid⟩ := (placed node mem).resolve_left fun root => by rw [root] at same; simp at same
    rw [same, List.dropLast_concat] at parent
    rw [same, List.getLastD_concat] at valid
    exact ⟨parent, valid⟩
  { node := fun place => nodes.lookup place
    root := root
    parents := fun place name present => (placed' place name present).1
    names := fun place name present => (placed' place name present).2
    finite := by
      refine (nodes.map Prod.fst).finite_toSet.subset ?_
      intro place present
      obtain ⟨node, mem, same⟩ := listed place present
      exact List.mem_map.mpr ⟨node, mem, same⟩ }

theorem ofNodes_listed {nodes : List (Place × ServerNode)} {root placed} (present : (ofNodes nodes root placed).node place ≠ none) :
    place ∈ nodes.map Prod.fst := by
  by_contra missing
  refine present (List.lookup_eq_none_iff.mpr ?_)
  rintro ⟨other, node⟩ mem
  simpa using fun same : place = other => missing (List.mem_map.mpr ⟨_, mem, same.symm⟩)

/-- A directory `/a` with a file `b` in it. -/
def nested : ServerTree :=
  ofNodes [([], .directory), ([['a']], .directory), ([['a'], ['b']], .file)] rfl (by decide)

/-- What is left when the file has been removed. -/
def emptied : ServerTree := ofNodes [([], .directory), ([['a']], .directory)] rfl (by decide)

theorem nested_emptied : Removed [['a'], ['b']] nested emptied := by
  intro other
  change List.lookup other [([], ServerNode.directory), ([['a']], .directory)] =
    if other = [['a'], ['b']] then none
    else List.lookup other [([], ServerNode.directory), ([['a']], .directory), ([['a'], ['b']], .file)]
  simp only [List.lookup_cons, List.lookup_nil]
  split_ifs with here
  · subst here
    rfl
  · rw [show (other == [['a'], ['b']]) = false from by simpa using here]

theorem names_child {name : List Char} (text : pathText ('/' :: name) = ⟨true, [.name name], false⟩)
    (present : t.node [name] ≠ none) :
    t.Names home ⟨'/' :: name⟩ [name] := by
  refine .inl ⟨[], [], name, ?_⟩
  rw [text]
  exact ⟨rfl, rfl, .here [], t.root, (t.linked_entry).mpr ⟨rfl, present⟩⟩

theorem nested_names : nested.Names [] ⟨['/', 'a']⟩ [['a']] := names_child (by decide) (by decide)

theorem nested_names_file : nested.Names [] ⟨['/', 'a', '/', 'b']⟩ [['a'], ['b']] := by
  refine .inl ⟨[.name ['a']], [['a']], ['b'], ?_⟩
  have text : pathText ['/', 'a', '/', 'b'] = ⟨true, [.name ['a'], .name ['b']], false⟩ := by decide
  rw [text]
  exact ⟨rfl, rfl, .name nested.root rfl rfl (.here _), rfl, rfl⟩

theorem nested_lists : nested.Lists [['a']] [⟨['b'], .file⟩] where
  present entry mem := by
    rw [List.mem_singleton.mp mem]
    exact .inr (.inr ⟨.file, rfl, rfl⟩)
  complete name present := by
    refine ⟨_, List.mem_cons_self, ?_⟩
    have listed := ofNodes_listed present
    simp at listed
    exact listed.symm

theorem nested_resolves : nested.Resolves [] ⟨['/', 'a']⟩ [['a']] := LinkedFs.Names.resolves nested_names rfl

def serverFailure : SftpError := ⟨some .failure, ""⟩

/-- The file goes, and the server then fails to remove the directory. -/
def nestedAsked : DeleteLog :=
  [⟨nested, .readDir ⟨['/', 'a']⟩, .ok [⟨['b'], .file⟩], nested⟩,
    ⟨nested, .removeFile ⟨['/', 'a', '/', 'b']⟩, .ok (), emptied⟩,
    ⟨emptied, .removeDir ⟨['/', 'a']⟩, .error serverFailure, emptied⟩]

theorem nested_run : Runs [] nested (deleteEntry 1 ⟨.remote ⟨['/', 'a']⟩, true⟩) nestedAsked emptied
    (.error (.failed (remoteFsError "The folder couldn’t be deleted." serverFailure))) := by
  have removed : Executes [] (.removeFile ⟨['/', 'a', '/', 'b']⟩) ⟨['/', 'a', '/', 'b']⟩ nested emptied :=
    ⟨_, nested_names_file, ⟨.file, rfl, by decide⟩, nested_emptied⟩
  exact .ask rfl ⟨rfl, _, nested_resolves, rfl, nested_lists⟩ (.ask rfl removed (.ask rfl (.inl rfl) (.done _ _)))

/-- A directory `/d` with a file `f`, and a link `/l` to it. -/
def linkedDirectory : ServerTree :=
  ofNodes [([], .directory), ([['d']], .directory), ([['d'], ['f']], .file), ([['l']], .link ['d'])] rfl (by decide)

theorem linkedDirectory_lists : linkedDirectory.Lists [['d']] [⟨['f'], .file⟩] where
  present entry mem := by
    rw [List.mem_singleton.mp mem]
    exact .inr (.inr ⟨.file, rfl, rfl⟩)
  complete name present := by
    refine ⟨_, List.mem_cons_self, ?_⟩
    have listed := ofNodes_listed present
    simp at listed
    exact listed.symm

theorem linkedDirectory_follows : linkedDirectory.linked.Follows [] [.name ['l']] [['d']] := by
  have target : linkedDirectory.linked.Follows [] [.name ['d']] [['d']] := .name rfl rfl rfl (.here _)
  exact .link rfl rfl rfl target (fun _ => rfl) (.here _)

theorem linkedDirectory_run : ∃ result, Runs [] linkedDirectory (deleteEntries 1 [⟨.remote ⟨['/', 'l']⟩, true⟩])
    [⟨linkedDirectory, .readDir ⟨['/', 'l']⟩, .ok [⟨['f'], .file⟩], linkedDirectory⟩,
      ⟨linkedDirectory, .removeFile ⟨['/', 'l', '/', 'f']⟩, .error serverFailure, linkedDirectory⟩] linkedDirectory result := by
  have resolves : linkedDirectory.Resolves [] ⟨['/', 'l']⟩ [['d']] := by
    have text : pathText ['/', 'l'] = ⟨true, [.name ['l']], false⟩ := by decide
    change linkedDirectory.linked.Resolves [] (pathText ['/', 'l']) _
    rw [text]
    exact ⟨linkedDirectory_follows, nofun⟩
  exact ⟨_, .ask rfl ⟨rfl, _, resolves, rfl, linkedDirectory_lists⟩ (.ask rfl (.inl rfl) (.done _ _))⟩

/-- The root and nothing else. -/
def bare : ServerTree := ofNodes [([], .directory)] rfl (by decide)

theorem bare_names : bare.Names [] ⟨['/', '.', '/', '.']⟩ [] := by
  have text : pathText ['/', '.', '/', '.'] = ⟨true, [], true⟩ := by decide
  change bare.linked.Names [] (pathText ['/', '.', '/', '.']) _
  rw [text]
  exact .inr ⟨.inl rfl, .here _, fun _ => rfl⟩

theorem bare_run : ∃ result, Runs [] bare (deleteEntries 1 [⟨.remote ⟨['/', '.', '/', '.']⟩, true⟩])
    [⟨bare, .readDir ⟨['/', '.', '/', '.']⟩, .ok [], bare⟩,
      ⟨bare, .removeDir ⟨['/', '.', '/', '.']⟩, .error serverFailure, bare⟩] bare result := by
  have resolves : bare.Resolves [] ⟨['/', '.', '/', '.']⟩ [] := LinkedFs.Names.resolves bare_names rfl
  have lists : bare.Lists [] [] := by
    refine ⟨fun _ never => absurd never List.not_mem_nil, ?_⟩
    intro name present
    have listed := ofNodes_listed present
    simp at listed
  exact ⟨_, .ask rfl ⟨rfl, _, resolves, rfl, lists⟩ (.ask rfl (.inl rfl) (.done _ _))⟩

/-- A removal that is asked for is one at or below the place of a named entry, whatever the entries are. -/
def RemovesOnlyNamed : Prop := ∀ home t fuel entries asked t' result, Runs home t (deleteEntries fuel entries) asked t' result →
  ∀ a ∈ asked, ∀ q place, a.op.removes = some q → a.before.Names home q place →
    ∃ entry ∈ entries, ∃ top, Targets home t entry top ∧ top <+: place

/-- No removal is asked for the root, whatever the entries are. -/
def SparesRoot : Prop := ∀ home t fuel entries asked t' result, Runs home t (deleteEntries fuel entries) asked t' result →
  ∀ a ∈ asked, ∀ q, a.op.removes = some q → ¬ a.before.Names home q []

/-- The entries after the one at which a deletion stops stay as they are, whatever the entries are. -/
def SparesLater : Prop := ∀ home t fuel done failing (rest : List FsEntryRef) before middle last t' error,
  Runs home t (deleteEntries fuel done) before middle (.ok ()) →
    Runs home middle (deleteEntry fuel failing) last t' (.error (.failed error)) →
      ∀ entry ∈ rest, ∀ place, Targets home t entry place → t'.node place = t.node place

/-- A directory entry that is a link by now, a detour to the root, and an entry inside another one. -/
theorem delete_not_exact : ¬ RemovesOnlyNamed ∧ ¬ SparesRoot ∧ ¬ SparesLater := by
  refine ⟨?_, ?_, ?_⟩
  · intro named
    obtain ⟨result, run⟩ := linkedDirectory_run
    have file : linkedDirectory.Names [] ⟨['/', 'l', '/', 'f']⟩ [['d'], ['f']] := by
      refine .inl ⟨[.name ['l']], [['d']], ['f'], ?_⟩
      have text : pathText ['/', 'l', '/', 'f'] = ⟨true, [.name ['l'], .name ['f']], false⟩ := by decide
      rw [text]
      exact ⟨rfl, rfl, linkedDirectory_follows, rfl, rfl⟩
    obtain ⟨entry, mem, top, ⟨path, same, names⟩, inside⟩ :=
      named _ _ _ _ _ _ _ run _ (List.mem_cons_of_mem _ List.mem_cons_self) _ _ rfl file
    obtain rfl := List.mem_singleton.mp mem
    cases same
    have link : linkedDirectory.Names [] ⟨['/', 'l']⟩ [['l']] := names_child (by decide) (by decide)
    obtain rfl := LinkedFs.Names.unique names link
    revert inside
    decide
  · intro spares
    obtain ⟨result, run⟩ := bare_run
    exact spares _ _ _ _ _ _ _ run _ (List.mem_cons_of_mem _ List.mem_cons_self) _ rfl bare_names
  · intro spares
    have kept := spares [] nested 1 [] _ [⟨.remote ⟨['/', 'a', '/', 'b']⟩, false⟩] [] nested _ _ _ (.done _ _) nested_run _
      List.mem_cons_self [['a'], ['b']] ⟨_, rfl, nested_names_file⟩
    revert kept
    decide

theorem nested_refers : Refers [] nested ⟨.remote ⟨['/', 'a']⟩, true⟩ := by
  rintro place ⟨path, same, names⟩
  cases same
  obtain rfl := LinkedFs.Names.unique names nested_names
  exact ⟨by decide, fun _ => rfl⟩

theorem delete_exact_nested : ∃ depth, ∀ fuel, depth ≤ fuel → ∀ asked t' result,
    Runs [] nested (deleteEntries fuel [⟨.remote ⟨['/', 'a']⟩, true⟩]) asked t' result →
      ∀ a ∈ asked, ∃ entry ∈ [(⟨.remote ⟨['/', 'a']⟩, true⟩ : FsEntryRef)], IssuedFor [] nested entry a := by
  obtain ⟨depth, exact_⟩ := delete_exact [] nested [⟨.remote ⟨['/', 'a']⟩, true⟩] fun entry mem =>
    List.mem_singleton.mp mem ▸ nested_refers
  exact ⟨depth, fun fuel enough asked t' result run => (exact_ fuel enough asked t' result run).1⟩

end ServerTree

end MacSftp.Session
