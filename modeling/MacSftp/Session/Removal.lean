import MacSftp.Session.Joining

namespace MacSftp.Session

open Lib Program

abbrev DeleteLog := List (Asked ServerTree SessionOp SessionOp.Answer)

/-- The path of a request that removes something. -/
def SessionOp.removes : SessionOp → Option RemotePath
  | .removeFile path | .removeDir path => some path
  | _ => none

/-- What a node has to be for a request to remove it. -/
def SessionOp.Allows (t : ServerTree) (place : Place) : SessionOp → Prop
  | .removeFile _ => ∃ node, t.node place = some node ∧ node ≠ .directory
  | .removeDir _ => t.node place = some .directory ∧ ∀ name, t.node (place ++ [name]) = none
  | _ => False

namespace ServerTree

variable (home : Place)

/-- A removal takes the node that the path names, if it may go. -/
def Executes (op : SessionOp) (path : RemotePath) (t t' : ServerTree) : Prop :=
  ∃ place, t.Names home path place ∧ op.Allows t place ∧ t.Removed place t'

/-- The server's answers. Any request may fail, and what is reported as failed may have been done all the same. -/
def Does : (op : SessionOp) → op.Answer → ServerTree → ServerTree → Prop
  | .removeFile path, .ok () => Executes home (.removeFile path) path
  | .removeFile path, .error _ => fun t t' => t' = t ∨ Executes home (.removeFile path) path t t'
  | .removeDir path, .ok () => Executes home (.removeDir path) path
  | .removeDir path, .error _ => fun t t' => t' = t ∨ Executes home (.removeDir path) path t t'
  | .readDir path, .ok listing => fun t t' =>
    t' = t ∧ ∃ place, t.Resolves home path place ∧ t.node place = some .directory ∧ t.Lists place listing
  | _, _ => fun t t' => t' = t

/-- The runs of a deletion against the server, with nobody else acting. -/
def Runs {α : Type} (t : ServerTree) (p : DeleteM α) (asked : DeleteLog) (t' : ServerTree) (result : Except DeleteStop α) : Prop :=
  Run (fun w before => before = w) (Does home) p t asked t' result

variable {home} {t t' u : ServerTree} {place : Place} {path : RemotePath} {α β : Type}

theorem runs_done {r result : Except DeleteStop α} {asked : DeleteLog} (run : Runs home t (.done r) asked t' result) :
    asked = [] ∧ t' = t ∧ result = r := by
  cases run
  exact ⟨rfl, rfl, rfl⟩

theorem runs_ask {op : SessionOp} {next : op.Answer → DeleteM α} {asked : DeleteLog} {result : Except DeleteStop α}
    (run : Runs home t (Session.ask op >>= next) asked t' result) :
    ∃ answer after rest, asked = ⟨t, op, answer, after⟩ :: rest ∧ Does home op answer t after ∧
      Runs home after (next answer) rest t' result := by
  obtain ⟨answer, _, after, rest, rfl, rfl, does, later⟩ := Run.of_ask run
  exact ⟨answer, after, rest, rfl, does, later⟩

/-- The path names nothing but this place. -/
def NamesOnly (home : Place) (t : ServerTree) (path : RemotePath) (place : Place) : Prop :=
  ∀ other, t.Names home path other → other = place

/-- The path leads nowhere but to this place. -/
def LeadsOnly (home : Place) (t : ServerTree) (path : RemotePath) (place : Place) : Prop :=
  ∀ other, t.Resolves home path other → other = place

theorem NamesOnly.shrinks (only : NamesOnly home t path place) (shrinks : t.Shrinks t') : NamesOnly home t' path place :=
  fun other names => only other (LinkedFs.Names.within shrinks.within names)

theorem LeadsOnly.shrinks (only : LeadsOnly home t path place) (shrinks : t.Shrinks t') : LeadsOnly home t' path place :=
  fun other resolves => only other (LinkedFs.Resolves.within shrinks.within resolves)

theorem child_only {name : List Char} (leads : LeadsOnly home t path place) (taken : refusesDeletion path = false)
    (valid : validName name) :
    NamesOnly home t (path.join name) (place ++ [name]) ∧
      ((t.node (place ++ [name])).bind ServerNode.linkText = none → LeadsOnly home t (path.join name) (place ++ [name])) := by
  have text := join_text taken valid
  have behind {k : Place} (follows : t.linked.Follows (t.linked.start (pathText (path.join name).chars) home)
      (pathText path.chars).steps k) (dir : t.linked.isDir k) : k = place := by
    apply leads
    rw [text] at follows
    exact ⟨follows, fun _ => dir⟩
  constructor
  · rintro other (⟨front, k, x, at_⟩ | ⟨last, _⟩)
    · have steps := at_.steps
      rw [text] at steps
      obtain ⟨rfl, same⟩ := List.append_inj' steps rfl
      cases same
      obtain ⟨rfl, _⟩ := (t.linked_entry).mp at_.listed
      rw [behind at_.follows at_.dir]
    · rw [text] at last
      rcases last with directory | last
      · cases directory
      · exact absurd rfl (last _ name)
  · rintro plain other ⟨follows, _⟩
    rw [text] at follows
    obtain ⟨k, front, last⟩ := LinkedFs.follows_append.mp follows
    cases last with
    | name dir listed _ later =>
      obtain rfl := behind (text ▸ front) dir
      obtain ⟨rfl, _⟩ := (t.linked_entry).mp listed
      exact LinkedFs.follows_nil.mp later
    | link dir listed linked =>
      obtain rfl := behind (text ▸ front) dir
      obtain ⟨rfl, _⟩ := (t.linked_entry).mp listed
      cases plain.symm.trans linked

def joinAll (path : RemotePath) (names : List (List Char)) : RemotePath := names.foldl RemotePath.join path

/-- A removal that is asked for is one of a node at or below a place, by the path of the place and the names below it. A
directory has nothing in it by then. -/
def Below (home : Place) (path : RemotePath) (place : Place) (a : Asked ServerTree SessionOp SessionOp.Answer) : Prop :=
  ∀ q, a.op.removes = some q → ∃ names, q = joinAll path names ∧ NamesOnly home a.before q (place ++ names) ∧
    refusesDeletion q = false ∧ (a.op = .removeDir q → ∀ name, a.before.node (place ++ names ++ [name]) = none)

/-- What a part of a deletion does to a place: nothing changes elsewhere, and no other removal is asked for. -/
structure Cleans (home : Place) (path : RemotePath) (place : Place) (t t' : ServerTree) (asked : DeleteLog) : Prop where
  outside : ∀ other, t'.node other = t.node other ∨ (place <+: other ∧ t'.node other = none)
  issued : ∀ a ∈ asked, Below home path place a

namespace Cleans

variable {asked later : DeleteLog} {name : List Char}

theorem shrinks (cleans : Cleans home path place t t' asked) : t.Shrinks t' :=
  fun other => (cleans.outside other).imp_right And.right

theorem nil (t : ServerTree) : Cleans home path place t t [] := ⟨fun _ => .inl rfl, fun _ never => absurd never List.not_mem_nil⟩

theorem append (first : Cleans home path place t t' asked) (second : Cleans home path place t' u later) :
    Cleans home path place t u (asked ++ later) where
  outside other := by
    rcases second.outside other with same | gone
    · rw [same]
      exact first.outside other
    · exact .inr gone
  issued a mem := (List.mem_append.mp mem).elim (first.issued a) (second.issued a)

theorem child (cleans : Cleans home (path.join name) (place ++ [name]) t t' asked) : Cleans home path place t t' asked where
  outside other := (cleans.outside other).imp_right fun gone => ⟨(List.prefix_append place [name]).trans gone.1, gone.2⟩
  issued a mem q removes := by
    obtain ⟨names, joined, only, taken, empty⟩ := cleans.issued a mem q removes
    rw [List.append_assoc] at only
    refine ⟨name :: names, joined, only, taken, ?_⟩
    intro directory other
    have missing := empty directory other
    rwa [List.append_assoc place] at missing

theorem silent {op : SessionOp} {answer : op.Answer} (reads : op.removes = none) (same : t' = t) :
    Cleans home path place t t' [⟨t, op, answer, t'⟩] where
  outside other := .inl (by rw [same])
  issued a mem q removes := by
    rw [List.mem_singleton.mp mem] at removes
    cases reads.symm.trans removes

end Cleans

theorem does_removal {op : SessionOp} {answer : op.Answer} (removes : op.removes = some path) (does : Does home op answer t t') :
    (t' = t ∨ Executes home op path t t') ∧ (op.failed answer = false → Executes home op path t t') := by
  cases op with
  | removeFile q =>
    cases removes
    rcases answer with error | ⟨⟨⟩⟩
    · exact ⟨does, nofun⟩
    · exact ⟨.inr does, fun _ => does⟩
  | removeDir q =>
    cases removes
    rcases answer with error | ⟨⟨⟩⟩
    · exact ⟨does, nofun⟩
    · exact ⟨.inr does, fun _ => does⟩
  | _ => cases removes

theorem cleans_removal {op : SessionOp} {answer : op.Answer} (removes : op.removes = some path) (does : Does home op answer t t')
    (only : NamesOnly home t path place) (taken : refusesDeletion path = false)
    (empty : op = .removeDir path → ∀ name, t.node (place ++ [name]) = none) :
    Cleans home path place t t' [⟨t, op, answer, t'⟩] ∧ (op.failed answer = false → t'.node place = none) := by
  obtain ⟨effect, done⟩ := does_removal removes does
  have gone : Executes home op path t t' → ∀ other, t'.node other = if other = place then none else t.node other := by
    rintro ⟨named, names, _, removed⟩
    rw [← only named names]
    exact removed
  refine ⟨⟨?_, ?_⟩, ?_⟩
  · intro other
    rcases effect with rfl | executed
    · exact .inl rfl
    · rw [gone executed other]
      split_ifs with here
      · exact .inr ⟨here ▸ List.prefix_rfl, rfl⟩
      · exact .inl rfl
  · intro a mem q asked
    rw [List.mem_singleton.mp mem] at asked ⊢
    cases removes.symm.trans asked
    refine ⟨[], rfl, ?_, taken, ?_⟩
    · rwa [List.append_nil]
    · rwa [List.append_nil]
  · intro answered
    rw [gone (done answered) place, if_pos rfl]

theorem runs_orFail {title : String} {answer : Except SftpError α} {asked : DeleteLog} {result : Except DeleteStop α}
    (run : Runs home t (orFail title answer) asked t' result) :
    asked = [] ∧ t' = t ∧ (∀ a, result = .ok a ↔ answer = .ok a) ∧ result ≠ .error .unfinished := by
  cases answer with
  | ok a =>
    obtain ⟨rfl, rfl, rfl⟩ := runs_done run
    exact ⟨rfl, rfl, by simp, nofun⟩
  | error error =>
    obtain ⟨rfl, rfl, rfl⟩ := runs_done run
    exact ⟨rfl, rfl, by simp, by simp⟩

/-- The recursion has steps enough for what is below a place. -/
def Deep (t : ServerTree) (place : Place) (fuel : Nat) : Prop :=
  0 < fuel ∧ ∀ below, t.node (place ++ below) ≠ none → below.length < fuel

theorem Deep.shrinks {fuel : Nat} (deep : Deep t place fuel) (shrinks : t.Shrinks t') : Deep t' place fuel := by
  refine ⟨deep.1, ?_⟩
  intro below present
  obtain ⟨node, found⟩ := Option.ne_none_iff_exists'.mp present
  apply deep.2 below
  rw [shrinks.some found]
  exact Option.some_ne_none node

theorem Deep.child {fuel : Nat} {name : List Char} (deep : Deep t place (fuel + 1)) (room : 0 < fuel) :
    Deep t (place ++ [name]) fuel := by
  refine ⟨room, ?_⟩
  intro below present
  rw [List.append_assoc] at present
  exact Nat.lt_of_succ_lt_succ (deep.2 (name :: below) present)

/-- What a program does that removes the directory at a path. -/
def RemovesDirectory (home : Place) (fuel : Nat) (remove : RemotePath → DeleteM Unit) : Prop :=
  ∀ path place t t' asked result, NamesOnly home t path place → LeadsOnly home t path place → Deep t place fuel →
    Runs home t (remove path) asked t' result →
      Cleans home path place t t' asked ∧ (result = .ok () → t'.node place = none) ∧ result ≠ .error .unfinished

/-- An entry of a listing, as long as the tree has only shrunk since. -/
def Listed (t : ServerTree) (place : Place) (fuel : Nat) (entry : DirEntry) : Prop :=
  entry.name = ['.'] ∨ entry.name = ['.', '.'] ∨ (validName entry.name ∧
    (entry.fileType = .dir → (t.node (place ++ [entry.name])).bind ServerNode.linkText = none) ∧ 0 < fuel)

theorem Listed.shrinks {fuel : Nat} {entry : DirEntry} (listed : Listed t place fuel entry) (shrinks : t.Shrinks t') :
    Listed t' place fuel entry := by
  rcases listed with dot | dots | ⟨valid, plain, room⟩
  · exact .inl dot
  · exact .inr (.inl dots)
  · refine .inr (.inr ⟨valid, ?_, room⟩)
    intro dir
    rcases shrinks (place ++ [entry.name]) with same | gone
    · rw [same]
      exact plain dir
    · rw [gone]
      rfl

theorem runs_removeEntry {fuel : Nat} {remove : RemotePath → DeleteM Unit} (removes : RemovesDirectory home fuel remove)
    (leads : LeadsOnly home t path place) (taken : refusesDeletion path = false) {entry : DirEntry} (valid : validName entry.name)
    (plain : entry.fileType = .dir → (t.node (place ++ [entry.name])).bind ServerNode.linkText = none) (room : 0 < fuel)
    (deep : Deep t place (fuel + 1)) {asked : DeleteLog} {result : Except DeleteStop Unit}
    (run : Runs home t (removeEntry remove path entry) asked t' result) :
    Cleans home path place t t' asked ∧ (result = .ok () → t'.node (place ++ [entry.name]) = none) ∧
      result ≠ .error .unfinished := by
  obtain ⟨names, leadsOn⟩ := child_only leads taken valid
  unfold removeEntry at run
  split_ifs at run with dir
  · obtain ⟨cleans, gone, finished⟩ := removes _ _ _ _ _ _ names (leadsOn (plain dir)) (deep.child room) run
    exact ⟨cleans.child, gone, finished⟩
  · obtain ⟨answer, after, rest, rfl, does, later⟩ := runs_ask run
    obtain ⟨rfl, rfl, returned, finished⟩ := runs_orFail later
    obtain ⟨cleans, gone⟩ := cleans_removal rfl does names (join_taken taken valid) nofun
    refine ⟨cleans.child, ?_, finished⟩
    intro ok
    rw [(returned ()).mp ok] at gone
    exact gone rfl

theorem runs_removeEntries {fuel : Nat} {remove : RemotePath → DeleteM Unit} (removes : RemovesDirectory home fuel remove)
    (taken : refusesDeletion path = false) {entries : List DirEntry} (leads : LeadsOnly home t path place)
    (listed : ∀ entry ∈ entries, Listed t place fuel entry) (deep : Deep t place (fuel + 1)) {asked : DeleteLog}
    {result : Except DeleteStop Unit}
    (run : Runs home t (removeEntries remove path entries) asked t' result) :
    Cleans home path place t t' asked ∧
      (result = .ok () → ∀ entry ∈ entries, validName entry.name → t'.node (place ++ [entry.name]) = none) ∧
      result ≠ .error .unfinished := by
  induction entries generalizing t asked with
  | nil =>
    obtain ⟨rfl, rfl, rfl⟩ := runs_done run
    exact ⟨.nil t', fun _ _ never => absurd never List.not_mem_nil, nofun⟩
  | cons entry entries ih =>
    have others : ∀ entry ∈ entries, Listed t place fuel entry := fun entry mem => listed entry (List.mem_cons_of_mem _ mem)
    rw [removeEntries] at run
    split_ifs at run with dots
    · obtain ⟨cleans, gone, finished⟩ := ih leads others deep run
      refine ⟨cleans, ?_, finished⟩
      intro ok other mem valid
      rcases List.mem_cons.mp mem with rfl | mem
      · exact (dots.elim valid.2.2.1 valid.2.2.2).elim
      · exact gone ok other mem valid
    · obtain ⟨valid, plain, room⟩ := ((listed entry List.mem_cons_self).resolve_left fun dot => dots (.inl dot)).resolve_left
        fun dot => dots (.inr dot)
      rcases run.of_bind with ⟨e, failed, rfl⟩ | ⟨before, after, v, ⟨⟩, rfl, first, second⟩
      · obtain ⟨cleans, _, finished⟩ := runs_removeEntry removes leads taken valid plain room deep failed
        exact ⟨cleans, nofun, finished⟩
      · obtain ⟨cleans, gone, _⟩ := runs_removeEntry removes leads taken valid plain room deep first
        obtain ⟨rest, goneRest, finished⟩ := ih (leads.shrinks cleans.shrinks)
          (fun entry mem => (others entry mem).shrinks cleans.shrinks) (deep.shrinks cleans.shrinks) second
        refine ⟨cleans.append rest, ?_, finished⟩
        intro ok other mem valid
        rcases List.mem_cons.mp mem with rfl | mem
        · rcases rest.shrinks (place ++ [other.name]) with same | missing
          · rw [same]
            exact gone rfl
          · exact missing
        · exact goneRest ok other mem valid

theorem does_readDir {listing : List DirEntry} (leads : LeadsOnly home t path place)
    (does : Does home (.readDir path) (.ok listing) t t') :
    t' = t ∧ t.node place = some .directory ∧ t.Lists place listing := by
  obtain ⟨same, other, resolves, dir, lists⟩ := does
  obtain rfl := leads other resolves
  exact ⟨same, dir, lists⟩

theorem Lists.listed {fuel : Nat} {listing : List DirEntry} (lists : t.Lists place listing)
    (deep : Deep t place (fuel + 1)) : ∀ entry ∈ listing, Listed t place fuel entry := by
  intro entry mem
  rcases lists.present entry mem with dot | dots | ⟨node, found, kind⟩
  · exact .inl dot
  · exact .inr (.inl dots)
  · have present : t.node (place ++ [entry.name]) ≠ none := by
      rw [found]
      exact Option.some_ne_none node
    refine .inr (.inr ⟨t.names _ _ present, ?_, Nat.lt_of_succ_lt_succ (deep.2 [entry.name] present)⟩)
    intro dir
    rw [found, Option.bind_some]
    cases node <;> first | rfl | (rw [kind] at dir; cases dir)

theorem Lists.empty {listing : List DirEntry} (lists : t.Lists place listing) (shrinks : t.Shrinks t')
    (gone : ∀ entry ∈ listing, validName entry.name → t'.node (place ++ [entry.name]) = none) (name : List Char) :
    t'.node (place ++ [name]) = none := by
  rcases shrinks (place ++ [name]) with same | missing
  · by_contra present
    rw [same] at present
    obtain ⟨entry, mem, rfl⟩ := lists.complete name present
    exact present (same ▸ gone entry mem (t.names _ _ present))
  · exact missing

theorem runs_removeRemoteDirRecursive (home : Place) (fuel : Nat) : RemovesDirectory home fuel (removeRemoteDirRecursive fuel) := by
  induction fuel with
  | zero =>
    intro path place t t' asked result names leads deep run
    exact absurd deep.1 (Nat.lt_irrefl 0)
  | succ fuel ih =>
    intro path place t t' asked result names leads deep run
    rw [removeRemoteDirRecursive] at run
    cases taken : refusesDeletion path with
    | true =>
      rw [taken, if_pos rfl] at run
      obtain ⟨rfl, rfl, rfl⟩ := runs_done run
      exact ⟨.nil t', nofun, by simp⟩
    | false =>
      rw [taken, if_neg Bool.false_ne_true] at run
      obtain ⟨(listing : Except SftpError (List DirEntry)), after, rest, rfl, does, later⟩ := runs_ask run
      cases listing with
      | error error =>
        obtain ⟨rfl, rfl, rfl⟩ := runs_done later
        exact ⟨.silent rfl does, nofun, by simp⟩
      | ok listing =>
        obtain ⟨rfl, dir, lists⟩ := does_readDir leads does
        change Runs home after (removeEntries (removeRemoteDirRecursive fuel) path listing >>= _) rest t' result at later
        have read : Cleans home path place after after [⟨after, .readDir path, .ok listing, after⟩] := .silent rfl rfl
        rcases later.of_bind with ⟨e, failed, rfl⟩ | ⟨before, last, v, ⟨⟩, rfl, first, second⟩
        · obtain ⟨cleans, _, finished⟩ := runs_removeEntries ih taken leads (lists.listed deep) deep failed
          exact ⟨read.append cleans, nofun, finished⟩
        · obtain ⟨cleans, gone, _⟩ := runs_removeEntries ih taken leads (lists.listed deep) deep first
          obtain ⟨removed, after', rest, rfl, does, returned⟩ := runs_ask second
          obtain ⟨rfl, rfl, same, finished⟩ := runs_orFail returned
          obtain ⟨final, missing⟩ := cleans_removal rfl does (names.shrinks cleans.shrinks) taken
            fun _ => lists.empty cleans.shrinks (gone rfl)
          refine ⟨read.append (cleans.append final), ?_, finished⟩
          intro ok
          rw [(same ()).mp ok] at missing
          exact missing rfl

end ServerTree

end MacSftp.Session
