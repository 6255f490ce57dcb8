import MacSftp.Session.Delete
import MacSftp.Session.LinkPaths
import Mathlib.Data.Set.Finite.Lattice

namespace MacSftp.Session

open Lib

/-- The place of a node in the tree: the names from the root down. -/
abbrev Place := List (List Char)

def validName (name : List Char) : Prop := '/' ∉ name ∧ name ≠ [] ∧ name ≠ ['.'] ∧ name ≠ ['.', '.']

/-- A finite tree of files on the server. Only directories have entries. -/
structure ServerTree where
  node : Place → Option ServerNode
  root : node [] = some .directory
  parents : ∀ place name, node (place ++ [name]) ≠ none → node place = some .directory
  names : ∀ place name, node (place ++ [name]) ≠ none → validName name
  finite : {place | node place ≠ none}.Finite

namespace ServerTree

variable {t t' u : ServerTree} {place below : Place} {name : List Char}

def linked (t : ServerTree) : LinkedFs Place (List Char) where
  root := []
  parent := List.dropLast
  isDir place := t.node place = some .directory
  entry place name := if t.node (place ++ [name]) = none then none else some (place ++ [name])
  link place := (t.node place).bind ServerNode.linkText
  root_dir := t.root
  link_not_dir := by
    intro n p linked directory
    rw [directory] at linked
    cases linked

/-- What a path names, read from the directory that the server takes relative paths from. -/
def Names (t : ServerTree) (home : Place) (path : RemotePath) (place : Place) : Prop :=
  t.linked.Names home (pathText path.chars) place

def Resolves (t : ServerTree) (home : Place) (path : RemotePath) (place : Place) : Prop :=
  t.linked.Resolves home (pathText path.chars) place

/-- Nodes may only have gone. -/
def Shrinks (t t' : ServerTree) : Prop := ∀ place, t'.node place = t.node place ∨ t'.node place = none

/-- One node has gone, and nothing else has changed. -/
def Removed (place : Place) (t t' : ServerTree) : Prop := ∀ other, t'.node other = if other = place then none else t.node other

/-- A listing in any order, with the type of each entry, and perhaps with the two entries for the directory and its
parent. -/
structure Lists (t : ServerTree) (place : Place) (listing : List DirEntry) : Prop where
  present : ∀ entry ∈ listing, entry.name = ['.'] ∨ entry.name = ['.', '.'] ∨
    ∃ node, t.node (place ++ [entry.name]) = some node ∧ entry.fileType = node.kind
  complete : ∀ name, t.node (place ++ [name]) ≠ none → ∃ entry ∈ listing, entry.name = name

theorem Shrinks.refl (t : ServerTree) : t.Shrinks t := fun _ => .inl rfl

theorem Shrinks.trans (first : t.Shrinks t') (second : t'.Shrinks u) : t.Shrinks u := by
  intro place
  rcases second place with same | gone
  · rw [same]
    exact first place
  · exact .inr gone

theorem Shrinks.some {node : ServerNode} (shrinks : t.Shrinks t') (found : t'.node place = some node) :
    t.node place = some node := by
  rcases shrinks place with same | gone
  · exact same ▸ found
  · rw [gone] at found
    cases found

/-- Below what is missing everything is missing. -/
theorem missing_below (missing : t.node place = none) (below : Place) : t.node (place ++ below) = none := by
  induction below using List.reverseRecOn with
  | nil => rwa [List.append_nil]
  | append_singleton below name ih =>
    by_contra found
    rw [← List.append_assoc] at found
    have parent := t.parents _ _ found
    rw [ih] at parent
    cases parent

theorem linked_entry (t : ServerTree) {child : Place} :
    t.linked.entry place name = some child ↔ child = place ++ [name] ∧ t.node (place ++ [name]) ≠ none := by
  change (if t.node (place ++ [name]) = none then none else some (place ++ [name])) = some child ↔ _
  split_ifs with missing
  · simp [missing]
  · simp [missing, eq_comm]

theorem Shrinks.within (shrinks : t.Shrinks t') : t'.linked.Within t.linked where
  root := rfl
  parent := rfl
  dir := shrinks.some
  entry := by
    intro place name child listed
    rw [linked_entry] at listed ⊢
    refine ⟨listed.1, ?_⟩
    obtain ⟨node, found⟩ := Option.ne_none_iff_exists'.mp listed.2
    rw [shrinks.some found]
    exact Option.some_ne_none node
  link := by
    intro place name child listed
    obtain ⟨rfl, present⟩ := t'.linked_entry.mp listed
    obtain ⟨node, found⟩ := Option.ne_none_iff_exists'.mp present
    change (t'.node _).bind _ = (t.node _).bind _
    rw [found, shrinks.some found]

theorem exists_depth (t : ServerTree) : ∃ depth, ∀ place, t.node place ≠ none → place.length < depth := by
  obtain ⟨bound, above⟩ := (t.finite.image List.length).bddAbove
  refine ⟨bound + 1, ?_⟩
  intro place present
  exact Nat.lt_succ_of_le (above (Set.mem_image_of_mem _ present))

end ServerTree

end MacSftp.Session
