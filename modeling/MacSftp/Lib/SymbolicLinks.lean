import Mathlib.Data.List.Basic

namespace MacSftp.Lib

/-! File systems with symbolic links, and where a path leads in them. -/

inductive PathStep (ν : Type)
  | up
  | name (x : ν)
  deriving DecidableEq, Repr

/-- A path, or the text of a link. One that ends in a slash or a dot wants a directory. -/
structure PathText (ν : Type) where
  absolute : Bool
  steps : List (PathStep ν)
  directory : Bool
  deriving DecidableEq

structure LinkedFs (ι ν : Type) where
  root : ι
  parent : ι → ι
  isDir : ι → Prop
  entry : ι → ν → Option ι
  link : ι → Option (PathText ν)
  root_dir : isDir root
  link_not_dir : ∀ {n p}, link n = some p → ¬ isDir n

namespace LinkedFs

variable {ι ν : Type} (fs : LinkedFs ι ν)

/-- Where a path that stands in a directory begins. -/
def start (p : PathText ν) (d : ι) : ι := if p.absolute then fs.root else d

/-- The steps lead from a directory to a node, through every link on the way. A loop leads nowhere. -/
inductive Follows : ι → List (PathStep ν) → ι → Prop
  | here (d : ι) : Follows d [] d
  | up {d n : ι} {rest : List (PathStep ν)} (dir : fs.isDir d) (later : Follows (fs.parent d) rest n) : Follows d (.up :: rest) n
  | name {d m n : ι} {x : ν} {rest : List (PathStep ν)} (dir : fs.isDir d) (listed : fs.entry d x = some m)
      (plain : fs.link m = none) (later : Follows m rest n) : Follows d (.name x :: rest) n
  | link {d l k n : ι} {x : ν} {p : PathText ν} {rest : List (PathStep ν)} (dir : fs.isDir d) (listed : fs.entry d x = some l)
      (linked : fs.link l = some p) (target : Follows (fs.start p d) p.steps k) (ends : p.directory = true → fs.isDir k)
      (later : Follows k rest n) : Follows d (.name x :: rest) n

/-- What a path leads to with its last link followed. -/
def Resolves (d : ι) (p : PathText ν) (n : ι) : Prop := fs.Follows (fs.start p d) p.steps n ∧ (p.directory = true → fs.isDir n)

/-- The last step of a path is the name of an entry, whether it is a link or not. -/
structure EndsAt (d : ι) (p : PathText ν) (front : List (PathStep ν)) (k : ι) (x : ν) (n : ι) : Prop where
  plain : p.directory = false
  steps : p.steps = front ++ [.name x]
  follows : fs.Follows (fs.start p d) front k
  dir : fs.isDir k
  listed : fs.entry k x = some n

/-- What a path names, without following a link at its end. -/
def Names (d : ι) (p : PathText ν) (n : ι) : Prop :=
  (∃ front k x, fs.EndsAt d p front k x n) ∨
    ((p.directory = true ∨ ∀ front x, p.steps ≠ front ++ [.name x]) ∧ fs.Resolves d p n)

variable {fs} {d k l m n : ι} {p q : PathText ν}

theorem start_absolute (absolute : p.absolute = true) (d : ι) : fs.start p d = fs.root := if_pos absolute

theorem start_relative (relative : p.absolute = false) (d : ι) : fs.start p d = d := if_neg (by simp [relative])

theorem follows_append {a b : List (PathStep ν)} : fs.Follows d (a ++ b) n ↔ ∃ k, fs.Follows d a k ∧ fs.Follows k b n := by
  constructor
  · intro whole
    induction a generalizing d with
    | nil => exact ⟨d, .here d, whole⟩
    | cons s a ih =>
      cases whole with
      | up dir later =>
        obtain ⟨k, front, back⟩ := ih later
        exact ⟨k, .up dir front, back⟩
      | name dir listed plain later =>
        obtain ⟨k, front, back⟩ := ih later
        exact ⟨k, .name dir listed plain front, back⟩
      | link dir listed linked target ends later =>
        obtain ⟨k, front, back⟩ := ih later
        exact ⟨k, .link dir listed linked target ends front, back⟩
  · rintro ⟨k, front, back⟩
    induction front with
    | here d => exact back
    | up dir later ih => exact .up dir (ih back)
    | name dir listed plain later ih => exact .name dir listed plain (ih back)
    | link dir listed linked target ends later _ ih => exact .link dir listed linked target ends (ih back)

theorem follows_nil : fs.Follows d [] n ↔ n = d := by
  constructor
  · rintro ⟨⟩
    rfl
  · rintro rfl
    exact .here n

theorem Follows.unique {steps : List (PathStep ν)} (first : fs.Follows d steps n) (second : fs.Follows d steps m) : n = m := by
  induction first generalizing m with
  | here d => exact (follows_nil.mp second).symm
  | up dir later ih =>
    cases second with
    | up _ later' => exact ih later'
  | name dir listed plain later ih =>
    cases second with
    | name _ listed' _ later' =>
      cases listed.symm.trans listed'
      exact ih later'
    | link _ listed' linked =>
      cases listed.symm.trans listed'
      cases plain.symm.trans linked
  | link dir listed linked target ends later ih_target ih =>
    cases second with
    | name _ listed' plain =>
      cases listed.symm.trans listed'
      cases plain.symm.trans linked
    | link _ listed' linked' target' _ later' =>
      cases listed.symm.trans listed'
      cases linked.symm.trans linked'
      cases ih_target target'
      exact ih later'

theorem Resolves.unique (first : fs.Resolves d p n) (second : fs.Resolves d p m) : n = m := first.1.unique second.1

theorem EndsAt.unique {front front' : List (PathStep ν)} {k k' : ι} {x x' : ν} (first : fs.EndsAt d p front k x n)
    (second : fs.EndsAt d p front' k' x' m) : k = k' ∧ x = x' ∧ n = m := by
  obtain ⟨rfl, last⟩ := List.append_inj' (first.steps.symm.trans second.steps) rfl
  cases last
  obtain rfl := first.follows.unique second.follows
  exact ⟨rfl, rfl, Option.some.inj (first.listed.symm.trans second.listed)⟩

theorem Names.unique (first : fs.Names d p n) (second : fs.Names d p m) : n = m := by
  rcases first with ⟨front, k, x, first⟩ | ⟨last, first⟩ <;> rcases second with ⟨front', k', x', second⟩ | ⟨last', second⟩
  · exact (first.unique second).2.2
  · rcases last' with dir | last'
    · rw [first.plain] at dir
      cases dir
    · exact absurd first.steps (last' front x)
  · rcases last with dir | last
    · rw [second.plain] at dir
      cases dir
    · exact absurd second.steps (last front' x')
  · exact first.unique second

theorem EndsAt.resolves_plain {front : List (PathStep ν)} {x : ν} (at_ : fs.EndsAt d p front k x n) (plain : fs.link n = none) :
    fs.Resolves d p n := by
  refine ⟨?_, fun dir => absurd (at_.plain.symm.trans dir) Bool.false_ne_true⟩
  rw [at_.steps]
  exact follows_append.mpr ⟨k, at_.follows, .name at_.dir at_.listed plain (.here n)⟩

theorem EndsAt.resolves_link {front : List (PathStep ν)} {x : ν} (at_ : fs.EndsAt d p front k x l) (linked : fs.link l = some q) :
    fs.Resolves d p n ↔ fs.Resolves k q n := by
  constructor
  · rintro ⟨whole, _⟩
    rw [at_.steps] at whole
    obtain ⟨k', before, last⟩ := follows_append.mp whole
    obtain rfl := at_.follows.unique before
    cases last with
    | name _ listed plain =>
      cases at_.listed.symm.trans listed
      cases plain.symm.trans linked
    | link _ listed linked' target ends later =>
      cases at_.listed.symm.trans listed
      cases linked.symm.trans linked'
      obtain rfl := follows_nil.mp later
      exact ⟨target, ends⟩
  · rintro ⟨target, ends⟩
    refine ⟨?_, fun dir => absurd (at_.plain.symm.trans dir) Bool.false_ne_true⟩
    rw [at_.steps]
    exact follows_append.mpr ⟨k, at_.follows, .link at_.dir at_.listed linked target ends (.here n)⟩

theorem Names.resolves (names : fs.Names d p n) (plain : fs.link n = none) : fs.Resolves d p n := by
  rcases names with ⟨front, k, x, at_⟩ | ⟨_, resolves⟩
  · exact at_.resolves_plain plain
  · exact resolves

theorem Resolves.named (resolves : fs.Resolves d p n) : ∃ m, fs.Names d p m := by
  by_cases last : p.directory = true ∨ ∀ front x, p.steps ≠ front ++ [.name x]
  · exact ⟨n, .inr ⟨last, resolves⟩⟩
  · rw [not_or, not_forall] at last
    obtain ⟨plain, front, last⟩ := last
    rw [not_forall] at last
    obtain ⟨x, last⟩ := last
    have steps := not_not.mp last
    have whole := resolves.1
    rw [steps] at whole
    obtain ⟨k, before, final⟩ := follows_append.mp whole
    have plain : p.directory = false := by simpa using plain
    cases final with
    | name dir listed => exact ⟨_, .inl ⟨front, k, x, plain, steps, before, dir, listed⟩⟩
    | link dir listed => exact ⟨_, .inl ⟨front, k, x, plain, steps, before, dir, listed⟩⟩

/-- A file system with a part of the entries of another, and the same nodes behind them. -/
structure Within (small big : LinkedFs ι ν) : Prop where
  root : small.root = big.root
  parent : small.parent = big.parent
  dir : ∀ {d}, small.isDir d → big.isDir d
  entry : ∀ {d x m}, small.entry d x = some m → big.entry d x = some m
  link : ∀ {d x m}, small.entry d x = some m → small.link m = big.link m

section Within

variable {small big : LinkedFs ι ν}

theorem start_within (part : small.Within big) : small.start p d = big.start p d := by
  rw [LinkedFs.start, LinkedFs.start, part.root]

theorem Follows.within (part : small.Within big) {steps : List (PathStep ν)} (follows : small.Follows d steps n) :
    big.Follows d steps n := by
  induction follows with
  | here d => exact .here d
  | up dir later ih => exact .up (part.dir dir) (part.parent ▸ ih)
  | name dir listed plain later ih => exact .name (part.dir dir) (part.entry listed) ((part.link listed).symm.trans plain) ih
  | link dir listed linked target ends later ih_target ih =>
    exact .link (part.dir dir) (part.entry listed) ((part.link listed).symm.trans linked) (start_within part ▸ ih_target)
      (fun directory => part.dir (ends directory)) ih

theorem Resolves.within (part : small.Within big) (resolves : small.Resolves d p n) : big.Resolves d p n :=
  ⟨start_within part ▸ resolves.1.within part, fun directory => part.dir (resolves.2 directory)⟩

theorem Names.within (part : small.Within big) (names : small.Names d p n) : big.Names d p n := by
  rcases names with ⟨front, k, x, at_⟩ | ⟨last, resolves⟩
  · exact .inl ⟨front, k, x, at_.plain, at_.steps, start_within part ▸ at_.follows.within part,
      part.dir at_.dir, part.entry at_.listed⟩
  · exact .inr ⟨last, resolves.within part⟩

end Within

end LinkedFs

end MacSftp.Lib
