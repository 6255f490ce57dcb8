import Mathlib.Data.List.Basic
import Mathlib.Data.List.Induction
import Mathlib.Logic.Function.Basic

namespace MacSftp.Lib

/-- A directory whose entries and whose files reach the disk separately. `kept` is what an entry may be after a crash, oldest
first. -/
structure Disk (Name β : Type) where
  entries : Name → Option Nat
  kept : Name → List (Option Nat)
  data : Nat → List β
  synced : Nat → Bool
  inodes : Nat

namespace Disk

variable {Name β : Type} [DecidableEq Name]

def enter (d : Disk Name β) (name : Name) (entry : Option Nat) : Disk Name β :=
  { d with
    entries := Function.update d.entries name entry
    kept := Function.update d.kept name (d.kept name ++ [entry]) }

def create (d : Disk Name β) (name : Name) : Disk Name β :=
  { d.enter name (some d.inodes) with
    data := Function.update d.data d.inodes []
    synced := Function.update d.synced d.inodes false
    inodes := d.inodes + 1 }

def append (d : Disk Name β) (inode : Nat) (bytes : List β) : Disk Name β :=
  { d with
    data := Function.update d.data inode (d.data inode ++ bytes)
    synced := Function.update d.synced inode false }

def syncFile (d : Disk Name β) (inode : Nat) : Disk Name β := { d with synced := Function.update d.synced inode true }

def rename (d : Disk Name β) (source target : Name) : Disk Name β := (d.enter target (d.entries source)).enter source none

def syncEntries (d : Disk Name β) : Disk Name β := { d with kept := fun name => [d.entries name] }

def read (d : Disk Name β) (name : Name) : Option (List β) := (d.entries name).map d.data

/-- What a crash may leave under a name. A file that is not synced may hold anything. -/
def Survives (d : Disk Name β) (name : Name) : Option (List β) → Prop
  | none => none ∈ d.kept name
  | some bytes => ∃ inode, some inode ∈ d.kept name ∧ (d.synced inode = true → bytes = d.data inode)

def image (d : Disk Name β) (name : Name) : List (Option (List β)) := (d.kept name).map fun entry => entry.map d.data

/-- What a disk holds when it is mounted: everything on it is durable. -/
structure Mounted (Name β : Type) where
  entries : Name → Option Nat
  data : Nat → List β
  inodes : Nat
  known : ∀ name inode, entries name = some inode → inode < inodes

def Mounted.disk (m : Mounted Name β) : Disk Name β where
  entries := m.entries
  kept := fun name => [m.entries name]
  data := m.data
  synced := fun _ => true
  inodes := m.inodes

structure Valid (d : Disk Name β) : Prop where
  live : ∀ name, (d.kept name).getLast? = some (d.entries name)
  known : ∀ name inode, some inode ∈ d.kept name → inode < d.inodes

def Solid (d : Disk Name β) (name : Name) : Prop := ∀ inode, some inode ∈ d.kept name → d.synced inode = true

structure Private (d : Disk Name β) (name : Name) (inode : Nat) : Prop where
  here : d.entries name = some inode
  alone : ∀ other, other ≠ name → some inode ∉ d.kept other

structure SameFile (d e : Disk Name β) (name : Name) : Prop where
  image : e.image name = d.image name
  solid : d.Solid name → e.Solid name

section Basics

variable {d e : Disk Name β} {name other source target : Name} {inode : Nat} {entry : Option Nat}

omit [DecidableEq Name]

theorem Valid.mem (h : d.Valid) (name : Name) : d.entries name ∈ d.kept name := List.mem_of_getLast? (h.live name)

theorem Mounted.valid (m : Mounted Name β) : m.disk.Valid := by
  refine ⟨fun _ => rfl, fun name inode mem => m.known name inode ?_⟩
  exact (List.mem_singleton.mp mem).symm

theorem Mounted.solid (m : Mounted Name β) (name : Name) : m.disk.Solid name := fun _ _ => rfl

theorem image_read (h : d.Valid) (name : Name) : (d.image name).getLast? = some (d.read name) := by
  rw [image, List.getLast?_map, h.live name]
  rfl

theorem survives_image (solid : d.Solid name) {contents : Option (List β)} (survives : d.Survives name contents) :
    contents ∈ d.image name := by
  cases contents with
  | none => exact List.mem_map.mpr ⟨none, survives, rfl⟩
  | some bytes =>
    obtain ⟨inode, mem, same⟩ := survives
    exact List.mem_map.mpr ⟨some inode, mem, congrArg some (same (solid inode mem)).symm⟩

theorem SameFile.of_kept (kept : e.kept name = d.kept name)
    (same : ∀ inode, some inode ∈ d.kept name → e.data inode = d.data inode ∧ (d.synced inode = true → e.synced inode = true)) :
    SameFile d e name := by
  constructor
  · rw [Disk.image, Disk.image, kept]
    refine List.map_congr_left fun entry mem => ?_
    cases entry with
    | none => rfl
    | some inode => exact congrArg some (same inode mem).1
  · intro solid inode mem
    rw [kept] at mem
    exact (same inode mem).2 (solid inode mem)

theorem Private.mem (h : d.Private name inode) (valid : d.Valid) : some inode ∈ d.kept name := h.here ▸ valid.mem name

end Basics

section Operations

variable {d : Disk Name β} {name other source target : Name} {inode : Nat} {entry : Option Nat}

theorem enter_kept_self : (d.enter name entry).kept name = d.kept name ++ [entry] := Function.update_self ..

theorem enter_entries_self : (d.enter name entry).entries name = entry := Function.update_self ..

theorem enter_kept_other (h : other ≠ name) : (d.enter name entry).kept other = d.kept other := Function.update_of_ne h ..

theorem enter_entries_other (h : other ≠ name) : (d.enter name entry).entries other = d.entries other := Function.update_of_ne h ..

theorem mem_enter_kept {e : Option Nat} (mem : e ∈ (d.enter name entry).kept other) :
    e ∈ d.kept other ∨ other = name ∧ e = entry := by
  by_cases h : other = name
  · subst h
    rw [enter_kept_self] at mem
    rcases List.mem_append.mp mem with old | new
    · exact .inl old
    · exact .inr ⟨rfl, List.mem_singleton.mp new⟩
  · rw [enter_kept_other h] at mem
    exact .inl mem

theorem Valid.enter (h : d.Valid) (known : ∀ inode, entry = some inode → inode < d.inodes) : (d.enter name entry).Valid := by
  constructor
  · intro other
    by_cases here : other = name
    · subst here
      rw [enter_kept_self, enter_entries_self, List.getLast?_concat]
    · rw [enter_kept_other here, enter_entries_other here]
      exact h.live other
  · intro other inode mem
    rcases mem_enter_kept mem with old | ⟨-, new⟩
    · exact h.known other inode old
    · exact known inode new.symm

theorem Valid.create (h : d.Valid) (name : Name) : (d.create name).Valid := by
  have wider : ({ d with inodes := d.inodes + 1 } : Disk Name β).Valid :=
    ⟨h.live, fun other inode mem => Nat.lt_succ_of_lt (h.known other inode mem)⟩
  have entered : (({ d with inodes := d.inodes + 1 } : Disk Name β).enter name (some d.inodes)).Valid := by
    refine wider.enter fun inode is => ?_
    cases is
    exact Nat.lt_succ_self _
  exact ⟨entered.live, entered.known⟩

theorem Valid.rename (h : d.Valid) (source target : Name) : (d.rename source target).Valid := by
  refine Valid.enter (h.enter fun inode is => ?_) fun inode never => ?_
  · exact h.known source inode (is ▸ h.mem source)
  · cases never

theorem Valid.remove (h : d.Valid) (name : Name) : (d.enter name none).Valid := h.enter fun inode never => by cases never

omit [DecidableEq Name] in
theorem Valid.syncEntries (h : d.Valid) : d.syncEntries.Valid := by
  refine ⟨fun _ => rfl, fun name inode mem => h.known name inode ?_⟩
  rw [List.mem_singleton.mp mem]
  exact h.mem name

theorem Private.enter (h : d.Private name inode) (apart : name ≠ target) (differs : entry ≠ some inode) :
    (d.enter target entry).Private name inode := by
  refine ⟨(enter_entries_other apart).trans h.here, fun other away mem => ?_⟩
  rcases mem_enter_kept mem with old | ⟨-, new⟩
  · exact h.alone other away old
  · exact differs new.symm

theorem create_private (h : d.Valid) (name : Name) : (d.create name).Private name d.inodes := by
  refine ⟨enter_entries_self, fun other away mem => ?_⟩
  rcases mem_enter_kept mem with old | ⟨here, -⟩
  · exact Nat.lt_irrefl _ (h.known other d.inodes old)
  · exact away here

theorem create_data : (d.create name).data d.inodes = [] := Function.update_self ..

omit [DecidableEq Name] in
theorem append_data (bytes : List β) : (d.append inode bytes).data inode = d.data inode ++ bytes := Function.update_self ..

omit [DecidableEq Name] in
theorem syncFile_synced : (d.syncFile inode).synced inode = true := Function.update_self ..

theorem sameFile_enter (apart : name ≠ target) : SameFile d (d.enter target entry) name :=
  .of_kept (enter_kept_other apart) fun _ _ => ⟨rfl, fun synced => synced⟩

theorem sameFile_create (h : d.Valid) (apart : name ≠ target) : SameFile d (d.create target) name := by
  refine .of_kept (enter_kept_other apart) fun inode mem => ?_
  have older : inode ≠ d.inodes := Nat.ne_of_lt (h.known name inode mem)
  exact ⟨Function.update_of_ne older .., fun synced => (Function.update_of_ne older ..).trans synced⟩

omit [DecidableEq Name] in
theorem sameFile_append (foreign : some inode ∉ d.kept name) (bytes : List β) : SameFile d (d.append inode bytes) name := by
  refine .of_kept rfl fun other mem => ?_
  have differs : other ≠ inode := fun is => foreign (is ▸ mem)
  exact ⟨Function.update_of_ne differs .., fun synced => (Function.update_of_ne differs ..).trans synced⟩

omit [DecidableEq Name] in
theorem sameFile_syncFile (inode : Nat) (name : Name) : SameFile d (d.syncFile inode) name := by
  refine .of_kept rfl fun other _ => ⟨rfl, fun synced => ?_⟩
  by_cases is : other = inode
  · subst is
    exact Function.update_self ..
  · exact (Function.update_of_ne is ..).trans synced

end Operations

end Disk

inductive Change (Name β : Type)
  | replaced (source target : Name) (bytes : List β)
  | flushed
  deriving DecidableEq, Repr

section Candidates

variable {Name β : Type} [DecidableEq Name]

def Change.apply (name : Name) (values : List (Option (List β))) : Change Name β → List (Option (List β))
  | .replaced _ target bytes => if target = name then values ++ [some bytes] else values
  | .flushed => values.getLast?.toList

/-- The values that a crash may leave under a name: the last one that is durable, and each one since. -/
def candidates (name : Name) (values : List (Option (List β))) (changes : List (Change Name β)) : List (Option (List β)) :=
  changes.foldl (Change.apply name) values

theorem candidates_append (name : Name) (values : List (Option (List β))) (before after : List (Change Name β)) :
    candidates name values (before ++ after) = candidates name (candidates name values before) after := List.foldl_append

theorem Change.mem_apply {name : Name} {values : List (Option (List β))} {change : Change Name β} {value : Option (List β)}
    (mem : value ∈ change.apply name values) :
    value ∈ values ∨ ∃ source bytes, change = .replaced source name bytes ∧ value = some bytes := by
  cases change with
  | flushed => exact .inl (List.mem_of_getLast? (Option.mem_toList.mp mem))
  | replaced source target bytes =>
    rw [Change.apply] at mem
    split_ifs at mem with here
    · subst here
      rcases List.mem_append.mp mem with old | new
      · exact .inl old
      · exact .inr ⟨source, bytes, rfl, List.mem_singleton.mp new⟩
    · exact .inl mem

theorem Change.last_apply {name : Name} {values : List (Option (List β))} {change : Change Name β} {value : Option (List β)}
    (last : (change.apply name values).getLast? = some value) :
    values.getLast? = some value ∨ ∃ source bytes, change = .replaced source name bytes ∧ value = some bytes := by
  cases change with
  | flushed =>
    left
    rw [Change.apply] at last
    cases ends : values.getLast? with
    | none => simp [ends] at last
    | some old => simpa [ends] using last
  | replaced source target bytes =>
    rw [Change.apply] at last
    split_ifs at last with here
    · subst here
      rw [List.getLast?_concat] at last
      exact .inr ⟨source, bytes, rfl, (Option.some.inj last).symm⟩
    · exact .inl last

def latest (name : Name) (value : Option (List β)) (changes : List (Change Name β)) : Option (List β) :=
  changes.foldl (fun value change => match change with
    | .replaced _ target bytes => if target = name then some bytes else value
    | .flushed => value) value

theorem candidates_getLast {name : Name} {values : List (Option (List β))} {value : Option (List β)}
    {changes : List (Change Name β)}
    (last : values.getLast? = some value) : (candidates name values changes).getLast? = some (latest name value changes) := by
  induction changes generalizing values value with
  | nil => exact last
  | cons change changes ih =>
    cases change with
    | flushed =>
      refine ih ?_
      rw [Change.apply, last]
      rfl
    | replaced source target bytes =>
      by_cases here : target = name
      · subst here
        have next : latest target value (.replaced source target bytes :: changes) = latest target (some bytes) changes := by
          simp [latest]
        rw [next]
        refine ih ?_
        rw [Change.apply, if_pos rfl, List.getLast?_concat]
      · have next : latest name value (.replaced source target bytes :: changes) = latest name value changes := by
          simp [latest, here]
        rw [next]
        refine ih ?_
        rw [Change.apply, if_neg here, last]

def Puts (name : Name) (changes : List (Change Name β)) (value : Option (List β)) : Prop :=
  ∃ source bytes, .replaced source name bytes ∈ changes ∧ value = some bytes

omit [DecidableEq Name] in
theorem Puts.mono {name : Name} {changes more : List (Change Name β)} {value : Option (List β)} (h : Puts name changes value)
    (wider : ∀ change ∈ changes, change ∈ more) : Puts name more value := by
  obtain ⟨source, bytes, mem, is⟩ := h
  exact ⟨source, bytes, wider _ mem, is⟩

theorem candidates_mem {name : Name} {values : List (Option (List β))} {changes : List (Change Name β)} {value : Option (List β)}
    (mem : value ∈ candidates name values changes) : value ∈ values ∨ Puts name changes value := by
  induction changes generalizing values with
  | nil => exact .inl mem
  | cons change changes ih =>
    rcases ih mem with now | later
    · rcases Change.mem_apply now with old | ⟨source, bytes, rfl, is⟩
      · exact .inl old
      · exact .inr ⟨source, bytes, List.mem_cons_self, is⟩
    · exact .inr (later.mono fun _ => List.mem_cons_of_mem change)

theorem candidates_last {name : Name} {values : List (Option (List β))} {changes : List (Change Name β)} {value : Option (List β)}
    (last : (candidates name values changes).getLast? = some value) : values.getLast? = some value ∨ Puts name changes value := by
  induction changes generalizing values with
  | nil => exact .inl last
  | cons change changes ih =>
    rcases ih last with now | later
    · rcases Change.last_apply now with old | ⟨source, bytes, rfl, is⟩
      · exact .inl old
      · exact .inr ⟨source, bytes, List.mem_cons_self, is⟩
    · exact .inr (later.mono fun _ => List.mem_cons_of_mem change)

theorem candidates_flushed {name source : Name} {bytes : List β} {values : List (Option (List β))}
    {before between after : List (Change Name β)} {value : Option (List β)}
    (mem : value ∈ candidates name values (before ++ (.replaced source name bytes :: between) ++ .flushed :: after)) :
    value = some bytes ∨ Puts name (between ++ after) value := by
  rw [candidates_append, candidates_append] at mem
  change value ∈ candidates name (candidates name _ between).getLast?.toList after at mem
  rcases candidates_mem mem with flushed | later
  · rcases candidates_last (Option.mem_toList.mp flushed) with own | later
    · rw [Change.apply, if_pos rfl, List.getLast?_concat] at own
      exact .inl (Option.some.inj own).symm
    · exact .inr (later.mono fun _ => List.mem_append_left after)
  · exact .inr (later.mono fun _ => List.mem_append_right between)

end Candidates

namespace Disk

variable {Name β : Type} [DecidableEq Name] {d e : Disk Name β} {temp target name : Name} {contents : List β}
  {changes : List (Change Name β)}

/-- A step of a party that fills a file under a name of its own and puts it in the place of the target. -/
inductive OwnStep (temp target : Name) (contents : List β) : Disk Name β → Disk Name β → List (Change Name β) → Prop
  | idle (d : Disk Name β) : OwnStep temp target contents d d []
  | create (d : Disk Name β) : OwnStep temp target contents d (d.create temp) []
  | append {d : Disk Name β} {inode : Nat} (own : d.Private temp inode) (bytes : List β) :
      OwnStep temp target contents d (d.append inode bytes) []
  | syncFile {d : Disk Name β} {inode : Nat} (own : d.Private temp inode) : OwnStep temp target contents d (d.syncFile inode) []
  | rename {d : Disk Name β} {inode : Nat} (own : d.Private temp inode) (synced : d.synced inode = true)
      (full : d.data inode = contents) : OwnStep temp target contents d (d.rename temp target) [.replaced temp target contents]
  | remove (d : Disk Name β) : OwnStep temp target contents d (d.enter temp none) []
  | flush (d : Disk Name β) : OwnStep temp target contents d d.syncEntries [.flushed]

theorem OwnStep.valid (step : OwnStep temp target contents d e changes) (h : d.Valid) : e.Valid := by
  cases step with
  | idle => exact h
  | create => exact h.create temp
  | append | syncFile => exact ⟨h.live, h.known⟩
  | rename => exact h.rename temp target
  | remove => exact h.remove temp
  | flush => exact h.syncEntries

theorem OwnStep.replaces (step : OwnStep temp target contents d e changes) {source other : Name} {bytes : List β}
    (mem : .replaced source other bytes ∈ changes) : source = temp ∧ other = target ∧ bytes = contents := by
  cases step with
  | rename =>
    cases List.mem_singleton.mp mem
    exact ⟨rfl, rfl, rfl⟩
  | flush => cases List.mem_singleton.mp mem
  | _ => cases mem

theorem OwnStep.spares (step : OwnStep temp target contents d e changes) (h : d.Valid) {inode : Nat} (others : d.Private name inode)
    (apart : name ≠ temp) (aside : name ≠ target) :
    e.Private name inode ∧ e.data inode = d.data inode ∧ e.synced inode = d.synced inode := by
  have older : inode ≠ d.inodes := Nat.ne_of_lt (h.known name inode (others.mem h))
  have foreign : ∀ {own}, d.Private temp own → inode ≠ own := fun its is =>
    its.alone name apart (is ▸ others.mem h)
  cases step with
  | idle => exact ⟨others, rfl, rfl⟩
  | create =>
    have kept : (d.enter temp (some d.inodes)).Private name inode := others.enter apart fun is => older (Option.some.inj is).symm
    exact ⟨⟨kept.here, kept.alone⟩, Function.update_of_ne older .., Function.update_of_ne older ..⟩
  | append own bytes =>
    have differs := foreign own
    exact ⟨⟨others.here, others.alone⟩, Function.update_of_ne differs .., Function.update_of_ne differs ..⟩
  | syncFile own => exact ⟨⟨others.here, others.alone⟩, rfl, Function.update_of_ne (foreign own) ..⟩
  | rename own =>
    have placed : (d.enter target (d.entries temp)).Private name inode := by
      refine others.enter aside fun is => foreign own ?_
      exact (Option.some.inj (own.here ▸ is)).symm
    exact ⟨placed.enter apart (by simp), rfl, rfl⟩
  | remove => exact ⟨others.enter apart (by simp), rfl, rfl⟩
  | flush =>
    refine ⟨⟨others.here, fun other away mem => ?_⟩, rfl, rfl⟩
    exact others.alone other away (List.mem_singleton.mp mem ▸ h.mem other)

theorem OwnStep.tracks (step : OwnStep temp target contents d e changes) (h : d.Valid) (apart : name ≠ temp)
    (solid : d.Solid name) :
    e.Solid name ∧ e.image name = candidates name (d.image name) changes := by
  have foreign : ∀ {own}, d.Private temp own → some own ∉ d.kept name := fun its => its.alone name apart
  have same : SameFile d e name → e.Solid name ∧ e.image name = d.image name := fun kept => ⟨kept.solid solid, kept.image⟩
  cases step with
  | idle => exact ⟨solid, rfl⟩
  | create => exact same (sameFile_create h apart)
  | append own bytes => exact same (sameFile_append (foreign own) bytes)
  | syncFile own => exact same (sameFile_syncFile _ name)
  | remove => exact same (sameFile_enter apart)
  | flush =>
    refine ⟨fun inode mem => solid inode ?_, ?_⟩
    · exact List.mem_singleton.mp mem ▸ h.mem name
    · change [d.read name] = (d.image name).getLast?.toList
      rw [image_read h]
      rfl
  | rename own synced full =>
    have after : SameFile (d.enter target (d.entries temp)) (d.rename temp target) name := sameFile_enter apart
    change (d.rename temp target).Solid name ∧ (d.rename temp target).image name = if target = name then _ else _
    split_ifs with here
    · subst here
      rw [own.here] at after
      refine ⟨after.solid fun other mem => ?_, after.image.trans ?_⟩
      · rcases mem_enter_kept mem with old | ⟨-, new⟩
        · exact solid other old
        · cases new
          exact synced
      · rw [image, enter_kept_self, List.map_append]
        exact congrArg (d.image target ++ [some ·]) full
    · have other : SameFile d (d.enter target (d.entries temp)) name := sameFile_enter (Ne.symm here)
      exact ⟨after.solid (other.solid solid), after.image.trans other.image⟩

end Disk

end MacSftp.Lib
