import Mathlib.Data.List.Perm.Basic

namespace MacSftp.Lib

inductive Rose (α : Type) : Type
  | node (label : α) (children : List (Rose α))

namespace Rose

variable {α : Type}

def label : Rose α → α
  | node a _ => a

theorem induct {P : Rose α → Prop} (step : ∀ a cs, (∀ c ∈ cs, P c) → P (node a cs)) (t : Rose α) : P t := by
  match t with
  | node a cs => exact step a cs fun c _ => induct step c

mutual

def size : Rose α → Nat
  | node _ cs => sizes cs + 1

def sizes : List (Rose α) → Nat
  | [] => 0
  | c :: cs => size c + sizes cs

end

mutual

/-- Every node of a tree, as the labels on the way to it, each node before what is below it. -/
def routes (route : List α) : Rose α → List (List α)
  | node a cs => (route ++ [a]) :: allRoutes (route ++ [a]) cs

def allRoutes (route : List α) : List (Rose α) → List (List α)
  | [] => []
  | c :: cs => routes route c ++ allRoutes route cs

end

mutual

/-- The nodes below the root in the order of a walk that lists all children of a node before it goes down into any. -/
def visits (route : List α) : Rose α → List (List α)
  | node a cs => cs.map (fun c => route ++ [a, c.label]) ++ allVisits (route ++ [a]) cs

def allVisits (route : List α) : List (Rose α) → List (List α)
  | [] => []
  | c :: cs => visits route c ++ allVisits route cs

end

/-- Something holds of every node with its children. -/
inductive All (p : α → List (Rose α) → Prop) : Rose α → Prop
  | node {a : α} {cs : List (Rose α)} (here : p a cs) (rest : ∀ c ∈ cs, All p c) : All p (node a cs)

/-- No two children of a node have the same label. -/
def Distinct : Rose α → Prop := All fun _ cs => (cs.map label).Nodup

theorem size_pos (t : Rose α) : 0 < t.size := by
  cases t
  rw [size]
  omega

theorem sizes_append (a b : List (Rose α)) : sizes (a ++ b) = sizes a + sizes b := by
  induction a with
  | nil => exact (Nat.zero_add _).symm
  | cons c cs ih =>
    rw [List.cons_append, sizes, sizes, ih]
    omega

theorem allVisits_eq_flatMap (route : List α) (cs : List (Rose α)) : allVisits route cs = cs.flatMap (visits route) := by
  induction cs with
  | nil => rfl
  | cons c cs ih => rw [allVisits, ih, List.flatMap_cons]

theorem allRoutes_eq_flatMap (route : List α) (cs : List (Rose α)) : allRoutes route cs = cs.flatMap (routes route) := by
  induction cs with
  | nil => rfl
  | cons c cs ih => rw [allRoutes, ih, List.flatMap_cons]

/-- The walk meets every node once. -/
theorem routes_perm (t : Rose α) (route : List α) : (routes route t).Perm ((route ++ [t.label]) :: visits route t) := by
  induction t using induct generalizing route with
  | step a cs ih =>
    have each : ∀ c ∈ cs, (routes (route ++ [a]) c).Perm ((route ++ [a, c.label]) :: visits (route ++ [a]) c) := by
      intro c mem
      have one := ih c mem (route ++ [a])
      rwa [List.append_assoc] at one
    have whole := (List.map_append_flatMap_perm cs (fun c => route ++ [a, c.label]) (visits (route ++ [a]))).symm
    rw [routes, visits, label, allRoutes_eq_flatMap, allVisits_eq_flatMap]
    exact ((List.Perm.flatMap_left cs each).trans whole).cons _

theorem visits_under {t : Rose α} {route r : List α} (mem : r ∈ visits route t) :
    ∃ rest, rest ≠ [] ∧ r = route ++ t.label :: rest := by
  induction t using induct generalizing route with
  | step a cs ih =>
    rw [visits, allVisits_eq_flatMap] at mem
    rcases List.mem_append.mp mem with child | deeper
    · obtain ⟨c, -, rfl⟩ := List.mem_map.mp child
      exact ⟨[c.label], List.cons_ne_nil _ _, rfl⟩
    · obtain ⟨c, here, inside⟩ := List.mem_flatMap.mp deeper
      obtain ⟨rest, -, rfl⟩ := ih c here inside
      refine ⟨c.label :: rest, List.cons_ne_nil _ _, ?_⟩
      rw [List.append_assoc]
      rfl

/-- Nothing is met after, or twice with, what is below it. -/
theorem visits_ordered {t : Rose α} (distinct : t.Distinct) (route : List α) :
    ((route ++ [t.label]) :: visits route t).Pairwise (fun earlier later => ¬ later <+: earlier) := by
  induction t using induct generalizing route with
  | step a cs ih =>
    obtain ⟨here, rest⟩ := distinct
    have apart : cs.Pairwise (fun c d => c.label ≠ d.label) := List.pairwise_map.mp here
    have children : (cs.map (fun c => route ++ [a, c.label])).Pairwise (fun earlier later => ¬ later <+: earlier) := by
      refine List.pairwise_map.mpr (apart.imp fun differ front => differ ?_)
      rw [List.prefix_append_right_inj, List.cons_prefix_cons, List.cons_prefix_cons] at front
      exact front.2.1.symm
    have deeper : (allVisits (route ++ [a]) cs).Pairwise (fun earlier later => ¬ later <+: earlier) := by
      rw [allVisits_eq_flatMap, List.pairwise_flatMap]
      refine ⟨fun c mem => (List.pairwise_cons.mp (ih c mem (rest c mem) (route ++ [a]))).2,
        apart.imp fun differ x inC y inD front => ?_⟩
      obtain ⟨restC, -, rfl⟩ := visits_under inC
      obtain ⟨restD, -, rfl⟩ := visits_under inD
      rw [List.prefix_append_right_inj, List.cons_prefix_cons] at front
      exact differ front.1.symm
    have between : ∀ x ∈ cs.map (fun c => route ++ [a, c.label]), ∀ y ∈ allVisits (route ++ [a]) cs, ¬ y <+: x := by
      intro x inChildren y inDeeper front
      rw [allVisits_eq_flatMap] at inDeeper
      obtain ⟨c, -, rfl⟩ := List.mem_map.mp inChildren
      obtain ⟨d, -, inD⟩ := List.mem_flatMap.mp inDeeper
      obtain ⟨below, some_, rfl⟩ := visits_under inD
      have length := front.length_le
      have long := List.length_pos_iff.mpr some_
      simp only [List.length_append, List.length_cons, List.length_nil] at length
      omega
    have walk : (visits route (node a cs)).Pairwise (fun earlier later => ¬ later <+: earlier) := by
      rw [visits]
      exact List.pairwise_append.mpr ⟨children, deeper, between⟩
    refine List.pairwise_cons.mpr ⟨fun y inside front => ?_, walk⟩
    obtain ⟨below, some_, rfl⟩ := visits_under inside
    have length := front.length_le
    have long := List.length_pos_iff.mpr some_
    simp only [List.length_append, List.length_cons, List.length_nil] at length
    omega

end Rose

end MacSftp.Lib
