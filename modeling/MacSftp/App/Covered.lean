import MacSftp.App.VisibleJobs
import MacSftp.Transfer.Clearing
import MacSftp.Transfer.Replay

namespace MacSftp

open Lib

/-- The root stands for a hidden child in this state. -/
def TransferPlan.Backs (plan : TransferPlan) (look : TransferId → Option TransferState) (state : TransferState) : Prop :=
  (state.isTerminal = false → look plan.rootJobId ≠ none) ∧
    (state.isLive = true → ∃ root, look plan.rootJobId = some root ∧ root.isTerminal = false)

instance decidableKnown {α : Type} {known : Option α} {P : α → Prop} [DecidablePred P] :
    Decidable (∀ a, known = some a → P a) := inferInstanceAs (Decidable (∀ a, a ∈ known → P a))

instance decidableFound {α : Type} {known : Option α} {P : α → Prop} [DecidablePred P] :
    Decidable (∃ a, known = some a ∧ P a) := inferInstanceAs (Decidable (∃ a, a ∈ known ∧ P a))

instance (plan : TransferPlan) (look : TransferId → Option TransferState) (state : TransferState) :
    Decidable (plan.Backs look state) := inferInstanceAs (Decidable (_ ∧ _))

/-- What a plan needs of the states of its rows to be shown while it has work. -/
def TransferPlan.Covered (plan : TransferPlan) (look : TransferId → Option TransferState) : Prop :=
  if plan.state.byRoot then ∀ id ∈ plan.childJobs, ∀ state, look id = some state → plan.Backs look state
  else
    plan.childJobs ≠ [] → ∀ root, look plan.rootJobId = some root → root.isTerminal = false →
      ∃ id ∈ plan.childJobs, look id ≠ none

/-- What a row's new state must be for the plan to stay covered. -/
def TransferPlan.Fits (plan : TransferPlan) (look : TransferId → Option TransferState) (id : TransferId)
    (state : TransferState) : Prop :=
  if plan.state.byRoot then
    (id ∈ plan.childJobs → plan.Backs look state) ∧
    (id = plan.rootJobId → state.isTerminal = true →
      ∀ child ∈ plan.childJobs, ∀ childState, look child = some childState → childState.isLive = false)
  else
    id = plan.rootJobId → plan.childJobs ≠ [] → state.isTerminal = false → ∃ child ∈ plan.childJobs, look child ≠ none

instance (plan : TransferPlan) (look : TransferId → Option TransferState) (id : TransferId) (state : TransferState) :
    Decidable (plan.Fits look id state) := by
  delta TransferPlan.Fits
  infer_instance

section Looks

variable {plan : TransferPlan} {look look' : TransferId → Option TransferState} {id : TransferId} {state : TransferState}

theorem backs_congr (root : look' plan.rootJobId = look plan.rootJobId) : plan.Backs look' state ↔ plan.Backs look state := by
  unfold TransferPlan.Backs
  rw [root]

theorem covered_congr (root : look' plan.rootJobId = look plan.rootJobId)
    (children : ∀ child ∈ plan.childJobs, look' child = look child) : plan.Covered look' ↔ plan.Covered look := by
  unfold TransferPlan.Covered TransferPlan.Backs
  rw [root]
  split
  · refine forall₂_congr fun child hc => ?_
    rw [children child hc]
  · refine forall_congr' fun _ => forall₃_congr fun _ _ _ => exists_congr fun child => and_congr_right fun hc => ?_
    rw [children child hc]

theorem covered_write (apart : plan.rootJobId ∉ plan.childJobs) (covered : plan.Covered look) :
    plan.Covered (Function.update look id (some state)) ↔ plan.Fits look id state := by
  by_cases root : id = plan.rootJobId
  · have others : ∀ child ∈ plan.childJobs, Function.update look id (some state) child = look child := by
      intro child hc
      have ne : child ≠ id := fun same => apart (root ▸ same ▸ hc)
      exact Function.update_of_ne ne _ _
    have here : Function.update look id (some state) plan.rootJobId = some state := by
      rw [← root, Function.update_self]
    have notChild : id ∉ plan.childJobs := root ▸ apart
    unfold TransferPlan.Covered TransferPlan.Fits TransferPlan.Backs at *
    rw [here]
    split
    · rename_i byRoot
      rw [if_pos byRoot] at covered
      constructor
      · refine fun h => ⟨fun child => absurd child notChild, fun _ terminal child hc childState known => ?_⟩
        by_contra live
        obtain ⟨rootState, same, awake⟩ := (h child hc childState ((others child hc).trans known)).2 (by simpa using live)
        cases same
        exact absurd (awake.symm.trans terminal) (by simp)
      · refine fun h child hc childState known => ⟨fun _ => by simp, fun live => ⟨state, rfl, ?_⟩⟩
        by_contra terminal
        have dead := h.2 root (by simpa using terminal) child hc childState ((others child hc).symm.trans known)
        exact absurd (dead.symm.trans live) (by simp)
    · constructor
      · intro h _ children awake
        obtain ⟨child, hc, there⟩ := h children state rfl awake
        exact ⟨child, hc, others child hc ▸ there⟩
      · rintro h children _ ⟨⟩ awake
        obtain ⟨child, hc, there⟩ := h root children awake
        exact ⟨child, hc, (others child hc).symm ▸ there⟩
  · have here : Function.update look id (some state) plan.rootJobId = look plan.rootJobId :=
      Function.update_of_ne (fun same => root same.symm) _ _
    by_cases child : id ∈ plan.childJobs
    · unfold TransferPlan.Covered TransferPlan.Fits at *
      rw [here]
      split
      · rename_i byRoot
        rw [if_pos byRoot] at covered
        constructor
        · exact fun h => ⟨fun _ => (backs_congr here).mp (h id child state (Function.update_self _ _ _)), fun same =>
            absurd same root⟩
        · intro h other ho otherState known
          by_cases same : other = id
          · subst same
            rw [Function.update_self] at known
            cases known
            exact (backs_congr here).mpr (h.1 child)
          · rw [Function.update_of_ne same] at known
            exact (backs_congr here).mpr (covered other ho otherState known)
      · constructor
        · exact fun _ same => absurd same root
        · intro _ _ _ _ _
          exact ⟨id, child, by rw [Function.update_self]; simp⟩
    · have others : ∀ other ∈ plan.childJobs, Function.update look id (some state) other = look other := by
        intro other ho
        have ne : other ≠ id := fun same => child (same ▸ ho)
        exact Function.update_of_ne ne _ _
      rw [covered_congr here others]
      refine iff_of_true covered ?_
      unfold TransferPlan.Fits
      split
      · exact ⟨fun hc => absurd hc child, fun same => absurd same root⟩
      · exact fun same => absurd same root

end Looks

namespace TransferStore

variable (s : TransferStore)

def ShownByRoot (plan : TransferPlan) : Prop := ∃ job ∈ s.visibleTransferJobs, job.id = plan.rootJobId

def ShownByChildren (plan : TransferPlan) : Prop := ∃ job ∈ s.visibleTransferJobs, job.id ∈ plan.childJobs

/-- By its root or by its children, and not by both. -/
def PlansShown : Prop :=
  ∀ plan ∈ s.plans, ¬(s.ShownByRoot plan ∧ s.ShownByChildren plan) ∧
    ((∃ job ∈ s.jobs, plan.Owns job.id ∧ job.state.isTerminal = false) → s.ShownByRoot plan ∨ s.ShownByChildren plan)

/-- The job's plan is shown by its root, which is unfinished and is cancelled with the others, or has been already. -/
def ReachedByRoot (job : TransferJob) : Prop :=
  ∃ plan ∈ s.plans, plan.Owns job.id ∧ ∃ root ∈ s.visibleTransferJobs, root.id = plan.rootJobId ∧
    root.state.isTerminal = false ∧ (root.id ∈ s.cancelAllTransfers ∨ root.state = .cancelling)

/-- The root of a plan that its children stand for. -/
def StoodFor (job : TransferJob) : Prop := ∃ plan ∈ s.plans, job.id = plan.rootJobId ∧ s.ShownByChildren plan

def LiveJobsReached : Prop :=
  ∀ job ∈ s.jobs, job.state.isLive = true →
    (job ∈ s.visibleTransferJobs ∧ job.id ∈ s.cancelAllTransfers) ∨ s.ReachedByRoot job ∨ s.StoodFor job

variable {s} {plan : TransferPlan}

theorem shownByRoot_iff (valid : s.Valid) (hp : plan ∈ s.plans) :
    s.ShownByRoot plan ↔ s.stateOf plan.rootJobId ≠ none ∧ s.showRoot plan = true := by
  constructor
  · rintro ⟨job, visible, root⟩
    obtain ⟨hj, shown⟩ := (visible_root valid hp root).mp visible
    rw [← root, stateOf_mem valid.jobs hj]
    exact ⟨by simp, shown⟩
  · rintro ⟨there, shown⟩
    obtain ⟨state, known⟩ := Option.ne_none_iff_exists'.mp there
    obtain ⟨job, hj, root, _⟩ := (stateOf_some valid.jobs).mp known
    exact ⟨job, (visible_root valid hp root).mpr ⟨hj, shown⟩, root⟩

theorem shownByChildren_iff (valid : s.Valid) (hp : plan ∈ s.plans) :
    s.ShownByChildren plan ↔ (∃ id ∈ plan.childJobs, s.stateOf id ≠ none) ∧ s.showRoot plan = false := by
  constructor
  · rintro ⟨job, visible, child⟩
    obtain ⟨hj, hidden⟩ := (visible_child valid hp child).mp visible
    refine ⟨⟨job.id, child, ?_⟩, hidden⟩
    rw [stateOf_mem valid.jobs hj]
    simp
  · rintro ⟨⟨id, child, there⟩, hidden⟩
    obtain ⟨state, known⟩ := Option.ne_none_iff_exists'.mp there
    obtain ⟨job, hj, rfl, _⟩ := (stateOf_some valid.jobs).mp known
    exact ⟨job, (visible_child valid hp child).mpr ⟨hj, hidden⟩, child⟩

theorem covered_hidden (valid : s.Valid) (covered : plan.Covered s.stateOf)
    (hidden : s.showRoot plan = false) {root : TransferState} (known : s.stateOf plan.rootJobId = some root)
    (awake : root.isTerminal = false) : ∃ id ∈ plan.childJobs, s.stateOf id ≠ none := by
  unfold TransferPlan.Covered at covered
  split at covered
  · rename_i byRoot
    obtain ⟨job, hj, child⟩ := childrenAreTerminal_some valid (hidden_children hidden) (hidden_byRoot hidden byRoot)
    refine ⟨job.id, child, ?_⟩
    rw [stateOf_mem valid.jobs hj]
    simp
  · exact covered (hidden_children hidden) root known awake

theorem covered_shown (covered : plan.Covered s.stateOf) (shown : s.showRoot plan = true) {id : TransferId}
    (child : id ∈ plan.childJobs) {state : TransferState} (known : s.stateOf id = some state) :
    (state.isTerminal = false → s.stateOf plan.rootJobId ≠ none) ∧
      (state.isLive = true → ∃ root, s.stateOf plan.rootJobId = some root ∧ root.isTerminal = false) := by
  unfold TransferPlan.Covered at covered
  rw [if_pos (showRoot_byRoot (List.ne_nil_of_mem child) shown)] at covered
  exact covered id child state known

theorem plansShown_of_covered (valid : s.Valid) (covered : ∀ plan ∈ s.plans, plan.Covered s.stateOf) : s.PlansShown := by
  intro plan hp
  rw [shownByRoot_iff valid hp, shownByChildren_iff valid hp]
  refine ⟨fun both => absurd (both.1.2.symm.trans both.2.2) (by simp), ?_⟩
  rintro ⟨job, hj, owned, awake⟩
  have known := stateOf_mem valid.jobs hj
  cases shown : s.showRoot plan with
  | true =>
    rcases owned with root | child
    · exact Or.inl ⟨by rw [← root, known]; simp, rfl⟩
    · exact Or.inl ⟨(covered_shown (covered plan hp) shown child known).1 awake, rfl⟩
  | false =>
    rcases owned with root | child
    · exact Or.inr ⟨covered_hidden valid (covered plan hp) shown (root ▸ known) awake, rfl⟩
    · exact Or.inr ⟨⟨job.id, child, by rw [known]; simp⟩, rfl⟩

theorem liveJobsReached_of_covered (valid : s.Valid) (covered : ∀ plan ∈ s.plans, plan.Covered s.stateOf) :
    s.LiveJobsReached := by
  intro job hj live
  have known := stateOf_mem valid.jobs hj
  by_cases visible : job ∈ s.visibleTransferJobs
  · exact Or.inl ⟨visible, mem_cancelAll.mpr ⟨job, visible, TransferState.isLive_cancellable live, rfl⟩⟩
  refine Or.inr ?_
  obtain ⟨plan, hp, owns⟩ : ∃ plan ∈ s.plans, plan.Owns job.id := by
    by_contra unowned
    exact visible (visible_unowned hj fun plan hp owns => unowned ⟨plan, hp, owns⟩)
  rcases owns with root | child
  · have hidden : s.showRoot plan = false := by
      by_contra shown
      exact visible ((visible_root valid hp root).mpr ⟨hj, by simpa using shown⟩)
    refine Or.inr ⟨plan, hp, root, (shownByChildren_iff valid hp).mpr ⟨?_, hidden⟩⟩
    exact covered_hidden valid (covered plan hp) hidden (root ▸ known) (TransferState.isLive_open live)
  · have shown : s.showRoot plan = true := by
      by_contra hidden
      exact visible ((visible_child valid hp child).mpr ⟨hj, by simpa using hidden⟩)
    obtain ⟨state, rootKnown, awake⟩ := (covered_shown (covered plan hp) shown child known).2 live
    obtain ⟨root, hr, rootId, rfl⟩ := (stateOf_some valid.jobs).mp rootKnown
    have rootVisible := (visible_root valid hp rootId).mpr ⟨hr, shown⟩
    refine Or.inl ⟨plan, hp, Or.inr child, root, rootVisible, rootId, awake, ?_⟩
    exact (TransferState.open_cancellable awake).imp_left fun cancellable =>
      mem_cancelAll.mpr ⟨root, rootVisible, cancellable, rfl⟩

theorem covered_of_shown (valid : s.Valid) (shown : s.PlansShown) (reached : s.LiveJobsReached) (hp : plan ∈ s.plans) :
    plan.Covered s.stateOf := by
  unfold TransferPlan.Covered
  split
  · rename_i byRoot
    intro id child state known
    obtain ⟨job, hj, rfl, rfl⟩ := (stateOf_some valid.jobs).mp known
    have open_ : job.state.isTerminal = false → s.showRoot plan = true := by
      intro awake
      by_contra hidden
      have terminal := childrenAreTerminal_rows valid hp (hidden_byRoot (by simpa using hidden) byRoot) job hj child
      exact absurd (awake.symm.trans terminal) (by simp)
    refine ⟨fun awake => ?_, fun live => ?_⟩
    · rcases (shown plan hp).2 ⟨job, hj, Or.inr child, awake⟩ with byRoot' | byChildren
      · exact ((shownByRoot_iff valid hp).mp byRoot').1
      · exact absurd (((shownByChildren_iff valid hp).mp byChildren).2.symm.trans (open_ awake)) (by simp)
    · have here := open_ (TransferState.isLive_open live)
      rcases reached job hj live with ⟨visible, _⟩ | ⟨other, ho, owns, root, visible, rootId, awake, _⟩ | ⟨other, ho, root, _⟩
      · exact absurd (((visible_child valid hp child).mp visible).2.symm.trans here) (by simp)
      · have same : plan.id = other.id := by
          by_contra apart
          exact valid.plans.apart plan hp other ho apart job.id (Or.inr child) owns
        cases key_unique (fun plan => plan.id) valid.plans.ids hp ho same
        exact ⟨root.state, (stateOf_some valid.jobs).mpr ⟨root, (mem_visible.mp visible).1, rootId, rfl⟩, awake⟩
      · have same : plan.id = other.id := by
          by_contra apart
          exact valid.plans.apart plan hp other ho apart job.id (Or.inr child) (Or.inl root)
        cases key_unique (fun plan => plan.id) valid.plans.ids hp ho same
        exact absurd (root ▸ child) (valid.plans.root plan hp)
  · rename_i byChildren
    intro children root known awake
    obtain ⟨job, hj, rootId, rfl⟩ := (stateOf_some valid.jobs).mp known
    have hidden := byChildren_hidden (s := s) children (by simpa using byChildren)
    rcases (shown plan hp).2 ⟨job, hj, Or.inl rootId, awake⟩ with byRoot | byChildren'
    · exact absurd (((shownByRoot_iff valid hp).mp byRoot).2.symm.trans hidden) (by simp)
    · exact ((shownByChildren_iff valid hp).mp byChildren').1

theorem shown_iff_covered (valid : s.Valid) :
    (s.PlansShown ∧ s.LiveJobsReached) ↔ ∀ plan ∈ s.plans, plan.Covered s.stateOf :=
  ⟨fun shown _ hp => covered_of_shown valid shown.1 shown.2 hp,
    fun covered => ⟨plansShown_of_covered valid covered, liveJobsReached_of_covered valid covered⟩⟩

def AllCovered (s : TransferStore) : Prop := ∀ plan ∈ s.plans, plan.Covered s.stateOf

def FitsAll (s : TransferStore) (id : TransferId) (state : TransferState) : Prop :=
  ∀ plan ∈ s.plans, plan.Fits s.stateOf id state

instance (s : TransferStore) (id : TransferId) (state : TransferState) : Decidable (s.FitsAll id state) :=
  inferInstanceAs (Decidable (∀ plan ∈ s.plans, _))

variable {s' : TransferStore} {id : TransferId} {state : TransferState}

theorem lacks_iff (asc : Ascending (fun job => job.id) s.jobs) : s.Lacks id ↔ s.stateOf id = none := by
  constructor
  · intro lacks
    cases known : s.stateOf id with
    | none => rfl
    | some state =>
      obtain ⟨job, hj, is, _⟩ := (stateOf_some asc).mp known
      exact absurd is (lacks job hj)
  · rintro none_ job hj rfl
    rw [stateOf_mem asc hj] at none_
    cases none_

theorem stateOf_map (asc : Ascending (fun job => job.id) s.jobs) {g : TransferJob → TransferJob}
    (keep : ∀ job, (g job).id = job.id) (hj : s'.jobs = s.jobs.map g) (id : TransferId) :
    s'.stateOf id = (s.findJob id).map (fun job => (g job).state) := by
  unfold stateOf
  rw [findJob_map asc keep hj, Option.map_map]
  rfl

theorem stateOf_edit_other (asc : Ascending (fun job => job.id) s.jobs) {edit : TransferJob → Option TransferJob}
    (keep : ∀ job new, edit job = some new → new.id = job.id) (hj : s'.jobs = s.jobs.map (editOf id edit))
    {other : TransferId} (ne : other ≠ id) : s'.stateOf other = s.stateOf other := by
  rw [stateOf_map asc (editOf_id keep) hj]
  unfold stateOf
  cases found : s.findJob other with
  | none => rfl
  | some job =>
    have named := ((findJob_iff asc).mp found).2
    have differs : job.id ≠ id := fun is => ne (named.symm.trans is)
    simp [editOf, differs]

theorem stateOf_edit_some (asc : Ascending (fun job => job.id) s.jobs) {edit : TransferJob → Option TransferJob}
    (keep : ∀ job new, edit job = some new → new.id = job.id) (hj : s'.jobs = s.jobs.map (editOf id edit))
    {job : TransferJob} (found : s.findJob id = some job) :
    s'.stateOf = Function.update s.stateOf id (some ((edit job).getD job).state) := by
  funext other
  by_cases same : other = id
  · subst same
    have named := ((findJob_iff asc).mp found).2
    rw [stateOf_map asc (editOf_id keep) hj, found, Function.update_self]
    simp [editOf, named]
  · rw [stateOf_edit_other asc keep hj same, Function.update_of_ne same]

theorem stateOf_edit_none (asc : Ascending (fun job => job.id) s.jobs) {edit : TransferJob → Option TransferJob}
    (keep : ∀ job new, edit job = some new → new.id = job.id) (hj : s'.jobs = s.jobs.map (editOf id edit))
    (found : s.findJob id = none) : s'.stateOf = s.stateOf := by
  funext other
  by_cases same : other = id
  · subst same
    rw [stateOf_map asc (editOf_id keep) hj]
    simp [stateOf, found]
  · exact stateOf_edit_other asc keep hj same

theorem stateOf_inserted (asc : Ascending (fun job => job.id) s.jobs) (asc' : Ascending (fun job => job.id) s'.jobs)
    {job : TransferJob} (lacks : s.Lacks job.id) (mem : ∀ other, other ∈ s'.jobs ↔ other ∈ s.jobs ∨ other = job) :
    s'.stateOf = Function.update s.stateOf job.id (some job.state) := by
  funext other
  by_cases same : other = job.id
  · subst same
    rw [Function.update_self]
    exact stateOf_mem asc' ((mem job).mpr (Or.inr rfl))
  · rw [Function.update_of_ne same]
    ext state
    rw [stateOf_some asc', stateOf_some asc]
    constructor
    · rintro ⟨row, there, is, its⟩
      rcases (mem row).mp there with old | rfl
      · exact ⟨row, old, is, its⟩
      · exact absurd is.symm same
    · rintro ⟨row, there, is, its⟩
      exact ⟨row, (mem row).mpr (Or.inl there), is, its⟩

theorem stateOf_upsert (valid : s.Valid) (job : TransferJob) :
    (s.upsertJob job).1.stateOf = Function.update s.stateOf job.id (some job.state) := by
  by_cases known : s.Lacks job.id
  · refine stateOf_inserted valid.jobs (upsertJob_valid valid job).jobs known fun other => ?_
    unfold upsertJob
    split
    · rename_i index found
      obtain ⟨old, get, is⟩ := binarySearch_ok found
      exact absurd is (known old (List.mem_of_getElem? get))
    · rename_i missing
      rw [mem_insert_of_error missing]
      exact or_comm
  · have stored := upsertJob_stored valid.jobs known
    have keep : ∀ row : TransferJob, (if row.id = job.id then job else row).id = row.id := by
      intro row
      split_ifs with is
      · exact is.symm
      · rfl
    funext other
    rw [stateOf_map valid.jobs keep stored]
    by_cases same : other = job.id
    · subst same
      rw [Function.update_self]
      cases found : s.findJob job.id with
      | none => exact absurd ((lacks_iff valid.jobs).mpr (by simp [stateOf, found])) known
      | some old => simp [((findJob_iff valid.jobs).mp found).2]
    · rw [Function.update_of_ne same]
      unfold stateOf
      cases there : s.findJob other with
      | none => rfl
      | some row =>
        have named := ((findJob_iff valid.jobs).mp there).2
        have differs : row.id ≠ job.id := fun is => same (named.symm.trans is)
        simp [differs]

theorem stateOf_insertJob_none (valid : s.Valid) {job : TransferJob} (lacks : s.Lacks job.id) :
    (s.insertJob job).1.stateOf = Function.update s.stateOf job.id (some job.state) := by
  refine stateOf_inserted valid.jobs (insertJob_ascending valid.jobs job) lacks fun other => ?_
  rw [mem_insertJob valid.jobs]
  exact or_congr_right (and_iff_left lacks)

theorem each_plan_one {P : TransferPlan → (TransferId → Option TransferState) → Prop}
    (own : ∀ plan look look', (∀ id, plan.Owns id → look' id = look id) → P plan look → P plan look')
    (valid : s.Valid) (each : ∀ plan ∈ s.plans, P plan s.stateOf) {plan : TransferPlan} (hp : plan ∈ s.plans)
    {f : TransferPlan → TransferPlan}
    (plans : s'.plans = s.plans.map (fun other => if other.id = plan.id then f other else other))
    (frame : ∀ other ∈ s.plans, other.id ≠ plan.id → ∀ id, other.Owns id → s'.stateOf id = s.stateOf id) :
    (∀ plan' ∈ s'.plans, P plan' s'.stateOf) ↔ P (f plan) s'.stateOf := by
  rw [plans]
  constructor
  · exact fun all => all _ (List.mem_map.mpr ⟨plan, hp, if_pos rfl⟩)
  · intro here plan' member
    obtain ⟨other, ho, rfl⟩ := List.mem_map.mp member
    split_ifs with is
    · cases key_unique (fun plan => plan.id) valid.plans.ids ho hp is
      exact here
    · exact own other _ _ (frame other ho is) (each other ho)

theorem allCovered_write (valid : s.Valid) (covered : s.AllCovered) (plans : s'.plans = s.plans)
    (look : s'.stateOf = Function.update s.stateOf id (some state)) : s'.AllCovered ↔ s.FitsAll id state := by
  unfold AllCovered FitsAll
  rw [plans, look]
  exact forall₂_congr fun plan hp => covered_write (valid.plans.root plan hp) (covered plan hp)

theorem allCovered_same (plans : s'.plans = s.plans) (look : s'.stateOf = s.stateOf) : s'.AllCovered ↔ s.AllCovered := by
  unfold AllCovered
  rw [plans, look]

end TransferStore

end MacSftp
