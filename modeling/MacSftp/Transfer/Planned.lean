import MacSftp.Transfer.Representation

namespace MacSftp

open Lib

/-- The planner's events: a plan is announced as being planned, and the jobs it publishes have not ended. -/
def StoreOp.Plans : StoreOp → Prop
  | .applyEvent (.planStarted snapshot) _ =>
    snapshot.plan.state = .planning ∧ snapshot.rootJob.state.isTerminal = false
  | .applyEvent (.planProgress progress) _ => ∀ job ∈ progress.childJobs, job.state.isTerminal = false
  | .applyEvent (.planCompleted _) _ => True
  | _ => False

instance (op : StoreOp) : Decidable op.Plans :=
  match op with
  | .applyEvent event _ =>
    match event with
    | .planStarted _ => inferInstanceAs (Decidable (_ ∧ _))
    | .planProgress progress => inferInstanceAs (Decidable (∀ job ∈ progress.childJobs, _))
    | .planCompleted _ => isTrue trivial
    | .planCancelled _ | .planFailed _ _ | .conflict _ | .running _ | .progress _ | .warning _ | .completed _
    | .skipped _ | .failed _ => isFalse id
  | .markCancelling _ | .removeConflict _ | .clearTerminal => isFalse id

namespace TransferStore

variable {s : TransferStore}

/-- A plan is being planned, waits for its children, or was found to have none. -/
def Phased (plan : TransferPlan) : Prop :=
  plan.state = .planning ∨ plan.state = .queued ∧ plan.childJobs ≠ [] ∨ plan.state = .completed ∧ plan.childJobs = []

structure Planned (s : TransferStore) : Prop where
  valid : s.Valid
  stored : ∀ plan ∈ s.plans, ∀ child ∈ plan.childJobs, ∃ job ∈ s.jobs, job.id = child
  ended : ∀ job ∈ s.jobs, job.state.isTerminal = true → ∃ plan ∈ s.plans, job.id = plan.rootJobId
  phased : ∀ plan ∈ s.plans, Phased plan

theorem planStarted_planned (planned : s.Planned) {snapshot : TransferPlanSnapshot} {now : Timestamp}
    (legal : (StoreOp.applyEvent (.planStarted snapshot) now).Legal s) (state : snapshot.plan.state = .planning)
    (open_ : snapshot.rootJob.state.isTerminal = false) : (s.applyEvent (.planStarted snapshot) now).1.Planned := by
  set s1 := (s.applyEvent (.planStarted snapshot) now).1 with hs1
  have asc0 : Ascending (fun job => job.id) ({ s with justFinishedPlan := none }.insertPlan snapshot.plan).1.jobs := by
    rw [insertPlan_frame]
    exact planned.valid.jobs
  have jobs : ∀ job, job ∈ s1.jobs ↔ job ∈ s.jobs ∨ job = snapshot.rootJob ∧ s.Lacks snapshot.rootJob.id := by
    intro job
    refine (mem_insertJob asc0).trans ?_
    rw [insertPlan_frame]
    exact Iff.rfl
  have plans : ∀ plan ∈ s1.plans, plan ∈ s.plans ∨ plan = snapshot.plan ∧ plan.childJobs = [] := by
    intro plan hp
    have same : s1.plans = ({ s with justFinishedPlan := none }.insertPlan snapshot.plan).1.plans := insertJob_plans _ _
    rw [same, insertPlan] at hp
    split_ifs at hp with known
    · exact Or.inl hp
    · rcases List.mem_append.mp hp with old | new
      · exact Or.inl old
      · rw [List.mem_singleton] at new
        rcases legal with ⟨other, ho, is⟩ | ⟨empty, _⟩
        · exact absurd (by simpa using ⟨other, ho, is⟩) known
        · exact Or.inr ⟨new, new ▸ empty⟩
  have kept : ∀ plan ∈ s.plans, plan ∈ s1.plans := by
    intro plan hp
    have same : s1.plans = ({ s with justFinishedPlan := none }.insertPlan snapshot.plan).1.plans := insertJob_plans _ _
    rw [same, insertPlan]
    split_ifs
    · exact hp
    · exact List.mem_append_left _ hp
  refine ⟨applyEvent_valid planned.valid legal, ?_, ?_, ?_⟩
  · intro plan hp child member
    rcases plans plan hp with old | ⟨_, empty⟩
    · obtain ⟨job, hj, is⟩ := planned.stored plan old child member
      exact ⟨job, (jobs job).mpr (Or.inl hj), is⟩
    · rw [empty] at member
      cases member
  · intro job hj terminal
    rcases (jobs job).mp hj with old | ⟨rfl, _⟩
    · obtain ⟨plan, hp, is⟩ := planned.ended job old terminal
      exact ⟨plan, kept plan hp, is⟩
    · rw [open_] at terminal
      cases terminal
  · intro plan hp
    rcases plans plan hp with old | ⟨rfl, _⟩
    · exact planned.phased plan old
    · exact Or.inl state

theorem insertJobs_planned (planned : s.Planned) {plans : List TransferPlan} {batch : List TransferJob}
    (sorted : batch.Pairwise (fun a b => a.id < b.id)) (open_ : ∀ job ∈ batch, job.state.isTerminal = false)
    (valid : (insertJobs { s with plans := plans, justFinishedPlan := none } batch).1.Valid)
    (roots : ∀ plan ∈ s.plans, ∃ after ∈ plans, after.rootJobId = plan.rootJobId)
    (children : ∀ after ∈ plans, ∀ child ∈ after.childJobs,
      (∃ plan ∈ s.plans, child ∈ plan.childJobs) ∨ ∃ job ∈ batch, job.id = child)
    (phased : ∀ after ∈ plans, Phased after) :
    (insertJobs { s with plans := plans, justFinishedPlan := none } batch).1.Planned := by
  have frame := insertJobs_frame { s with plans := plans, justFinishedPlan := none } batch
  have same : (insertJobs { s with plans := plans, justFinishedPlan := none } batch).1.plans = plans := by rw [frame]
  have jobs : ∀ job, job ∈ (insertJobs { s with plans := plans, justFinishedPlan := none } batch).1.jobs ↔
      job ∈ s.jobs ∨ job ∈ batch ∧ s.Lacks job.id := fun job =>
    mem_insertJobs (s := { s with plans := plans, justFinishedPlan := none }) planned.valid.jobs sorted
  refine ⟨valid, ?_, ?_, ?_⟩
  · rw [same]
    intro after ha child member
    rcases children after ha child member with ⟨plan, hp, old⟩ | ⟨job, hj, is⟩
    · obtain ⟨job, hj, is⟩ := planned.stored plan hp child old
      exact ⟨job, (jobs job).mpr (Or.inl hj), is⟩
    · by_cases lacks : s.Lacks job.id
      · exact ⟨job, (jobs job).mpr (Or.inr ⟨hj, lacks⟩), is⟩
      · unfold Lacks at lacks
        push Not at lacks
        obtain ⟨row, hr, named⟩ := lacks
        exact ⟨row, (jobs row).mpr (Or.inl hr), named.trans is⟩
  · rw [same]
    intro job hj terminal
    rcases (jobs job).mp hj with old | ⟨new, _⟩
    · obtain ⟨plan, hp, is⟩ := planned.ended job old terminal
      obtain ⟨after, ha, root⟩ := roots plan hp
      exact ⟨after, ha, is.trans root.symm⟩
    · rw [open_ job new] at terminal
      cases terminal
  · rw [same]
    exact phased

theorem planProgress_planned (planned : s.Planned) {progress : TransferPlanProgress} {now : Timestamp}
    (legal : (StoreOp.applyEvent (.planProgress progress) now).Legal s)
    (open_ : ∀ job ∈ progress.childJobs, job.state.isTerminal = false) :
    (s.applyEvent (.planProgress progress) now).1.Planned := by
  have valid := applyEvent_valid planned.valid legal
  obtain ⟨sorted, _, above⟩ := legal
  have valid' : (applyPlanProgress { s with justFinishedPlan := none } progress).1.Valid := valid
  show (applyPlanProgress { s with justFinishedPlan := none } progress).1.Planned
  unfold applyPlanProgress at valid' ⊢
  split at valid'
  · exact insertJobs_planned planned sorted open_ valid' (fun plan hp => ⟨plan, hp, rfl⟩)
      (fun plan hp child member => Or.inl ⟨plan, hp, member⟩) planned.phased
  · rename_i plan found
    obtain ⟨hp, named⟩ := findKey_mem (fun plan : TransferPlan => plan.id) found
    split at valid'
    · rename_i closed
      dsimp only
      rw [if_pos closed]
      exact ⟨⟨planned.valid.jobs, planned.valid.plans⟩, planned.stored, planned.ended, planned.phased⟩
    · rename_i running
      have updated := fun after => mem_updateKey (fun plan : TransferPlan => plan.id) progress.planId
        (fun _ => (extendPlan plan progress).1) planned.valid.plans.ids (y := after)
      have extended : (extendPlan plan progress).1.childJobs = plan.childJobs ++ progress.childJobs.map (fun job => job.id) :=
        extendPlan_children (above plan hp named)
      dsimp only
      rw [if_neg running]
      refine insertJobs_planned planned sorted open_ valid' ?_ ?_ ?_
      · intro other ho
        by_cases is : other.id = progress.planId
        · refine ⟨(extendPlan plan progress).1, (updated _).mpr ⟨other, ho, (if_pos is).symm⟩, ?_⟩
          rw [key_unique (fun plan => plan.id) planned.valid.plans.ids ho hp (is.trans named.symm)]
          rfl
        · exact ⟨other, (updated _).mpr ⟨other, ho, (if_neg is).symm⟩, rfl⟩
      · intro after ha child member
        obtain ⟨other, ho, rfl⟩ := (updated after).mp ha
        split_ifs at member
        · rw [extended, List.mem_append, List.mem_map] at member
          rcases member with old | new
          · exact Or.inl ⟨plan, hp, old⟩
          · exact Or.inr new
        · exact Or.inl ⟨other, ho, member⟩
      · intro after ha
        obtain ⟨other, ho, rfl⟩ := (updated after).mp ha
        split_ifs
        · rcases planned.phased plan hp with planning | ⟨queued, some_⟩ | ⟨completed, _⟩
          · exact Or.inl planning
          · refine Or.inr (Or.inl ⟨queued, ?_⟩)
            rw [extended]
            exact List.append_ne_nil_of_left_ne_nil some_ _
          · rw [completed] at running
            exact absurd rfl running
        · exact planned.phased other ho

theorem modify_eq_map {plans : List TransferPlan} (ids : (plans.map (fun plan => plan.id)).Nodup) {planIndex : Nat}
    {plan : TransferPlan} (get : plans[planIndex]? = some plan) (f : TransferPlan → TransferPlan) :
    plans.modify planIndex f = plans.map (fun other => if other.id = plan.id then f other else other) := by
  apply List.ext_getElem?
  intro i
  rw [List.getElem?_modify, List.getElem?_map]
  cases found : plans[i]? with
  | none => rfl
  | some other =>
    simp only [Option.map_eq_map, Option.map_some]
    by_cases here : planIndex = i
    · subst here
      rw [get] at found
      cases found
      simp
    · have differ : other.id ≠ plan.id := by
        intro is
        exact here (key_index_unique (fun plan => plan.id) ids get found is.symm)
      simp [here, differ]

theorem planCompleted_planned (planned : s.Planned) (planId : TransferPlanId) (now : Timestamp) :
    (s.applyEvent (.planCompleted planId) now).1.Planned := by
  have valid : (s.applyEvent (.planCompleted planId) now).1.Valid := applyEvent_valid planned.valid trivial
  have same : { s with justFinishedPlan := none }.Planned :=
    ⟨⟨planned.valid.jobs, planned.valid.plans⟩, planned.stored, planned.ended, planned.phased⟩
  cases found : { s with justFinishedPlan := none }.planIndexOf planId with
  | none =>
    simp only [applyEvent, applyPlanCompleted, found]
    exact same
  | some entry =>
    obtain ⟨planIndex, plan⟩ := entry
    by_cases closed : plan.state.isTerminal = true
    · simp only [applyEvent, applyPlanCompleted, found, closed, ↓reduceIte]
      exact same
    · obtain ⟨get, _, hp⟩ := planIndexOf_some found
      simp only [applyEvent, applyPlanCompleted, found, if_neg closed] at valid ⊢
      set planState := if plan.childJobs = [] then TransferPlanState.completed else .queued with hps
      set rootState := if plan.childJobs = [] then TransferState.completed else .queued with hrs
      have plans : (({ s with justFinishedPlan := none }.setPlanState planIndex planState).setJobState
          plan.rootJobId rootState).1.plans =
          s.plans.map (fun other => if other.id = plan.id then { other with state := planState } else other) :=
        (editJob_plans _ _ _).trans (modify_eq_map planned.valid.plans.ids get _)
      have jobs : (({ s with justFinishedPlan := none }.setPlanState planIndex planState).setJobState
          plan.rootJobId rootState).1.jobs = s.jobs.map (assign plan.rootJobId rootState) :=
        setJobState_jobs (s := { s with justFinishedPlan := none }.setPlanState planIndex planState)
          planned.valid.jobs _ _
      have shape : ∀ after ∈ s.plans.map (fun other => if other.id = plan.id then { other with state := planState } else other),
          ∃ before ∈ s.plans, after.childJobs = before.childJobs ∧ after.rootJobId = before.rootJobId := by
        intro after ha
        obtain ⟨before, hb, rfl⟩ := List.mem_map.mp ha
        refine ⟨before, hb, ?_⟩
        split <;> exact ⟨rfl, rfl⟩
      refine ⟨valid, ?_, ?_, ?_⟩
      · rw [plans, jobs]
        intro after ha child member
        obtain ⟨before, hb, children, _⟩ := shape after ha
        rw [children] at member
        obtain ⟨job, hj, is⟩ := planned.stored before hb child member
        exact ⟨_, List.mem_map_of_mem hj, (assign_id _ _ job).trans is⟩
      · rw [plans, jobs]
        intro row hr terminal
        obtain ⟨job, hj, rfl⟩ := List.mem_map.mp hr
        have owner : ∃ before ∈ s.plans, job.id = before.rootJobId := by
          by_cases root : job.id = plan.rootJobId
          · exact ⟨plan, hp, root⟩
          · rw [assign, if_neg root] at terminal
            exact planned.ended job hj terminal
        obtain ⟨before, hb, root⟩ := owner
        refine ⟨_, List.mem_map_of_mem hb, ?_⟩
        rw [assign_id, root]
        split <;> rfl
      · rw [plans]
        intro after ha
        obtain ⟨before, hb, rfl⟩ := List.mem_map.mp ha
        split_ifs with is
        · rw [key_unique (fun plan => plan.id) planned.valid.plans.ids hb hp is]
          by_cases empty : plan.childJobs = []
          · exact Or.inr (Or.inr ⟨if_pos empty, empty⟩)
          · exact Or.inr (Or.inl ⟨if_neg empty, empty⟩)
        · exact planned.phased before hb

theorem apply_planned (planned : s.Planned) {op : StoreOp} (legal : op.Legal s) (plans : op.Plans) :
    (s.apply op).1.Planned := by
  cases op with
  | applyEvent event now =>
    cases event with
    | planStarted snapshot => exact planStarted_planned planned legal plans.1 plans.2
    | planProgress progress => exact planProgress_planned planned legal plans
    | planCompleted planId => exact planCompleted_planned planned planId now
    | planCancelled | planFailed | conflict | running | progress | warning | completed | skipped | failed => cases plans
  | markCancelling | removeConflict | clearTerminal => cases plans

theorem reachable_planned {ops : List StoreOp}
    (planning : machine.Admissible (fun s op => op.Legal s ∧ op.Plans) {} ops) : (machine.run {} ops).Planned := by
  have start : ({} : TransferStore).Planned := ⟨empty_valid, by simp, by simp, by simp⟩
  exact machine.admissible_invariant (I := Planned) (fun _ _ allowed planned => apply_planned planned allowed.1 allowed.2)
    start ops planning

end TransferStore

end MacSftp
