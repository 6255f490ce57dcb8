import MacSftp.Transfer.Completion

namespace MacSftp

open Lib

def TransferJob.route (job : TransferJob) : TransferDirection × TransferEndpoint × TransferEndpoint :=
  (job.direction, job.source, job.destination)

def TransferEvent.announced : TransferEvent → List TransferJob
  | planStarted snapshot => [snapshot.rootJob]
  | planProgress batch => batch.childJobs
  | running job => [job]
  | _ => []

def TransferEvent.announces : TransferEvent → Bool
  | planStarted _ | planProgress _ | running _ => true
  | _ => false

namespace TransferStore

variable {s : TransferStore}

/-- The event ends this stored job, if it has not ended yet: as the job it names, as the root of a plan it
finishes, or as one of the jobs a plan-level outcome reaches. -/
def Ends (s : TransferStore) (event : TransferEvent) (job : TransferJob) : Prop :=
  match event with
  | .planCompleted planId => ∃ plan ∈ s.plans, plan.id = planId ∧ plan.state.isTerminal = false ∧
      plan.childJobs = [] ∧ job.id = plan.rootJobId
  | .planCancelled planId => ∃ plan ∈ s.plans, plan.id = planId ∧ plan.state.refusesCancel = false ∧
      s.Reaches plan job
  | .planFailed planId _ => ∃ plan ∈ s.plans, plan.id = planId ∧ s.Reaches plan job
  | event =>
    match event.outcome with
    | none => False
    | some (transferId, state) => job.id = transferId ∨ ∃ plan ∈ s.plans, transferId ∈ plan.childJobs ∧
        job.id = plan.rootJobId ∧ (s.settledBy transferId state).Finishes plan

instance (s : TransferStore) (plan : TransferPlan) : Decidable (s.Finishes plan) := inferInstanceAs (Decidable (_ ∧ _))

instance (s : TransferStore) (event : TransferEvent) (job : TransferJob) : Decidable (s.Ends event job) :=
  match event with
  | .planCompleted _ | .planCancelled _ | .planFailed _ _ => inferInstanceAs (Decidable (∃ plan ∈ s.plans, _))
  | .completed _ | .skipped _ | .failed _ => inferInstanceAs (Decidable (_ ∨ _))
  | .planStarted _ | .planProgress _ | .conflict _ | .running _ | .progress _ | .warning _ => isFalse id

/-- An event that rewrites stored jobs in place, and ends exactly those it is said to end. -/
def EndsByRewriting (s : TransferStore) (event : TransferEvent) (s' : TransferStore) : Prop :=
  ∃ g : TransferJob → TransferJob, s'.jobs = s.jobs.map g ∧ (∀ job, (g job).id = job.id ∧ (g job).route = job.route) ∧
    ∀ job ∈ s.jobs, job.state.isTerminal = false → ((g job).state.isTerminal = true ↔ s.Ends event job)

theorem endsByRewriting_refl {event : TransferEvent} {s' : TransferStore} (same : s'.jobs = s.jobs)
    (nothing : ∀ job, ¬ s.Ends event job) : s.EndsByRewriting event s' := by
  refine ⟨id, by simpa using same, fun _ => ⟨rfl, rfl⟩, ?_⟩
  intro job _ open_
  simp [open_, nothing job]

theorem editJob_endsByRewriting (valid : s.Valid) {event : TransferEvent} {transferId : TransferId}
    {edit : TransferJob → Option TransferJob}
    (keep : ∀ job new, edit job = some new → new.id = job.id ∧ new.route = job.route)
    (still : ∀ job new, edit job = some new → job.state.isTerminal = false → new.state.isTerminal = false)
    (nothing : ∀ job, ¬ s.Ends event job) :
    s.EndsByRewriting event ({ s with justFinishedPlan := none }.editJob transferId edit).1 := by
  refine ⟨editOf transferId edit, ?_, ?_, ?_⟩
  · rw [editJob_eq (s := { s with justFinishedPlan := none }) valid.jobs]
  · intro job
    unfold editOf
    split
    · cases h : edit job with
      | none => exact ⟨rfl, rfl⟩
      | some new => exact keep job new h
    · exact ⟨rfl, rfl⟩
  · intro job _ open_
    have ended : (editOf transferId edit job).state.isTerminal = false := by
      unfold editOf
      split
      · cases h : edit job with
        | none => exact open_
        | some new => exact still job new h open_
      · exact open_
    simp [ended, nothing job]

theorem planIndexOf_none {planId : TransferPlanId} (unknown : ¬ ∃ plan ∈ s.plans, plan.id = planId) :
    s.planIndexOf planId = none := by
  cases h : s.planIndexOf planId with
  | none => rfl
  | some found =>
    obtain ⟨_, he, hp⟩ := planIndexOf_some h
    exact absurd ⟨found.2, hp, he⟩ unknown

theorem planCompleted_ends (valid : s.Valid) (planId : TransferPlanId) (now : Timestamp) :
    s.EndsByRewriting (.planCompleted planId) (s.applyEvent (.planCompleted planId) now).1 := by
  by_cases known : ∃ plan ∈ s.plans, plan.id = planId
  · obtain ⟨plan, hp, rfl⟩ := known
    obtain ⟨planIndex, found⟩ := planIndexOf_of_mem (s := { s with justFinishedPlan := none }) valid.plans.ids hp
    have only : ∀ other ∈ s.plans, other.id = plan.id → other = plan := fun other ho he =>
      key_unique (fun plan => plan.id) valid.plans.ids ho hp he
    simp only [applyEvent, applyPlanCompleted, found]
    split
    · rename_i closed
      refine endsByRewriting_refl rfl ?_
      rintro job ⟨other, ho, he, open_, _⟩
      rw [only other ho he, closed] at open_
      cases open_
    · rename_i open_
      refine ⟨assign plan.rootJobId _, setJobState_jobs (s := { s with justFinishedPlan := none }.setPlanState planIndex _)
        valid.jobs plan.rootJobId _, fun job => ⟨assign_id _ _ job, ?_⟩, ?_⟩
      · unfold assign
        split <;> rfl
      · intro job _ running
        have ends : s.Ends (.planCompleted plan.id) job ↔ plan.childJobs = [] ∧ job.id = plan.rootJobId := by
          constructor
          · rintro ⟨other, ho, he, _, empty, root⟩
            rw [only other ho he] at empty root
            exact ⟨empty, root⟩
          · rintro ⟨empty, root⟩
            exact ⟨plan, hp, rfl, by simpa using open_, empty, root⟩
        rw [ends, assign]
        by_cases root : job.id = plan.rootJobId
        · by_cases empty : plan.childJobs = []
          · simp [root, empty, TransferState.isTerminal]
          · simp [root, empty, TransferState.isTerminal]
        · simp [root, running]
  · refine endsByRewriting_refl ?_ ?_
    · have missing := planIndexOf_none (s := { s with justFinishedPlan := none }) known
      simp only [applyEvent, applyPlanCompleted, missing]
    · rintro job ⟨plan, hp, he, _⟩
      exact known ⟨plan, hp, he⟩

theorem settle_route (stale : TransferJob → Bool) (state : TransferState) (job : TransferJob) :
    (settle stale state job).route = job.route := by
  unfold settle
  split <;> rfl

theorem settled_endsByRewriting {event : TransferEvent} {s' : TransferStore} {c : TransferJob → Prop}
    [DecidablePred c] {stale : TransferJob → Bool} {state : TransferState}
    (jobs : s'.jobs = s.jobs.map (fun job => if c job then settle stale state job else job))
    (terminal : state.isTerminal = true) (hits : ∀ job, job.state.isTerminal = false → stale job = true)
    (ends : ∀ job, s.Ends event job ↔ c job) : s.EndsByRewriting event s' := by
  refine ⟨_, jobs, fun job => ⟨settled_id stale state job, ?_⟩, ?_⟩
  · split_ifs
    · exact settle_route stale state job
    · rfl
  · intro job _ open_
    rw [ends job]
    by_cases reached : c job
    · simp [reached, settle, hits job open_, terminal]
    · simp [reached, open_]

theorem planCancelled_ends (valid : s.Valid) (planId : TransferPlanId) (now : Timestamp) :
    s.EndsByRewriting (.planCancelled planId) (s.applyEvent (.planCancelled planId) now).1 := by
  by_cases known : ∃ plan ∈ s.plans, plan.id = planId
  · obtain ⟨plan, hp, rfl⟩ := known
    refine settled_endsByRewriting (planCancelled_jobs valid hp now) rfl (fun job open_ => by simp [open_]) ?_
    intro job
    constructor
    · rintro ⟨other, ho, he, accepts, reach⟩
      rw [key_unique (fun plan => plan.id) valid.plans.ids ho hp he] at accepts reach
      exact ⟨accepts, reach⟩
    · rintro ⟨accepts, reach⟩
      exact ⟨plan, hp, rfl, accepts, reach⟩
  · refine endsByRewriting_refl ?_ ?_
    · have missing := planIndexOf_none (s := { s with justFinishedPlan := none }) known
      simp only [applyEvent, setPlanCancelled, missing]
    · rintro job ⟨plan, hp, he, _⟩
      exact known ⟨plan, hp, he⟩

theorem planFailed_ends (valid : s.Valid) (planId : TransferPlanId) (error : UserFacingError) (now : Timestamp) :
    s.EndsByRewriting (.planFailed planId error) (s.applyEvent (.planFailed planId error) now).1 := by
  by_cases known : ∃ plan ∈ s.plans, plan.id = planId
  · obtain ⟨plan, hp, rfl⟩ := known
    refine settled_endsByRewriting (planFailed_jobs valid hp error now) rfl ?_ ?_
    · intro job open_
      simp only [decide_eq_true_eq]
      intro he
      rw [he] at open_
      cases open_
    · intro job
      constructor
      · rintro ⟨other, ho, he, reach⟩
        rw [key_unique (fun plan => plan.id) valid.plans.ids ho hp he] at reach
        exact reach
      · intro reach
        exact ⟨plan, hp, rfl, reach⟩
  · refine endsByRewriting_refl ?_ ?_
    · have missing := planIndexOf_none (s := { s with justFinishedPlan := none }) known
      simp only [applyEvent, setPlanTerminalState, missing]
    · rintro job ⟨plan, hp, he, _⟩
      exact known ⟨plan, hp, he⟩

theorem assign_route (transferId : TransferId) (state : TransferState) (job : TransferJob) :
    (assign transferId state job).route = job.route := by
  unfold assign
  split <;> rfl

theorem ends_outcome {event : TransferEvent} {transferId : TransferId} {state : TransferState}
    (h : event.outcome = some (transferId, state)) (job : TransferJob) :
    s.Ends event job ↔ job.id = transferId ∨ ∃ plan ∈ s.plans, transferId ∈ plan.childJobs ∧
      job.id = plan.rootJobId ∧ (s.settledBy transferId state).Finishes plan := by
  cases event <;> simp only [TransferEvent.outcome, reduceCtorEq, Option.some.injEq, Prod.mk.injEq] at h
  all_goals
    obtain ⟨rfl, rfl⟩ := h
    simp [Ends, TransferEvent.outcome]

theorem outcome_ends (valid : s.Valid) {event : TransferEvent} {transferId : TransferId} {state : TransferState}
    (h : event.outcome = some (transferId, state)) (now : Timestamp) :
    s.EndsByRewriting event (s.applyEvent event now).1 := by
  have valid' := settledBy_valid valid transferId state
  have terminal := outcome_terminal h
  have unfinished : (∀ plan ∈ s.plans, transferId ∈ plan.childJobs →
        ¬ (s.settledBy transferId state).Finishes plan) →
      ∀ s', s'.jobs = (s.settledBy transferId state).jobs → s.EndsByRewriting event s' := by
    intro open_ s' same
    refine ⟨assign transferId state, same.trans (settledBy_jobs valid.jobs transferId state),
      fun job => ⟨assign_id _ _ job, assign_route _ _ job⟩, ?_⟩
    intro job _ running
    rw [ends_outcome h]
    constructor
    · intro ended
      by_cases he : job.id = transferId
      · exact Or.inl he
      · rw [assign, if_neg he, running] at ended
        cases ended
    · rintro (he | ⟨plan, hp, child, _, finishes⟩)
      · rw [assign, if_pos he]
        exact terminal
      · exact absurd finishes (open_ plan hp child)
  rw [applyEvent_outcome h]
  by_cases orphan : ∃ plan ∈ s.plans, transferId ∈ plan.childJobs
  · obtain ⟨plan, hp, child⟩ := orphan
    have hp1 : plan ∈ (s.settledBy transferId state).plans := by simpa using hp
    obtain ⟨planIndex, hi, final⟩ := finalizePlanForJob_child valid' hp1 child
    have only : ∀ other ∈ s.plans, transferId ∈ other.childJobs → other = plan := fun other ho hc =>
      owner_unique valid ho hp (Or.inr hc) (Or.inr child)
    rw [final]
    by_cases finishes : (s.settledBy transferId state).Finishes plan
    · rw [finalizePlan_of_finishes planIndex finishes]
      refine ⟨_, (finishPlan_jobs valid' planIndex plan _).trans (by rw [settledBy_jobs valid.jobs, List.map_map]), ?_, ?_⟩
      · intro job
        simp only [Function.comp_apply]
        split
        · exact ⟨assign_id _ _ job, assign_route _ _ job⟩
        · exact ⟨assign_id _ _ job, assign_route _ _ job⟩
      · intro job _ running
        rw [ends_outcome h]
        simp only [Function.comp_apply, assign_id]
        by_cases root : job.id = plan.rootJobId
        · rw [if_pos root]
          constructor
          · exact fun _ => Or.inr ⟨plan, hp, child, root, finishes⟩
          · intro _
            dsimp only
            split <;> rfl
        · rw [if_neg root, assign]
          constructor
          · intro ended
            by_cases he : job.id = transferId
            · exact Or.inl he
            · rw [if_neg he, running] at ended
              cases ended
          · rintro (he | ⟨other, ho, hc, hr, _⟩)
            · rw [if_pos he]
              exact terminal
            · rw [only other ho hc] at hr
              exact absurd hr root
    · rw [finalizePlan_quiet planIndex finishes]
      refine unfinished ?_ _ rfl
      intro other ho hc
      rw [only other ho hc]
      exact finishes
  · have none_ : ∀ plan ∈ (s.settledBy transferId state).plans, transferId ∉ plan.childJobs := by
      intro plan hp hc
      exact orphan ⟨plan, by simpa using hp, hc⟩
    exact unfinished (fun plan hp hc => absurd ⟨plan, hp, hc⟩ orphan) _ (finalizePlanForJob_no_child none_).2

theorem withState_keep {state : TransferState} (open_ : state.isTerminal = false) (job new : TransferJob)
    (h : withState state job = some new) :
    (new.id = job.id ∧ new.route = job.route) ∧ new.state.isTerminal = false := by
  unfold withState at h
  split_ifs at h
  cases h
  exact ⟨⟨rfl, rfl⟩, open_⟩

theorem applyProgress_ends (valid : s.Valid) (progress : TransferProgress) (now : Timestamp) :
    s.EndsByRewriting (.progress progress) (s.applyEvent (.progress progress) now).1 := by
  have keep : ∀ job new : TransferJob, progressEdit progress now job = some new →
      (new.id = job.id ∧ new.route = job.route) ∧ new.state.isTerminal = false := by
    intro job new edited
    obtain ⟨_, _, rfl⟩ := progressEdit_some edited
    exact ⟨⟨rfl, rfl⟩, rfl⟩
  exact editJob_endsByRewriting valid (fun job new h => (keep job new h).1) (fun job new h _ => (keep job new h).2)
    (by simp [Ends, TransferEvent.outcome])

theorem applyWarning_ends (valid : s.Valid) (warning : TransferWarning) (now : Timestamp) :
    s.EndsByRewriting (.warning warning) (s.applyEvent (.warning warning) now).1 := by
  refine editJob_endsByRewriting valid ?_ ?_ (by simp [Ends, TransferEvent.outcome])
  · intro job new h
    split at h <;> cases h
    exact ⟨rfl, rfl⟩
  · intro job new h open_
    split at h <;> cases h
    exact open_

theorem applyConflict_ends (valid : s.Valid) (prompt : TransferConflictPrompt) (now : Timestamp) :
    s.EndsByRewriting (.conflict prompt) (s.applyEvent (.conflict prompt) now).1 := by
  have waiting : s.EndsByRewriting (.conflict prompt) ({ s with justFinishedPlan := none }.editJob prompt.transferId
      (withState (.waitingForConflictDecision prompt.planId prompt.requestId))).1 :=
    editJob_endsByRewriting valid (fun job new h => (withState_keep rfl job new h).1)
      (fun job new h _ => (withState_keep rfl job new h).2) (by simp [Ends, TransferEvent.outcome])
  obtain ⟨g, jobs, keep, ends⟩ := waiting
  refine ⟨g, ?_, keep, ends⟩
  rw [← jobs]
  simp only [applyEvent, applyConflict, upsertConflict_jobs, setJobState]

theorem rewriting_ends (valid : s.Valid) {event : TransferEvent} (quiet : event.announces = false) (now : Timestamp) :
    s.EndsByRewriting event (s.applyEvent event now).1 := by
  cases event with
  | planStarted | planProgress | running => cases quiet
  | planCompleted planId => exact planCompleted_ends valid planId now
  | planCancelled planId => exact planCancelled_ends valid planId now
  | planFailed planId error => exact planFailed_ends valid planId error now
  | conflict prompt => exact applyConflict_ends valid prompt now
  | progress progress => exact applyProgress_ends valid progress now
  | warning warning => exact applyWarning_ends valid warning now
  | completed transferId => exact outcome_ends valid rfl now
  | skipped transferId => exact outcome_ends valid rfl now
  | failed failure => exact outcome_ends valid rfl now

theorem insertJob_mem {job job' : TransferJob} (h : job' ∈ (s.insertJob job).1.jobs) : job' ∈ s.jobs ∨ job' = job := by
  unfold insertJob at h
  split at h
  · exact Or.inl h
  · exact ((mem_insert_of_error ‹_›).mp h).symm

theorem insertEach_mem {batch : List TransferJob} {job' : TransferJob} (h : job' ∈ (s.insertEach batch).1.jobs) :
    job' ∈ s.jobs ∨ job' ∈ batch := by
  induction batch generalizing s with
  | nil => exact Or.inl h
  | cons job rest ih =>
    rcases ih h with hm | hm
    · rcases insertJob_mem hm with hm | rfl
      · exact Or.inl hm
      · exact Or.inr (by simp)
    · exact Or.inr (by simp [hm])

theorem insertJobs_mem {batch : List TransferJob} {job' : TransferJob} (h : job' ∈ (s.insertJobs batch).1.jobs) :
    job' ∈ s.jobs ∨ job' ∈ batch := by
  unfold insertJobs at h
  split at h
  · exact List.mem_append.mp h
  · exact insertEach_mem h

theorem announced_mem {event : TransferEvent} (announces : event.announces = true) (now : Timestamp)
    {job' : TransferJob} (h : job' ∈ (s.applyEvent event now).1.jobs) : job' ∈ s.jobs ∨ job' ∈ event.announced := by
  cases event with
  | planStarted snapshot =>
    have same : ({ s with justFinishedPlan := none }.insertPlan snapshot.plan).1.jobs = s.jobs := by
      unfold insertPlan
      split <;> rfl
    rcases insertJob_mem (s := ({ s with justFinishedPlan := none }.insertPlan snapshot.plan).1) h with hm | hm
    · exact Or.inl (same ▸ hm)
    · exact Or.inr (by simp [TransferEvent.announced, hm])
  | planProgress batch =>
    simp only [applyEvent, applyPlanProgress] at h
    split at h
    · exact insertJobs_mem (s := { s with justFinishedPlan := none }) h
    · split at h
      · exact Or.inl h
      · exact insertJobs_mem (s := { s with plans := _, justFinishedPlan := none }) h
  | running job =>
    simp only [applyEvent, upsertJob] at h
    split at h
    · split at h
      · exact Or.inl h
      · rcases List.mem_or_eq_of_mem_set h with hm | rfl
        · exact Or.inl hm
        · exact Or.inr (by simp [TransferEvent.announced])
    · rcases (mem_insert_of_error ‹_›).mp h with rfl | hm
      · exact Or.inr (by simp [TransferEvent.announced])
      · exact Or.inl hm
  | planCompleted | planCancelled | planFailed | conflict | progress | warning | completed | skipped | failed =>
    cases announces

theorem newly_ended (valid : s.Valid) {event : TransferEvent} (now : Timestamp)
    (open_ : ∀ job ∈ event.announced, job.state.isTerminal = false) {job' : TransferJob}
    (h : job' ∈ (s.applyEvent event now).1.jobs) (terminal : job'.state.isTerminal = true)
    (before : ∀ job ∈ s.jobs, job.id = job'.id → job.state.isTerminal = false) :
    ∃ job ∈ s.jobs, job.id = job'.id ∧ job.route = job'.route ∧ job.state.isTerminal = false ∧ s.Ends event job := by
  cases announces : event.announces with
  | true =>
    rcases announced_mem announces now h with hm | hm
    · rw [before job' hm rfl] at terminal
      cases terminal
    · rw [open_ job' hm] at terminal
      cases terminal
  | false =>
    obtain ⟨g, jobs, keep, ends⟩ := rewriting_ends valid announces now
    rw [jobs] at h
    obtain ⟨job, hj, rfl⟩ := List.mem_map.mp h
    have running := before job hj (keep job).1.symm
    exact ⟨job, hj, (keep job).1.symm, (keep job).2.symm, running, (ends job hj running).mp terminal⟩

theorem ends_newly (valid : s.Valid) {event : TransferEvent} (now : Timestamp) {job : TransferJob} (hj : job ∈ s.jobs)
    (running : job.state.isTerminal = false) (ends : s.Ends event job) :
    ∃ job' ∈ (s.applyEvent event now).1.jobs, job'.id = job.id ∧ job'.route = job.route ∧
      job'.state.isTerminal = true := by
  have quiet : event.announces = false := by
    cases event with
    | planStarted | planProgress | running => exact ends.elim
    | planCompleted | planCancelled | planFailed | conflict | progress | warning | completed | skipped | failed => rfl
  obtain ⟨g, jobs, keep, ended⟩ := rewriting_ends valid quiet now
  exact ⟨g job, jobs ▸ List.mem_map_of_mem hj, (keep job).1, (keep job).2, (ended job hj running).mpr ends⟩

end TransferStore

end MacSftp
