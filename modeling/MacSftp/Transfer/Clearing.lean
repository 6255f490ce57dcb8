import MacSftp.Transfer.Confluence

namespace MacSftp

open Lib

def TransferEvent.asked : TransferEvent → Option TransferId
  | conflict prompt => some prompt.transferId
  | _ => none

namespace TransferStore

variable {s s' : TransferStore}

/-- The job gets a row it had not, or its row is taken back into work. -/
def Reopens (s : TransferStore) (transferId : TransferId) : StoreOp → Prop
  | .applyEvent event _ => (∃ job ∈ s.takenIn event, job.id = transferId) ∨ event.asked = some transferId
  | _ => False

instance (s : TransferStore) (transferId : TransferId) (op : StoreOp) : Decidable (s.Reopens transferId op) :=
  match op with
  | .applyEvent _ _ => inferInstanceAs (Decidable (_ ∨ _))
  | .markCancelling _ | .removeConflict _ | .clearTerminal => isFalse id

/-- The row is still there, and if it is held it has ended if it had. -/
def Persists (held : Prop) (row : TransferJob) (s' : TransferStore) : Prop :=
  ∃ row' ∈ s'.jobs, row'.id = row.id ∧ (held → row.state.isTerminal = true → row'.state.isTerminal = true)

section

variable {held : Prop} {row : TransferJob}

theorem persists_of_mem (there : row ∈ s'.jobs) : Persists held row s' := ⟨row, there, rfl, fun _ terminal => terminal⟩

theorem persists_map {g : TransferJob → TransferJob} (jobs : s'.jobs = s.jobs.map g) (there : row ∈ s.jobs)
    (ids : (g row).id = row.id) (keep : held → row.state.isTerminal = true → (g row).state.isTerminal = true) :
    Persists held row s' := ⟨g row, jobs ▸ List.mem_map_of_mem there, ids, keep⟩

theorem editJob_persists (asc : Ascending (fun job => job.id) s.jobs) (there : row ∈ s.jobs) {transferId : TransferId}
    {edit : TransferJob → Option TransferJob} (ids : ∀ job new, edit job = some new → new.id = job.id)
    (keep : ∀ new, row.id = transferId → edit row = some new → held → row.state.isTerminal = true →
      new.state.isTerminal = true) (jobs : s'.jobs = (s.editJob transferId edit).1.jobs) : Persists held row s' := by
  rw [editJob_eq asc] at jobs
  refine persists_map jobs there (editOf_id ids row) ?_
  intro free terminal
  unfold editOf
  split_ifs with is
  · cases edited : edit row with
    | none => exact terminal
    | some new => exact keep new is edited free terminal
  · exact terminal

theorem setJobState_persists (asc : Ascending (fun job => job.id) s.jobs) (there : row ∈ s.jobs) {transferId : TransferId}
    {state : TransferState} (keep : row.id = transferId → held → state.isTerminal = true)
    (jobs : s'.jobs = (s.setJobState transferId state).1.jobs) : Persists held row s' := by
  rw [setJobState_jobs asc] at jobs
  refine persists_map jobs there (assign_id _ _ row) ?_
  intro free terminal
  unfold assign
  split_ifs with is
  · exact keep is free
  · exact terminal

theorem settleJobs_persists (asc : Ascending (fun job => job.id) s.jobs) (there : row ∈ s.jobs) (plan : TransferPlan)
    (stale : TransferJob → Bool) {state : TransferState} (terminal : state.isTerminal = true)
    (jobs : s'.jobs = (s.settleJobs plan stale state).1.jobs) : Persists held row s' := by
  rw [settleJobs_touches asc] at jobs
  refine persists_map jobs there (settled_id (c := fun job => s.Touches plan job.id) stale state row) ?_
  intro _ ended
  unfold settle
  split_ifs
  · exact terminal
  · exact ended
  · exact ended

theorem finishPlan_persists (valid : s.Valid) (there : row ∈ s.jobs) (planIndex : Nat) (plan : TransferPlan)
    (anyFailed : Bool) : Persists held row (s.finishPlan planIndex plan anyFailed) := by
  refine persists_map (finishPlan_jobs valid planIndex plan anyFailed) there ?_ ?_
  · split <;> rfl
  · intro _ ended
    split
    · dsimp only
      split <;> rfl
    · exact ended

theorem finalizePlanForJob_persists (valid : s.Valid) (there : row ∈ s.jobs) (transferId : TransferId) :
    Persists held row (s.finalizePlanForJob transferId).1 := by
  unfold TransferStore.finalizePlanForJob
  split
  · rename_i planIndex plan _
    by_cases finishes : s.Finishes plan
    · rw [finalizePlan_of_finishes planIndex finishes]
      exact finishPlan_persists valid there planIndex plan _
    · rw [finalizePlan_quiet planIndex finishes]
      exact persists_of_mem there
  · split
    · exact persists_of_mem there
    · exact persists_of_mem there

theorem Persists.trans {row' : TransferJob} (ids : row'.id = row.id)
    (keep : row.state.isTerminal = true → row'.state.isTerminal = true) (h : Persists held row' s') :
    Persists held row s' := by
  obtain ⟨after, there, named, ended⟩ := h
  exact ⟨after, there, named.trans ids, fun free terminal => ended free (keep terminal)⟩

theorem outcome_persists (valid : s.Valid) (there : row ∈ s.jobs) {event : TransferEvent} {transferId : TransferId}
    {state : TransferState} (outcome : event.outcome = some (transferId, state)) (now : Timestamp) :
    Persists held row (s.applyEvent event now).1 := by
  rw [applyEvent_outcome outcome]
  have settled : assign transferId state row ∈ (s.settledBy transferId state).jobs := by
    rw [settledBy_jobs valid.jobs]
    exact List.mem_map_of_mem there
  refine Persists.trans (assign_id _ _ row) ?_
    (finalizePlanForJob_persists (settledBy_valid valid transferId state) settled transferId)
  intro terminal
  unfold assign
  split_ifs
  · exact outcome_terminal outcome
  · exact terminal

theorem insertJobs_persists (asc : Ascending (fun job => job.id) s.jobs) (there : row ∈ s.jobs) {batch : List TransferJob}
    (sorted : batch.Pairwise (fun a b => a.id < b.id)) : Persists held row (s.insertJobs batch).1 :=
  persists_of_mem ((mem_insertJobs asc sorted).mpr (Or.inl there))

theorem upsertJob_persists (asc : Ascending (fun job => job.id) s.jobs) (there : row ∈ s.jobs) {job : TransferJob}
    (keep : held → job.id ≠ row.id) : Persists held row (s.upsertJob job).1 := by
  by_cases known : s.Lacks job.id
  · unfold TransferStore.upsertJob
    split
    · rename_i index found
      obtain ⟨old, get, is⟩ := binarySearch_ok found
      exact absurd is (known old (List.mem_of_getElem? get))
    · rename_i missing
      exact persists_of_mem ((mem_insert_of_error missing).mpr (Or.inr there))
  · refine persists_map (upsertJob_stored asc known) there ?_ ?_
    · split_ifs with is
      · exact is.symm
      · rfl
    · intro free terminal
      rw [if_neg fun is => keep free is.symm]
      exact terminal

theorem applyPlanProgress_persists (asc : Ascending (fun job => job.id) s.jobs) (there : row ∈ s.jobs)
    {progress : TransferPlanProgress} (sorted : progress.childJobs.Pairwise (fun a b => a.id < b.id)) :
    Persists held row (s.applyPlanProgress progress).1 := by
  unfold applyPlanProgress
  split
  · exact insertJobs_persists asc there sorted
  · rename_i plan _
    split
    · exact persists_of_mem there
    · exact insertJobs_persists (s := { s with plans := updateKey _ _ (fun _ => (extendPlan plan progress).1) s.plans })
        asc there sorted

theorem applyPlanCompleted_persists (asc : Ascending (fun job => job.id) s.jobs) (there : row ∈ s.jobs)
    (planId : TransferPlanId) (apart : held → ∀ plan ∈ s.plans, plan.rootJobId ≠ row.id) :
    Persists held row (s.applyPlanCompleted planId).1 := by
  unfold applyPlanCompleted
  split
  · exact persists_of_mem there
  · rename_i planIndex plan found
    split
    · exact persists_of_mem there
    · refine setJobState_persists (s := s.setPlanState planIndex _) asc there ?_ rfl
      intro root free
      exact absurd root.symm (apart free plan (planIndexOf_some found).2.2)

theorem setPlanCancelled_persists (asc : Ascending (fun job => job.id) s.jobs) (there : row ∈ s.jobs)
    (planId : TransferPlanId) : Persists held row (s.setPlanCancelled planId).1 := by
  unfold setPlanCancelled
  split
  · exact persists_of_mem there
  · split
    · exact persists_of_mem there
    · exact persists_of_mem there
    · rename_i plan _ _ _ _
      dsimp only
      split
      · exact settleJobs_persists asc there plan _ rfl rfl
      · exact settleJobs_persists asc there plan _ rfl rfl

theorem setPlanTerminalState_persists (asc : Ascending (fun job => job.id) s.jobs) (there : row ∈ s.jobs)
    (planId : TransferPlanId) (planState : TransferPlanState) {jobState : TransferState}
    (terminal : jobState.isTerminal = true) : Persists held row (s.setPlanTerminalState planId planState jobState).1 := by
  unfold setPlanTerminalState
  split
  · exact persists_of_mem there
  · rename_i planIndex plan _
    exact settleJobs_persists (s := s.setPlanState planIndex _) asc there plan _ terminal rfl

theorem applyProgress_persists (asc : Ascending (fun job => job.id) s.jobs) (there : row ∈ s.jobs)
    (progress : TransferProgress) (now : Timestamp) : Persists held row (s.applyProgress progress now).1 := by
  rw [applyProgress_eq]
  refine editJob_persists asc there ?_ ?_ rfl
  · intro job new edited
    obtain ⟨_, _, rfl⟩ := progressEdit_some edited
    rfl
  · intro new _ edited _ terminal
    rw [(progressEdit_some edited).1] at terminal
    cases terminal

end

theorem applyEvent_persists (valid : s.Valid) {event : TransferEvent} {now : Timestamp}
    (legal : (StoreOp.applyEvent event now).Legal s) {row : TransferJob} (there : row ∈ s.jobs) :
    Persists (¬ s.Reopens row.id (.applyEvent event now) ∧ ∀ plan ∈ s.plans, plan.rootJobId ≠ row.id) row
      (s.applyEvent event now).1 := by
  cases event with
  | planStarted snapshot =>
    have asc0 : Ascending (fun job => job.id) ({ s with justFinishedPlan := none }.insertPlan snapshot.plan).1.jobs := by
      rw [insertPlan_frame]
      exact valid.jobs
    refine persists_of_mem ((mem_insertJob asc0).mpr (Or.inl ?_))
    rw [insertPlan_frame]
    exact there
  | planProgress batch => exact applyPlanProgress_persists (s := { s with justFinishedPlan := none }) valid.jobs there legal.1
  | planCompleted planId =>
    exact applyPlanCompleted_persists (s := { s with justFinishedPlan := none }) valid.jobs there planId And.right
  | planCancelled planId => exact setPlanCancelled_persists (s := { s with justFinishedPlan := none }) valid.jobs there planId
  | planFailed planId error =>
    exact setPlanTerminalState_persists (s := { s with justFinishedPlan := none }) valid.jobs there planId _ rfl
  | conflict prompt =>
    have jobs : (s.applyEvent (.conflict prompt) now).1.jobs = ({ s with justFinishedPlan := none }.setJobState
        prompt.transferId (.waitingForConflictDecision prompt.planId prompt.requestId)).1.jobs := by
      simp [applyEvent, applyConflict]
    refine setJobState_persists (s := { s with justFinishedPlan := none }) valid.jobs there ?_ jobs
    rintro is ⟨goesOn, _⟩
    exact absurd (Or.inr (congrArg some is.symm)) goesOn
  | running snapshot =>
    refine upsertJob_persists (s := { s with justFinishedPlan := none }) valid.jobs there ?_
    rintro ⟨goesOn, _⟩ is
    exact goesOn (Or.inl ⟨snapshot, List.mem_singleton_self _, is⟩)
  | progress made => exact applyProgress_persists (s := { s with justFinishedPlan := none }) valid.jobs there made now
  | warning raised =>
    refine editJob_persists (s := { s with justFinishedPlan := none }) valid.jobs there ?_ ?_ rfl
    · intro job new edited
      split at edited <;> cases edited
      rfl
    · intro new _ edited _ terminal
      split at edited <;> cases edited
      exact terminal
  | completed | skipped | failed => exact outcome_persists valid there rfl now

theorem apply_persists (valid : s.Valid) {op : StoreOp} (legal : op.Legal s) (stays : op ≠ .clearTerminal)
    {row : TransferJob} (there : row ∈ s.jobs) :
    Persists (¬ s.Reopens row.id op ∧ ∀ plan ∈ s.plans, plan.rootJobId ≠ row.id) row (s.apply op).1 := by
  cases op with
  | applyEvent event now => exact applyEvent_persists valid legal there
  | markCancelling transferId =>
    refine editJob_persists valid.jobs there ?_ ?_ rfl
    · intro job new edited
      split at edited <;> cases edited <;> rfl
    · intro new _ edited _ terminal
      cases state : row.state with
      | completed | skipped | failed | cancelling | planning | waitingForConflictDecision => rw [state] at edited; cases edited
      | running | queued => rw [state] at terminal; cases terminal
  | removeConflict requestId => exact persists_of_mem there
  | clearTerminal => exact absurd rfl stays

theorem Legal.sorted {event : TransferEvent} {now : Timestamp} (legal : (StoreOp.applyEvent event now).Legal s) :
    event.announced.Pairwise (fun a b => a.id < b.id) := by
  have sorted : StoreOp.Sorted (.applyEvent event now) := by
    cases event with
    | planProgress batch => exact legal.1
    | planStarted | planCompleted | planCancelled | planFailed | conflict | running | progress | warning | completed
    | skipped | failed => trivial
  exact announced_sorted sorted

theorem row_before (valid : s.Valid) {op : StoreOp} (legal : op.Legal s) {row' : TransferJob}
    (there : row' ∈ (s.apply op).1.jobs) (known : ¬ s.Reopens row'.id op) : ∃ row ∈ s.jobs, row.id = row'.id := by
  have origin : Rows (fun job => (∃ row ∈ s.jobs, row.id = job.id) ∨ s.Reopens job.id op) (s.apply op).1 := by
    refine Rows.apply (fun _ _ from_ => from_) (fun _ _ _ from_ => from_) ?_ ?_
    · exact ⟨valid.jobs, fun job hj => Or.inl ⟨job, hj, rfl⟩⟩
    · rintro event now rfl
      exact ⟨fun job taken => Or.inr (Or.inl ⟨job, taken, rfl⟩), Legal.sorted legal⟩
  exact (origin.each row' there).resolve_right known

/-- What an operation does to a plan: its children only grow, by a batch meant for it, and it is not opened again. -/
structure Evolves (op : StoreOp) (plan plan' : TransferPlan) : Prop where
  id : plan'.id = plan.id
  closed : plan.state.isTerminal = true → plan'.state.isTerminal = true
  children : plan'.childJobs = plan.childJobs ∨ ∃ batch now, op = .applyEvent (.planProgress batch) now ∧
    batch.planId = plan.id ∧ plan.state.isTerminal = false ∧
    plan'.childJobs = plan.childJobs ++ batch.childJobs.map (fun job => job.id)

theorem Evolves.refl (op : StoreOp) (plan : TransferPlan) : Evolves op plan plan :=
  ⟨rfl, fun closed => closed, Or.inl rfl⟩

def PlansEvolve (s : TransferStore) (op : StoreOp) (s' : TransferStore) : Prop :=
  ∃ f new, s'.plans = s.plans.map f ++ new ∧ (∀ plan ∈ s.plans, Evolves op plan (f plan)) ∧
    ∀ plan ∈ new, (∀ other ∈ s.plans, other.id ≠ plan.id) ∧ plan.childJobs = []

theorem plansEvolve_same {op : StoreOp} (same : s'.plans = s.plans) : s.PlansEvolve op s' :=
  ⟨fun plan => plan, [], by simpa using same, fun plan _ => Evolves.refl op plan, by simp⟩

theorem plansEvolve_state (valid : s.Valid) {op : StoreOp} {planIndex : Nat} {plan : TransferPlan}
    (get : s.plans[planIndex]? = some plan) {state : TransferPlanState}
    (closed : plan.state.isTerminal = true → state.isTerminal = true)
    (plans : s'.plans = s.plans.modify planIndex (fun plan => { plan with state := state })) : s.PlansEvolve op s' := by
  rw [modify_eq_map valid.plans.ids get] at plans
  refine ⟨_, [], plans.trans (List.append_nil _).symm, ?_, by simp⟩
  intro other ho
  split_ifs with is
  · rw [key_unique (fun plan => plan.id) valid.plans.ids ho (List.mem_of_getElem? get) is]
    exact ⟨rfl, closed, Or.inl rfl⟩
  · exact Evolves.refl op other

theorem planStarted_evolves {snapshot : TransferPlanSnapshot} {now : Timestamp}
    (legal : (StoreOp.applyEvent (.planStarted snapshot) now).Legal s) :
    s.PlansEvolve (.applyEvent (.planStarted snapshot) now) (s.applyEvent (.planStarted snapshot) now).1 := by
  have plans : (s.applyEvent (.planStarted snapshot) now).1.plans =
      ({ s with justFinishedPlan := none }.insertPlan snapshot.plan).1.plans := insertJob_plans _ _
  unfold insertPlan at plans
  split_ifs at plans with known
  · exact plansEvolve_same plans
  · simp only [List.any_eq_true, decide_eq_true_eq, not_exists, not_and] at known
    refine ⟨fun plan => plan, [snapshot.plan], by simpa using plans, fun plan _ => Evolves.refl _ plan, ?_⟩
    intro plan hp
    rw [List.mem_singleton.mp hp]
    rcases legal with ⟨other, ho, is⟩ | ⟨empty, _⟩
    · exact absurd is (known other ho)
    · exact ⟨known, empty⟩

theorem planProgress_evolves (valid : s.Valid) {batch : TransferPlanProgress} {now : Timestamp}
    (legal : (StoreOp.applyEvent (.planProgress batch) now).Legal s) :
    s.PlansEvolve (.applyEvent (.planProgress batch) now) (s.applyEvent (.planProgress batch) now).1 := by
  show s.PlansEvolve _ (applyPlanProgress _ batch).1
  unfold applyPlanProgress
  split
  · apply plansEvolve_same
    rw [insertJobs_frame]
  · rename_i plan found
    obtain ⟨hp, named⟩ := findKey_mem (fun plan : TransferPlan => plan.id) found
    split
    · exact plansEvolve_same rfl
    · rename_i open_
      dsimp only
      refine ⟨fun other => if other.id = batch.planId then (extendPlan plan batch).1 else other, [], ?_, ?_, by simp⟩
      · rw [insertJobs_frame, List.append_nil]
        exact updateKey_eq_map (fun plan : TransferPlan => plan.id) _ _ valid.plans.ids
      · intro other ho
        dsimp only
        split_ifs with is
        · rw [key_unique (fun plan => plan.id) valid.plans.ids ho hp (is.trans named.symm)]
          refine ⟨rfl, fun closed => closed, Or.inr ⟨batch, now, rfl, named.symm, by simpa using open_, ?_⟩⟩
          exact extendPlan_children (legal.2.2 plan hp named)
        · exact Evolves.refl _ other

theorem outcome_evolves (valid : s.Valid) {event : TransferEvent} {transferId : TransferId} {state : TransferState}
    (outcome : event.outcome = some (transferId, state)) (now : Timestamp) :
    s.PlansEvolve (.applyEvent event now) (s.applyEvent event now).1 := by
  have valid' := settledBy_valid valid transferId state
  have plans := settledBy_plans s transferId state
  rw [applyEvent_outcome outcome]
  by_cases owned : ∃ plan ∈ s.plans, transferId ∈ plan.childJobs
  · obtain ⟨plan, hp, child⟩ := owned
    obtain ⟨planIndex, get, final⟩ := finalizePlanForJob_child valid' (plans.symm ▸ hp) child
    rw [final]
    by_cases finishes : (s.settledBy transferId state).Finishes plan
    · rw [finalizePlan_of_finishes planIndex finishes]
      rw [plans] at get
      refine plansEvolve_state valid get ?_ (congrArg _ plans)
      intro closed
      rw [finishes.1] at closed
      cases closed
    · rw [finalizePlan_quiet planIndex finishes]
      exact plansEvolve_same plans
  · have orphan : ∀ plan ∈ (s.settledBy transferId state).plans, transferId ∉ plan.childJobs := by
      rw [plans]
      exact fun plan hp child => owned ⟨plan, hp, child⟩
    exact plansEvolve_same ((finalizePlanForJob_no_child orphan).1.trans plans)

theorem applyEvent_evolves (valid : s.Valid) {event : TransferEvent} {now : Timestamp}
    (legal : (StoreOp.applyEvent event now).Legal s) :
    s.PlansEvolve (.applyEvent event now) (s.applyEvent event now).1 := by
  cases event with
  | planStarted snapshot => exact planStarted_evolves legal
  | planProgress batch => exact planProgress_evolves valid legal
  | planCompleted planId =>
    show s.PlansEvolve _ (applyPlanCompleted _ planId).1
    unfold applyPlanCompleted
    split
    · exact plansEvolve_same rfl
    · rename_i planIndex plan found
      split
      · exact plansEvolve_same rfl
      · rename_i open_
        refine plansEvolve_state valid (planIndexOf_some found).1 ?_ (editJob_plans _ _ _)
        exact fun closed => absurd closed open_
  | planCancelled planId =>
    show s.PlansEvolve _ (setPlanCancelled _ planId).1
    unfold setPlanCancelled
    split
    · exact plansEvolve_same rfl
    · rename_i planIndex plan found
      split
      · exact plansEvolve_same rfl
      · exact plansEvolve_same rfl
      · dsimp only
        split
        · refine plansEvolve_state valid (planIndexOf_some found).1 ?_
            (congrArg (fun plans => List.modify plans planIndex _) (settleJobs_plans _ _ _ _))
          exact fun _ => rfl
        · exact plansEvolve_same (settleJobs_plans _ _ _ _)
  | planFailed planId error =>
    show s.PlansEvolve _ (setPlanTerminalState _ planId _ _).1
    unfold setPlanTerminalState
    split
    · exact plansEvolve_same rfl
    · rename_i planIndex plan found
      refine plansEvolve_state valid (planIndexOf_some found).1 ?_ (settleJobs_plans _ _ _ _)
      exact fun _ => rfl
  | conflict prompt => exact plansEvolve_same ((upsertConflict_plans _ _).trans (editJob_plans _ _ _))
  | running job =>
    apply plansEvolve_same
    show (TransferStore.upsertJob _ job).1.plans = _
    unfold TransferStore.upsertJob
    split
    · split <;> rfl
    · rfl
  | progress made => exact plansEvolve_same (editJob_plans _ _ _)
  | warning raised => exact plansEvolve_same (editJob_plans _ _ _)
  | completed | skipped | failed => exact outcome_evolves valid rfl now

theorem apply_evolves (valid : s.Valid) {op : StoreOp} (legal : op.Legal s) (stays : op ≠ .clearTerminal) :
    s.PlansEvolve op (s.apply op).1 := by
  cases op with
  | applyEvent event now => exact applyEvent_evolves valid legal
  | markCancelling transferId => exact plansEvolve_same (editJob_plans _ _ _)
  | removeConflict requestId => exact plansEvolve_same rfl
  | clearTerminal => exact absurd rfl stays

theorem plan_before (valid : s.Valid) {op : StoreOp} (legal : op.Legal s) {plan' : TransferPlan}
    (hp' : plan' ∈ (s.apply op).1.plans) :
    (∃ plan ∈ s.plans, Evolves op plan plan') ∨ (∀ plan ∈ s.plans, plan.id ≠ plan'.id) ∧ plan'.childJobs = [] := by
  by_cases stays : op = .clearTerminal
  · subst stays
    exact Or.inl ⟨plan', List.mem_of_mem_filter hp', Evolves.refl _ plan'⟩
  · obtain ⟨f, new, plans, evolves, fresh⟩ := apply_evolves valid legal stays
    rw [plans, List.mem_append, List.mem_map] at hp'
    rcases hp' with ⟨plan, hp, rfl⟩ | hp'
    · exact Or.inl ⟨plan, hp, evolves plan hp⟩
    · exact Or.inr (fresh plan' hp')

theorem plan_after (valid : s.Valid) {op : StoreOp} (legal : op.Legal s) (stays : op ≠ .clearTerminal) {plan : TransferPlan}
    (hp : plan ∈ s.plans) : ∃ plan' ∈ (s.apply op).1.plans, Evolves op plan plan' := by
  obtain ⟨f, new, plans, evolves, _⟩ := apply_evolves valid legal stays
  refine ⟨f plan, ?_, evolves plan hp⟩
  rw [plans]
  exact List.mem_append_left _ (List.mem_map_of_mem hp)

theorem Evolves.child {op : StoreOp} {plan plan' : TransferPlan} (h : Evolves op plan plan') {child : TransferId}
    (member : child ∈ plan.childJobs) : child ∈ plan'.childJobs := by
  rcases h.children with same | ⟨_, _, _, _, _, extended⟩
  · rw [same]
    exact member
  · rw [extended]
    exact List.mem_append_left _ member

def HasPlan (s : TransferStore) (planId : TransferPlanId) : Prop := ∃ plan ∈ s.plans, plan.id = planId

def HasChild (s : TransferStore) (planId : TransferPlanId) (transferId : TransferId) : Prop :=
  ∃ plan ∈ s.plans, plan.id = planId ∧ transferId ∈ plan.childJobs

instance (s : TransferStore) (planId : TransferPlanId) : Decidable (s.HasPlan planId) :=
  inferInstanceAs (Decidable (∃ plan ∈ s.plans, _))

instance (s : TransferStore) (planId : TransferPlanId) (transferId : TransferId) : Decidable (s.HasChild planId transferId) :=
  inferInstanceAs (Decidable (∃ plan ∈ s.plans, _))

theorem HasChild.next (valid : s.Valid) {op : StoreOp} (legal : op.Legal s) {planId : TransferPlanId}
    {transferId : TransferId} (h : s.HasChild planId transferId) {row : TransferJob} (there : row ∈ (s.apply op).1.jobs)
    (is : row.id = transferId) : (s.apply op).1.HasChild planId transferId := by
  obtain ⟨plan, hp, named, child⟩ := h
  by_cases stays : op = .clearTerminal
  · subst stays
    refine ⟨plan, List.mem_filter.mpr ⟨hp, ?_⟩, named, child⟩
    have remains : transferId ∈ ((s.jobs.filter (fun job => !job.state.isTerminal)).map (fun job => job.id)).toFinset := by
      rw [List.mem_toFinset, ← is]
      exact List.mem_map_of_mem there
    rw [Bool.or_eq_true, List.any_eq_true]
    exact Or.inr ⟨transferId, child, decide_eq_true remains⟩
  · obtain ⟨plan', hp', evolves⟩ := plan_after valid legal stays hp
    exact ⟨plan', hp', evolves.id.trans named, evolves.child child⟩

theorem Persists.ended {held : Prop} {row row' : TransferJob} (asc : Ascending (fun job => job.id) s'.jobs)
    (h : Persists held row s') (free : held) (terminal : row.state.isTerminal = true) (there : row' ∈ s'.jobs)
    (is : row'.id = row.id) : row'.state.isTerminal = true := by
  obtain ⟨after, ha, named, keep⟩ := h
  rw [key_unique (fun job => job.id) asc.nodup there ha (is.trans named.symm)]
  exact keep free terminal

theorem outcome_not_reopens {event : TransferEvent} {transferId : TransferId} {state : TransferState}
    (outcome : event.outcome = some (transferId, state)) (now : Timestamp) (other : TransferId) :
    ¬ s.Reopens other (.applyEvent event now) := by
  cases event <;> simp only [TransferEvent.outcome, reduceCtorEq] at outcome
  all_goals
    rintro (⟨job, taken, _⟩ | asked)
    · cases taken
    · cases asked

theorem outcome_ended (valid : s.Valid) {event : TransferEvent} {transferId : TransferId} {state : TransferState}
    (outcome : event.outcome = some (transferId, state)) {now : Timestamp} {row' : TransferJob}
    (there : row' ∈ (s.applyEvent event now).1.jobs) (is : row'.id = transferId) : row'.state.isTerminal = true := by
  have legal : (StoreOp.applyEvent event now).Legal s := legal_of_job (TransferEvent.job_of_outcome outcome) now
  obtain ⟨row, hr, named⟩ := row_before valid legal there (outcome_not_reopens outcome now _)
  have asc := (apply_valid valid legal).jobs
  have settled : assign transferId state row ∈ (s.settledBy transferId state).jobs := by
    rw [settledBy_jobs valid.jobs]
    exact List.mem_map_of_mem hr
  have kept : Persists True (assign transferId state row) (s.applyEvent event now).1 := by
    rw [applyEvent_outcome outcome]
    exact finalizePlanForJob_persists (settledBy_valid valid transferId state) settled transferId
  refine kept.ended asc trivial ?_ there (named.symm.trans (assign_id _ _ row).symm)
  rw [assign, if_pos (named.trans is)]
  exact outcome_terminal outcome

theorem outcome_closes (valid : s.Valid) {event : TransferEvent} {transferId : TransferId} {state : TransferState}
    (outcome : event.outcome = some (transferId, state)) {now : Timestamp} {plan : TransferPlan} (hp : plan ∈ s.plans)
    (child : transferId ∈ plan.childJobs) (open_ : plan.state.isTerminal = false)
    (stored : ∀ id ∈ plan.childJobs, ∃ row ∈ s.jobs, row.id = id)
    (ended : ∀ row ∈ s.jobs, row.id ∈ plan.childJobs → row.id ≠ transferId → row.state.isTerminal = true)
    {plan' : TransferPlan} (hp' : plan' ∈ (s.applyEvent event now).1.plans) (named : plan'.id = plan.id) :
    plan'.state.isTerminal = true := by
  have valid' := settledBy_valid valid transferId state
  have jobs := settledBy_jobs valid.jobs transferId state
  have there : plan ∈ (s.settledBy transferId state).plans := by
    rw [settledBy_plans]
    exact hp
  have finishes : (s.settledBy transferId state).Finishes plan := by
    rw [finishes_iff_children valid'.jobs (valid.plans.ascending plan hp)]
    · refine ⟨open_, ?_⟩
      rw [jobs]
      intro after ha listed
      obtain ⟨row, hr, rfl⟩ := List.mem_map.mp ha
      rw [assign_id] at listed
      by_cases is : row.id = transferId
      · rw [assign, if_pos is]
        exact outcome_terminal outcome
      · rw [assign, if_neg is]
        exact ended row hr listed is
    · rw [jobs]
      intro id listed
      obtain ⟨row, hr, is⟩ := stored id listed
      exact ⟨_, List.mem_map_of_mem hr, (assign_id _ _ row).trans is⟩
  obtain ⟨planIndex, get, final⟩ := finalizePlanForJob_child valid' there child
  rw [applyEvent_outcome outcome, final, finalizePlan_of_finishes planIndex finishes] at hp'
  rcases finishPlan_plans valid' get _ hp' with ⟨_, closed⟩ | ⟨differs, _⟩
  · rw [closed]
    split <;> rfl
  · exact absurd named differs

theorem planCompleted_closes (valid : s.Valid) {plan : TransferPlan} (hp : plan ∈ s.plans) (empty : plan.childJobs = [])
    (now : Timestamp) {plan' : TransferPlan} (hp' : plan' ∈ (s.applyEvent (.planCompleted plan.id) now).1.plans)
    (named : plan'.id = plan.id) : plan'.state.isTerminal = true := by
  obtain ⟨planIndex, found⟩ := planIndexOf_of_mem (s := { s with justFinishedPlan := none }) valid.plans.ids hp
  simp only [applyEvent, applyPlanCompleted, found, empty, ↓reduceIte] at hp'
  split at hp'
  · rename_i closed
    rw [key_unique (fun plan => plan.id) valid.plans.ids hp' hp named]
    exact closed
  · have plans : (({ s with justFinishedPlan := none }.setPlanState planIndex .completed).setJobState
        plan.rootJobId .completed).1.plans =
        s.plans.map (fun other => if other.id = plan.id then { other with state := .completed } else other) :=
      (editJob_plans _ _ _).trans (modify_eq_map valid.plans.ids (planIndexOf_some found).1 _)
    rw [plans] at hp'
    obtain ⟨other, _, rfl⟩ := List.mem_map.mp hp'
    split_ifs at named ⊢ with is
    · rfl
    · exact absurd named is

end TransferStore

def StoreOp.ended : StoreOp → Option TransferId
  | .applyEvent event _ => event.outcome.map Prod.fst
  | _ => none

def StoreOp.plannedOut : StoreOp → Option TransferPlanId
  | .applyEvent (.planCompleted planId) _ => some planId
  | _ => none

namespace TransferStore

variable {s : TransferStore} {planId : TransferPlanId} {ops : List StoreOp} {op : StoreOp}

/-- The end of the job was reported after it had been published for the plan, and it was not taken up again since. -/
def Received (planId : TransferPlanId) (ops : List StoreOp) (transferId : TransferId) : Prop :=
  machine.Since (fun s op => op.ended = some transferId ∧ s.HasChild planId transferId)
    (fun s op => ¬ s.Reopens transferId op) {} ops

/-- The plan was planned to completion, and has been in the store since. -/
def PlannedOut (planId : TransferPlanId) (ops : List StoreOp) : Prop :=
  machine.Since (fun s op => op.plannedOut = some planId ∧ s.HasPlan planId) (fun s _ => s.HasPlan planId) {} ops

instance (planId : TransferPlanId) (ops : List StoreOp) (transferId : TransferId) :
    Decidable (Received planId ops transferId) := inferInstanceAs (Decidable (machine.Since _ _ _ _))

instance (planId : TransferPlanId) (ops : List StoreOp) : Decidable (PlannedOut planId ops) :=
  inferInstanceAs (Decidable (machine.Since _ _ _ _))

/-- No ended child of the plan is cleared while the plan is open. -/
def KeepsChildren (planId : TransferPlanId) (s : TransferStore) (op : StoreOp) : Prop :=
  op = .clearTerminal → ∀ plan ∈ s.plans, plan.id = planId → plan.state.isTerminal = false →
    ∀ job ∈ s.jobs, job.id ∈ plan.childJobs → job.state.isTerminal = false

instance (planId : TransferPlanId) (s : TransferStore) (op : StoreOp) : Decidable (KeepsChildren planId s op) :=
  inferInstanceAs (Decidable (op = .clearTerminal → _))

structure Tracks (planId : TransferPlanId) (ops : List StoreOp) (s : TransferStore) : Prop where
  valid : s.Valid
  ended : ∀ row ∈ s.jobs, Received planId ops row.id → s.HasChild planId row.id ∧ row.state.isTerminal = true
  waits : ∀ plan ∈ s.plans, plan.id = planId → plan.state.isTerminal = false → plan.childJobs ≠ [] →
    ∃ child ∈ plan.childJobs, Received planId ops child → s.Lacks child
  plans : ∀ plan ∈ s.plans, plan.id = planId → plan.state.isTerminal = false → plan.childJobs = [] → ¬ PlannedOut planId ops

theorem tracks_nil : Tracks planId [] {} :=
  ⟨empty_valid, by simp, by simp, by simp⟩

theorem received_concat {transferId : TransferId} (reached : machine.run {} ops = s) :
    Received planId (ops ++ [op]) transferId ↔ op.ended = some transferId ∧ s.HasChild planId transferId ∨
      Received planId ops transferId ∧ ¬ s.Reopens transferId op := by
  rw [← reached]
  exact machine.since_concat {} ops op

theorem plannedOut_concat (reached : machine.run {} ops = s) :
    PlannedOut planId (ops ++ [op]) ↔ op.plannedOut = some planId ∧ s.HasPlan planId ∨
      PlannedOut planId ops ∧ s.HasPlan planId := by
  rw [← reached]
  exact machine.since_concat {} ops op

theorem event_of_ended {transferId : TransferId} (h : op.ended = some transferId) :
    ∃ event now state, op = .applyEvent event now ∧ event.outcome = some (transferId, state) := by
  cases op with
  | applyEvent event now =>
    obtain ⟨⟨id, state⟩, outcome, rfl⟩ := Option.map_eq_some_iff.mp h
    exact ⟨event, now, state, rfl, outcome⟩
  | markCancelling | removeConflict | clearTerminal => cases h

theorem HasChild.not_root (valid : s.Valid) {transferId : TransferId} (h : s.HasChild planId transferId) :
    ∀ plan ∈ s.plans, plan.rootJobId ≠ transferId := by
  obtain ⟨owner, ho, _, child⟩ := h
  intro plan hp
  exact (child_not_root valid hp ho child).symm

theorem Tracks.row (tracks : Tracks planId ops s) (legal : op.Legal s) {row' : TransferJob}
    (there : row' ∈ (s.apply op).1.jobs) (received : Received planId ops row'.id) (kept : ¬ s.Reopens row'.id op) :
    s.HasChild planId row'.id ∧ row'.state.isTerminal = true := by
  obtain ⟨row, hr, is⟩ := row_before tracks.valid legal there kept
  rw [← is] at received kept ⊢
  obtain ⟨child, terminal⟩ := tracks.ended row hr received
  refine ⟨child, ?_⟩
  by_cases clears : op = .clearTerminal
  · subst clears
    rw [key_unique (fun job => job.id) tracks.valid.jobs.nodup (List.mem_of_mem_filter there) hr is.symm]
    exact terminal
  · exact (apply_persists tracks.valid legal clears hr).ended (apply_valid tracks.valid legal).jobs
      ⟨kept, child.not_root tracks.valid⟩ terminal there is.symm

theorem Tracks.ended_next (tracks : Tracks planId ops s) (reached : machine.run {} ops = s) (legal : op.Legal s) :
    ∀ row ∈ (s.apply op).1.jobs, Received planId (ops ++ [op]) row.id →
      (s.apply op).1.HasChild planId row.id ∧ row.state.isTerminal = true := by
  intro row there received
  rcases (received_concat reached).mp received with ⟨now, child⟩ | ⟨before, kept⟩
  · obtain ⟨event, time, state, rfl, outcome⟩ := event_of_ended now
    exact ⟨child.next tracks.valid legal there rfl, outcome_ended tracks.valid outcome there rfl⟩
  · obtain ⟨child, terminal⟩ := tracks.row legal there before kept
    exact ⟨child.next tracks.valid legal there rfl, terminal⟩

theorem Evolves.opened {plan plan' : TransferPlan} (h : Evolves op plan plan') (open_ : plan'.state.isTerminal = false) :
    plan.state.isTerminal = false := by
  by_contra closed
  rw [h.closed (by simpa using closed)] at open_
  cases open_

theorem Tracks.plans_next (tracks : Tracks planId ops s) (reached : machine.run {} ops = s) (legal : op.Legal s) :
    ∀ plan ∈ (s.apply op).1.plans, plan.id = planId → plan.state.isTerminal = false → plan.childJobs = [] →
      ¬ PlannedOut planId (ops ++ [op]) := by
  intro plan' hp' named open_ empty planned
  have present : s.HasPlan planId := by
    rcases (plannedOut_concat reached).mp planned with ⟨_, present⟩ | ⟨_, present⟩ <;> exact present
  rcases plan_before tracks.valid legal hp' with ⟨plan, hp, evolves⟩ | ⟨fresh, _⟩
  · have none_ : plan.childJobs = [] := by
      apply List.eq_nil_iff_forall_not_mem.mpr
      intro child member
      have after := evolves.child member
      rw [empty] at after
      cases after
    have own : plan.id = planId := evolves.id.symm.trans named
    rcases (plannedOut_concat reached).mp planned with ⟨now, _⟩ | ⟨before, _⟩
    · cases op with
      | applyEvent event time =>
        cases event with
        | planCompleted id =>
          obtain rfl : id = plan.id := (Option.some.inj now).trans own.symm
          have closed := planCompleted_closes tracks.valid hp none_ time hp' evolves.id
          rw [closed] at open_
          cases open_
        | planStarted | planProgress | planCancelled | planFailed | conflict | running | progress | warning | completed
        | skipped | failed => cases now
      | markCancelling | removeConflict | clearTerminal => cases now
    · exact tracks.plans plan hp own (evolves.opened open_) none_ before
  · obtain ⟨plan, hp, own⟩ := present
    exact fresh plan hp (own.trans named.symm)

theorem Tracks.waits_same (tracks : Tracks planId ops s) (reached : machine.run {} ops = s) (legal : op.Legal s)
    {plan plan' : TransferPlan} (hp : plan ∈ s.plans) (hp' : plan' ∈ (s.apply op).1.plans) (evolves : Evolves op plan plan')
    (named : plan.id = planId) (open_ : plan'.state.isTerminal = false) (same : plan'.childJobs = plan.childJobs)
    (some_ : plan.childJobs ≠ []) :
    ∃ child ∈ plan'.childJobs, Received planId (ops ++ [op]) child → (s.apply op).1.Lacks child := by
  -- Were all children ended and stored now, the operation would have ended the last of them, and with it the plan.
  by_contra all
  push Not at all
  simp only [Lacks] at all
  push Not at all
  rw [same] at all
  obtain ⟨child, member, waits⟩ := tracks.waits plan hp named (evolves.opened open_) some_
  have stored : ∀ id ∈ plan.childJobs, ¬ s.Reopens id op → ∃ row ∈ s.jobs, row.id = id := by
    intro id listed kept
    obtain ⟨_, row, hr, rfl⟩ := all id listed
    exact row_before tracks.valid legal hr kept
  rcases (received_concat reached).mp (all child member).1 with ⟨now, _⟩ | ⟨before, kept⟩
  · obtain ⟨event, time, state, rfl, outcome⟩ := event_of_ended now
    have calm := outcome_not_reopens (s := s) outcome time
    have closed := outcome_closes tracks.valid outcome hp member (evolves.opened open_)
      (fun id listed => stored id listed (calm id)) ?_ hp' evolves.id
    · rw [closed] at open_
      cases open_
    · intro row hr listed other
      rcases (received_concat reached).mp (all row.id listed).1 with ⟨again, _⟩ | ⟨before, _⟩
      · rw [now] at again
        exact absurd (Option.some.inj again).symm other
      · exact (tracks.ended row hr before).2
  · obtain ⟨row, hr, is⟩ := stored child member kept
    exact waits before row hr is

theorem Tracks.waits_next (tracks : Tracks planId ops s) (reached : machine.run {} ops = s) (legal : op.Legal s) :
    ∀ plan ∈ (s.apply op).1.plans, plan.id = planId → plan.state.isTerminal = false → plan.childJobs ≠ [] →
      ∃ child ∈ plan.childJobs, Received planId (ops ++ [op]) child → (s.apply op).1.Lacks child := by
  intro plan' hp' named open_ some_
  rcases plan_before tracks.valid legal hp' with ⟨plan, hp, evolves⟩ | ⟨_, empty⟩
  · have own : plan.id = planId := evolves.id.symm.trans named
    rcases evolves.children with same | ⟨batch, now, rfl, meant, opened, extended⟩
    · exact tracks.waits_same reached legal hp hp' evolves own open_ same (same ▸ some_)
    · cases jobs : batch.childJobs with
      | nil =>
        have same : plan'.childJobs = plan.childJobs := by
          rw [extended, jobs]
          exact List.append_nil _
        exact tracks.waits_same reached legal hp hp' evolves own open_ same (same ▸ some_)
      | cons job rest =>
        -- A job of the batch had no end to receive: it was nobody's child before.
        have listed : job ∈ batch.childJobs := by
          rw [jobs]
          exact List.mem_cons_self
        refine ⟨job.id, ?_, ?_⟩
        · rw [extended]
          exact List.mem_append_right _ (List.mem_map_of_mem listed)
        · intro received row hr is
          rcases (received_concat reached).mp received with ⟨ends, _⟩ | ⟨before, kept⟩
          · cases ends
          · rw [← is] at before kept
            obtain ⟨⟨owner, ho, _, child⟩, _⟩ := tracks.row legal hr before kept
            exact legal.2.1 job listed owner ho (Or.inr (is ▸ child))
  · exact absurd empty some_

theorem reachable_tracks (planId : TransferPlanId) {ops : List StoreOp}
    (legal : machine.Admissible (fun s op => op.Legal s) {} ops) : Tracks planId ops (machine.run {} ops) := by
  induction ops using List.reverseRecOn with
  | nil => exact tracks_nil
  | append_singleton ops op ih =>
    rw [machine.admissible_append] at legal
    have tracks := ih legal.1
    have last := legal.2.1
    rw [machine.run_concat]
    exact ⟨apply_valid tracks.valid last, tracks.ended_next rfl last, tracks.waits_next rfl last, tracks.plans_next rfl last⟩

def Complete (planId : TransferPlanId) (s : TransferStore) : Prop :=
  ∀ plan ∈ s.plans, plan.id = planId → plan.state.isTerminal = false → ∀ child ∈ plan.childJobs, ¬ s.Lacks child

theorem apply_complete (valid : s.Valid) (legal : op.Legal s) (keeps : KeepsChildren planId s op) (h : s.Complete planId) :
    (s.apply op).1.Complete planId := by
  intro plan' hp' named open_ child member lacks
  rcases plan_before valid legal hp' with ⟨plan, hp, evolves⟩ | ⟨_, empty⟩
  · have own : plan.id = planId := evolves.id.symm.trans named
    have stays : ∀ id ∈ plan.childJobs, ¬ (s.apply op).1.Lacks id := by
      intro id listed gone
      have there := h plan hp own (evolves.opened open_) id listed
      unfold Lacks at there
      push Not at there
      obtain ⟨row, hr, rfl⟩ := there
      by_cases clears : op = .clearTerminal
      · have running := keeps clears plan hp own (evolves.opened open_) row hr listed
        subst clears
        exact gone row (List.mem_filter.mpr ⟨hr, by rw [running]; rfl⟩) rfl
      · obtain ⟨after, ha, is, _⟩ := apply_persists valid legal clears hr
        exact gone after ha is
    rcases evolves.children with same | ⟨batch, now, rfl, meant, opened, extended⟩
    · exact stays child (same ▸ member) lacks
    · rw [extended, List.mem_append, List.mem_map] at member
      rcases member with old | ⟨job, hj, rfl⟩
      · exact stays child old lacks
      · by_cases new : s.Lacks job.id
        · have taken : job ∈ s.takenIn (.planProgress batch) := by
            have found : s.findPlan batch.planId = some plan := by
              rw [meant]
              exact findKey_of_mem (fun plan : TransferPlan => plan.id) valid.plans.ids hp
            simp only [takenIn, found, Option.any_some, opened, Bool.false_eq_true, ↓reduceIte]
            exact List.mem_filter.mpr ⟨hj, decide_eq_true new⟩
          exact lacks job (takenIn_stored valid.jobs (Legal.sorted legal) now taken) rfl
        · unfold Lacks at new
          push Not at new
          obtain ⟨row, hr, is⟩ := new
          obtain ⟨after, ha, same, _⟩ := apply_persists valid legal (by simp) hr
          exact lacks after ha (same.trans is)
  · rw [empty] at member
    cases member

theorem reachable_complete {ops : List StoreOp}
    (keeps : machine.Admissible (fun s op => op.Legal s ∧ KeepsChildren planId s op) {} ops) :
    (machine.run {} ops).Complete planId := by
  have both : (machine.run {} ops).Valid ∧ (machine.run {} ops).Complete planId := by
    refine machine.admissible_invariant (I := fun s => s.Valid ∧ s.Complete planId) ?_ ⟨empty_valid, by simp [Complete]⟩
      ops keeps
    exact fun s op ⟨legal, keeps⟩ ⟨valid, complete⟩ => ⟨apply_valid valid legal, apply_complete valid legal keeps complete⟩
  exact both.2

theorem ended_plan_closed (ops : List StoreOp) (legal : machine.Admissible (fun s op => op.Legal s) {} ops)
    (plan : TransferPlan) (hp : plan ∈ (machine.run {} ops).plans)
    (ended : ∀ child ∈ plan.childJobs, Received plan.id ops child) (planned : PlannedOut plan.id ops) :
    (plan.state.isTerminal = true ∨ ∃ child ∈ plan.childJobs, (machine.run {} ops).Lacks child) ∧
      (machine.Admissible (KeepsChildren plan.id) {} ops → plan.state.isTerminal = true) := by
  have tracks := reachable_tracks plan.id legal
  have gone : plan.state.isTerminal = false → ∃ child ∈ plan.childJobs, (machine.run {} ops).Lacks child := by
    intro open_
    by_cases empty : plan.childJobs = []
    · exact absurd planned (tracks.plans plan hp rfl open_ empty)
    · obtain ⟨child, member, waits⟩ := tracks.waits plan hp rfl open_ empty
      exact ⟨child, member, waits (ended child member)⟩
  constructor
  · cases terminal : plan.state.isTerminal with
    | true => exact Or.inl rfl
    | false => exact Or.inr (gone terminal)
  · intro keeps
    cases terminal : plan.state.isTerminal with
    | true => rfl
    | false =>
      obtain ⟨child, member, lacks⟩ := gone terminal
      have complete := reachable_complete (machine.admissible_and legal keeps)
      exact absurd lacks (complete plan hp rfl terminal child member)

/-- The second plan ends and is cleared while the children of the first still wait. -/
def clearedBetween : List StoreOp :=
  sampleEvents [.planStarted ⟨samplePlan 1 1 [], sampleJob 1⟩, .planProgress ⟨⟨1⟩, [sampleJob 2, sampleJob 3], 2, some 0⟩,
    .planCompleted ⟨1⟩, .planStarted ⟨samplePlan 2 4 [], sampleJob 4⟩, .planProgress ⟨⟨2⟩, [sampleJob 5], 1, some 0⟩,
    .planCompleted ⟨2⟩, .completed ⟨5⟩] ++ [.clearTerminal] ++ sampleEvents [.completed ⟨2⟩, .skipped ⟨3⟩]

theorem ended_plan_closed_between :
    (∀ plan ∈ (machine.run {} clearedBetween).plans, plan.id = ⟨1⟩ → plan.state.isTerminal = true) ∧
      (machine.run {} clearedBetween).HasPlan ⟨1⟩ := by
  refine ⟨?_, by decide⟩
  intro plan hp named
  have closed := ended_plan_closed clearedBetween (by decide) plan hp
  have children : plan.childJobs = [⟨2⟩, ⟨3⟩] := by
    revert named
    revert plan
    decide
  rw [named, children] at closed
  exact (closed (by decide) (by decide)).2 (by decide)

def clearedMidway : List StoreOp :=
  sampleEvents [.planStarted ⟨samplePlan 1 1 [], sampleJob 1⟩, .planProgress ⟨⟨1⟩, [sampleJob 2, sampleJob 3], 2, some 0⟩,
    .planCompleted ⟨1⟩, .completed ⟨2⟩] ++ [.clearTerminal] ++ sampleEvents [.completed ⟨3⟩]

theorem cleared_child_leaves_plan_open :
    machine.Admissible (fun s op => op.Legal s) {} clearedMidway ∧
      (machine.run {} clearedMidway).plans.map (fun plan => (plan.id, plan.state, plan.childJobs)) =
        [(⟨1⟩, .queued, [⟨2⟩, ⟨3⟩])] ∧
      (∀ child ∈ [⟨2⟩, ⟨3⟩], Received ⟨1⟩ clearedMidway child) ∧ PlannedOut ⟨1⟩ clearedMidway := by
  refine ⟨by decide, by decide, by decide, by decide⟩

end TransferStore

end MacSftp
