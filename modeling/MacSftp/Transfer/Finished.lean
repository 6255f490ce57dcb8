import MacSftp.Transfer.CancelOrder
import MacSftp.Transfer.Replay

namespace MacSftp

open Lib

def TransferEvent.concernedPlan : TransferEvent → Option TransferPlanId
  | planProgress batch => some batch.planId
  | planCompleted planId | planCancelled planId | planFailed planId _ => some planId
  | _ => none

namespace TransferStore

variable {s s' : TransferStore}

def Frozen (s s' : TransferStore) (plan : TransferPlan) : Prop :=
  s'.planState plan.id = s.planState plan.id ∧
    ∀ transferId, (s'.findJob transferId).map (fun job => job.state) = (s.findJob transferId).map (fun job => job.state)

/-- A cancel finds nothing to cancel, and a failure is the one the plan and its jobs already show. -/
def Harmless (s : TransferStore) (plan : TransferPlan) : TransferEvent → Prop
  | .planCancelled _ => plan.state = .completed →
      ∀ job ∈ s.jobs, s.Touches plan job.id → job.state.isTerminal = true
  | .planFailed _ error => plan.state = .failed error ∧
      ∀ job ∈ s.jobs, s.Touches plan job.id → job.state = .failed error error.retryable
  | _ => True

instance (s : TransferStore) (plan : TransferPlan) (event : TransferEvent) : Decidable (s.Harmless plan event) :=
  match event with
  | .planCancelled _ => inferInstanceAs (Decidable (_ → _))
  | .planFailed _ _ => inferInstanceAs (Decidable (_ ∧ _))
  | .planStarted _ | .planProgress _ | .planCompleted _ | .conflict _ | .running _ | .progress _ | .warning _
  | .completed _ | .skipped _ | .failed _ => isTrue trivial

theorem Absorbs.frozen {event : TransferEvent} {now : Timestamp} (absorbs : s.Absorbs event now) (plan : TransferPlan) :
    s.Frozen (s.applyEvent event now).1 plan := by
  obtain ⟨finished, same⟩ := absorbs
  rw [same]
  exact ⟨rfl, fun _ => rfl⟩

theorem planFailed_state (separate : s.Separate) {plan : TransferPlan} (hp : plan ∈ s.plans) (error : UserFacingError)
    (now : Timestamp) : (s.applyEvent (.planFailed plan.id error) now).1.planState plan.id = some (.failed error) := by
  obtain ⟨planIndex, found⟩ := planIndexOf_of_mem (s := { s with justFinishedPlan := none }) separate.plans.ids hp
  obtain ⟨get, _, _⟩ := planIndexOf_some found
  rw [← setPlanState_planState (s := { s with justFinishedPlan := none }) separate.plans.ids get (.failed error)]
  simp only [applyEvent, setPlanTerminalState, found, planState, findPlan, settleJobs_plans]

theorem changed_state_seen (asc : Ascending (fun job => job.id) s.jobs) {g : TransferJob → TransferJob}
    (ids : ∀ job, (g job).id = job.id) (jobs : s'.jobs = s.jobs.map g) {job : TransferJob} (hj : job ∈ s.jobs)
    (same : (s'.findJob job.id).map (fun job => job.state) = (s.findJob job.id).map (fun job => job.state)) :
    (g job).state = job.state := by
  rw [findJob_map asc ids jobs, (findJob_iff asc).mpr ⟨hj, rfl⟩] at same
  simpa using same

theorem planCancelled_frozen_iff (separate : s.Separate) {plan : TransferPlan} (hp : plan ∈ s.plans)
    (terminal : plan.state.isTerminal = true) (now : Timestamp) :
    (s.Harmless plan (.planCancelled plan.id) → s.Absorbs (.planCancelled plan.id) now) ∧
      (s.Frozen (s.applyEvent (.planCancelled plan.id) now).1 plan → s.Harmless plan (.planCancelled plan.id)) := by
  obtain ⟨planIndex, found⟩ := planIndexOf_of_mem (s := { s with justFinishedPlan := none }) separate.plans.ids hp
  constructor
  · intro harmless
    refine ⟨none, ?_⟩
    simp only [applyEvent, setPlanCancelled, found]
    cases state : plan.state with
    | queued | planning => rw [state] at terminal; cases terminal
    | cancelled | failed => rfl
    | completed =>
      have calm : ∀ job ∈ s.jobs, { s with justFinishedPlan := none }.Touches plan job.id →
          (!job.state.isTerminal) = false := by
        intro job hj touched
        rw [harmless state job hj touched]
        rfl
      simp only [settleJobs_absorbed (s := { s with justFinishedPlan := none }) separate.jobs calm, Bool.false_eq_true,
        ↓reduceIte]
  · intro frozen completed job hj touched
    have same := changed_state_seen separate.jobs (settled_id _ _)
      (planCancelled_touches separate.jobs separate.plans.ids hp now) hj (frozen.2 job.id)
    have accepts : plan.state.refusesCancel = false := by
      rw [completed]
      rfl
    rw [if_pos ⟨accepts, touched⟩, settle] at same
    cases ended : job.state.isTerminal with
    | true => rfl
    | false =>
      rw [ended] at same
      rw [← (show TransferState.skipped = job.state from same)] at ended
      cases ended

theorem planFailed_frozen_iff (separate : s.Separate) {plan : TransferPlan} (hp : plan ∈ s.plans) (error : UserFacingError)
    (now : Timestamp) :
    (s.Harmless plan (.planFailed plan.id error) → s.Absorbs (.planFailed plan.id error) now) ∧
      (s.Frozen (s.applyEvent (.planFailed plan.id error) now).1 plan → s.Harmless plan (.planFailed plan.id error)) := by
  obtain ⟨planIndex, found⟩ := planIndexOf_of_mem (s := { s with justFinishedPlan := none }) separate.plans.ids hp
  obtain ⟨get, _, _⟩ := planIndexOf_some found
  constructor
  · rintro ⟨state, harmless⟩
    have modified : s.plans = s.plans.modify planIndex (fun plan => { plan with state := .failed error }) := by
      apply List.ext_getElem?
      intro i
      rw [List.getElem?_modify]
      by_cases here : planIndex = i
      · rw [← here, show s.plans[planIndex]? = some plan from get]
        simp only [↓reduceIte, Option.map_eq_map, Option.map_some]
        rw [← state]
      · simp [here]
    have same := setPlanState_modified (s := { s with justFinishedPlan := none }) modified
    have calm : ∀ job ∈ s.jobs, { s with justFinishedPlan := none }.Touches plan job.id →
        decide (job.state ≠ TransferState.failed error error.retryable) = false := by
      intro job hj touched
      exact decide_eq_false (not_not.mpr (harmless job hj touched))
    refine ⟨none, ?_⟩
    simp only [applyEvent, setPlanTerminalState, found, same, settleJobs_absorbed (s := { s with justFinishedPlan := none })
      separate.jobs calm, state]
    simp
  · rintro ⟨plans, jobs⟩
    rw [planFailed_state separate hp, planState_of_mem separate.plans.ids hp] at plans
    refine ⟨(Option.some.inj plans).symm, ?_⟩
    intro job hj touched
    have same := changed_state_seen separate.jobs (settled_id _ _)
      (planFailed_touches separate.jobs separate.plans.ids hp error now) hj (jobs job.id)
    rw [if_pos touched, settle] at same
    by_contra differs
    rw [if_pos (decide_eq_true differs)] at same
    exact differs same.symm

theorem concerned_frozen_iff (separate : s.Separate) {plan : TransferPlan} (hp : plan ∈ s.plans)
    (terminal : plan.state.isTerminal = true) {event : TransferEvent} (concerns : event.concernedPlan = some plan.id)
    (now : Timestamp) : (s.Harmless plan event → s.Absorbs event now) ∧
      (s.Frozen (s.applyEvent event now).1 plan → s.Harmless plan event) := by
  obtain ⟨planIndex, found⟩ := planIndexOf_of_mem (s := { s with justFinishedPlan := none }) separate.plans.ids hp
  cases event with
  | planProgress batch =>
    have named : batch.planId = plan.id := Option.some.inj concerns
    have known : { s with justFinishedPlan := none }.findPlan batch.planId = some plan := by
      rw [named]
      exact findKey_of_mem (fun plan : TransferPlan => plan.id) separate.plans.ids hp
    refine ⟨fun _ => ⟨none, ?_⟩, fun _ => trivial⟩
    simp only [applyEvent, applyPlanProgress, known, terminal, ↓reduceIte]
  | planCompleted planId =>
    obtain rfl : planId = plan.id := Option.some.inj concerns
    refine ⟨fun _ => ⟨none, ?_⟩, fun _ => trivial⟩
    simp only [applyEvent, applyPlanCompleted, found, terminal, ↓reduceIte]
  | planCancelled planId =>
    obtain rfl : planId = plan.id := Option.some.inj concerns
    exact planCancelled_frozen_iff separate hp terminal now
  | planFailed planId error =>
    obtain rfl : planId = plan.id := Option.some.inj concerns
    exact planFailed_frozen_iff separate hp error now
  | planStarted | conflict | running | progress | warning | completed | skipped | failed => cases concerns

theorem reduce_frozen_iff (separate : s.Separate) {plan : TransferPlan} (hp : plan ∈ s.plans)
    (terminal : plan.state.isTerminal = true) (events : List (TransferEvent × Timestamp))
    (concern : ∀ entry ∈ events, entry.1.concernedPlan = some plan.id) :
    (∀ k, s.Frozen (s.reduce (events.take k)) plan) ↔ ∀ entry ∈ events, s.Harmless plan entry.1 := by
  induction events generalizing s with
  | nil =>
    simp only [List.take_nil, List.not_mem_nil, IsEmpty.forall_iff, implies_true, iff_true]
    exact fun _ => ⟨rfl, fun _ => rfl⟩
  | cons entry rest ih =>
    obtain ⟨event, now⟩ := entry
    have step := concerned_frozen_iff separate hp terminal (concern (event, now) List.mem_cons_self) now
    -- Once the first event is absorbed the others meet the same plans and jobs.
    have others : s.Harmless plan event → ((∀ k, s.Frozen ((s.applyEvent event now).1.reduce (rest.take k)) plan) ↔
        ∀ entry ∈ rest, s.Harmless plan entry.1) := by
      intro harmless
      obtain ⟨finished, same⟩ := step.1 harmless
      rw [same]
      exact ih (s := { s with justFinishedPlan := finished }) ⟨separate.jobs, separate.plans, separate.conflicts⟩ hp
        fun entry member => concern entry (List.mem_cons_of_mem _ member)
    constructor
    · intro frozen
      have harmless : s.Harmless plan event := step.2 (frozen 1)
      intro entry member
      rcases List.mem_cons.mp member with rfl | member
      · exact harmless
      · exact (others harmless).mp (fun k => frozen (k + 1)) entry member
    · intro harmless k
      have first := harmless (event, now) List.mem_cons_self
      cases k with
      | zero => exact ⟨rfl, fun _ => rfl⟩
      | succ k => exact (others first).mpr (fun entry member => harmless entry (List.mem_cons_of_mem _ member)) k

theorem finished_plan_frozen_iff (ops : List StoreOp) (own : machine.Admissible OwnRoot {} ops)
    (plan : TransferPlan) (hp : plan ∈ (machine.run {} ops).plans) (terminal : plan.state.isTerminal = true)
    (events : List (TransferEvent × Timestamp)) (concern : ∀ entry ∈ events, entry.1.concernedPlan = some plan.id) :
    (∀ k, (machine.run {} ops).Frozen ((machine.run {} ops).reduce (events.take k)) plan) ↔
      ∀ entry ∈ events, (machine.run {} ops).Harmless plan entry.1 :=
  reduce_frozen_iff (reachable_separate own) hp terminal events concern

def cancelledRun : List StoreOp := sampleEvents
  [.planStarted ⟨samplePlan 1 1 [], sampleJob 1⟩, .planProgress ⟨⟨1⟩, [sampleJob 2], 1, some 0⟩, .planCancelled ⟨1⟩]

def cancelledPlan : TransferPlan := { samplePlan 1 1 [2] with state := .cancelled }

def latePlanEvents : List (TransferEvent × Timestamp) :=
  [(.planProgress ⟨⟨1⟩, [sampleJob 3], 2, some 0⟩, ⟨1⟩), (.planCompleted ⟨1⟩, ⟨2⟩), (.planCancelled ⟨1⟩, ⟨3⟩)]

theorem finished_plan_frozen_cancelled :
    cancelledPlan ∈ (machine.run {} cancelledRun).plans ∧
      ∀ k, (machine.run {} cancelledRun).Frozen ((machine.run {} cancelledRun).reduce (latePlanEvents.take k))
        cancelledPlan := by
  have stored : cancelledPlan ∈ (machine.run {} cancelledRun).plans := by decide
  refine ⟨stored, ?_⟩
  exact (finished_plan_frozen_iff cancelledRun (by decide) cancelledPlan stored rfl latePlanEvents (by decide)).mpr
    (by decide)

/-- The planner's failure is reduced after the cancel: plan and jobs that ended as cancelled are shown as failed. -/
theorem late_failure_rewrites_cancelled_plan :
    machine.Admissible OwnRoot {} cancelledRun ∧ cancelledPlan ∈ (machine.run {} cancelledRun).plans ∧
      (∀ job ∈ (machine.run {} cancelledRun).jobs, job.state = .skipped) ∧
      (∀ job ∈ ((machine.run {} cancelledRun).applyEvent (.planFailed ⟨1⟩ finishedWithFailures) ⟨4⟩).1.jobs,
        job.state = .failed finishedWithFailures false) ∧
      ¬ (machine.run {} cancelledRun).Frozen
        ((machine.run {} cancelledRun).applyEvent (.planFailed ⟨1⟩ finishedWithFailures) ⟨4⟩).1 cancelledPlan := by
  refine ⟨by decide, by decide, by decide, by decide, ?_⟩
  intro frozen
  exact absurd frozen.1 (by decide)

end TransferStore

end MacSftp
