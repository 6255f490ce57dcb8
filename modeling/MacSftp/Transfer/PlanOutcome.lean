import MacSftp.Transfer.Reachable

namespace MacSftp

open Lib

def TransferPlanState.refusesCancel : TransferPlanState → Bool
  | cancelled | failed _ => true
  | _ => false

namespace TransferStore

variable {s s' : TransferStore}

theorem findJob_map (asc : Ascending (fun job => job.id) s.jobs) {g : TransferJob → TransferJob}
    (keep : ∀ job, (g job).id = job.id) (hj : s'.jobs = s.jobs.map g) (transferId : TransferId) :
    s'.findJob transferId = (s.findJob transferId).map g := by
  have asc' : Ascending (fun job => job.id) s'.jobs := hj ▸ asc.map keep
  ext new
  rw [findJob_iff asc', hj, List.mem_map, Option.map_eq_some_iff]
  constructor
  · rintro ⟨⟨job, hm, rfl⟩, he⟩
    exact ⟨job, (findJob_iff asc).mpr ⟨hm, (keep job).symm.trans he⟩, rfl⟩
  · rintro ⟨job, hf, rfl⟩
    obtain ⟨hm, he⟩ := (findJob_iff asc).mp hf
    exact ⟨⟨job, hm, rfl⟩, (keep job).trans he⟩

theorem planIndexOf_of_mem (ids : (s.plans.map (fun plan => plan.id)).Nodup) {plan : TransferPlan}
    (hp : plan ∈ s.plans) : ∃ planIndex, s.planIndexOf plan.id = some (planIndex, plan) := by
  cases h : s.planIndexOf plan.id with
  | some found =>
    obtain ⟨planIndex, other⟩ := found
    obtain ⟨_, he, ho⟩ := planIndexOf_some h
    rw [key_unique (fun plan : TransferPlan => plan.id) ids ho hp he]
    exact ⟨planIndex, rfl⟩
  | none =>
    exfalso
    unfold planIndexOf at h
    cases hi : s.plans.findIdx? (fun other => decide (other.id = plan.id)) with
    | none =>
      have := List.findIdx?_eq_none_iff.mp hi plan hp
      simp at this
    | some i =>
      obtain ⟨hlt, _⟩ := List.findIdx?_eq_some_iff_getElem.mp hi
      simp [hi, List.getElem?_eq_getElem hlt] at h

theorem planCancelled_touches (asc : Ascending (fun job => job.id) s.jobs)
    (ids : (s.plans.map (fun plan => plan.id)).Nodup) {plan : TransferPlan} (hp : plan ∈ s.plans) (now : Timestamp) :
    (s.applyEvent (.planCancelled plan.id) now).1.jobs = s.jobs.map (fun job =>
      if plan.state.refusesCancel = false ∧ s.Touches plan job.id then
        settle (fun job => !job.state.isTerminal) .skipped job else job) := by
  obtain ⟨planIndex, found⟩ := planIndexOf_of_mem (s := { s with justFinishedPlan := none }) ids hp
  have settled := congrArg (fun result => result.1.jobs) (settleJobs_touches (s := { s with justFinishedPlan := none })
    asc plan (fun job => !job.state.isTerminal) .skipped)
  simp only [applyEvent, setPlanCancelled, found]
  cases hs : plan.state with
  | cancelled => simp [TransferPlanState.refusesCancel]
  | failed error => simp [TransferPlanState.refusesCancel]
  | queued | planning | completed =>
    simp only [TransferPlanState.refusesCancel, true_and]
    split_ifs
    · exact settled
    · exact settled

theorem planFailed_touches (asc : Ascending (fun job => job.id) s.jobs)
    (ids : (s.plans.map (fun plan => plan.id)).Nodup) {plan : TransferPlan} (hp : plan ∈ s.plans)
    (error : UserFacingError) (now : Timestamp) :
    (s.applyEvent (.planFailed plan.id error) now).1.jobs = s.jobs.map (fun job =>
      if s.Touches plan job.id then
        settle (fun job => job.state ≠ .failed error error.retryable) (.failed error error.retryable) job
      else job) := by
  obtain ⟨planIndex, found⟩ := planIndexOf_of_mem (s := { s with justFinishedPlan := none }) ids hp
  simp only [applyEvent, setPlanTerminalState, found]
  exact congrArg (fun result => result.1.jobs)
    (settleJobs_touches (s := { s with justFinishedPlan := none }.setPlanState planIndex (.failed error)) asc plan _ _)

theorem planCancelled_jobs (valid : s.Valid) {plan : TransferPlan} (hp : plan ∈ s.plans) (now : Timestamp) :
    (s.applyEvent (.planCancelled plan.id) now).1.jobs = s.jobs.map (fun job =>
      if plan.state.refusesCancel = false ∧ s.Reaches plan job then
        settle (fun job => !job.state.isTerminal) .skipped job else job) := by
  rw [planCancelled_touches valid.jobs valid.plans.ids hp]
  apply List.map_congr_left
  intro job hj
  simp only [touches_iff_reaches valid.jobs (valid.plans.ascending plan hp) hj]

theorem planFailed_jobs (valid : s.Valid) {plan : TransferPlan} (hp : plan ∈ s.plans) (error : UserFacingError)
    (now : Timestamp) :
    (s.applyEvent (.planFailed plan.id error) now).1.jobs = s.jobs.map (fun job =>
      if s.Reaches plan job then
        settle (fun job => job.state ≠ .failed error error.retryable) (.failed error error.retryable) job
      else job) := by
  rw [planFailed_touches valid.jobs valid.plans.ids hp]
  apply List.map_congr_left
  intro job hj
  simp only [touches_iff_reaches valid.jobs (valid.plans.ascending plan hp) hj]

/-- First and last child are stored with as many jobs from the one to the other as the plan has children,
although one of these jobs is not the plan's. -/
def Masked (s : TransferStore) (plan : TransferPlan) : Prop :=
  s.Spans plan ∧ ∃ job ∈ s.span plan, ¬ plan.Owns job.id

instance (s : TransferStore) (plan : TransferPlan) : Decidable (s.Masked plan) := inferInstanceAs (Decidable (_ ∧ _))

def CancelExact (s : TransferStore) (plan : TransferPlan) : Prop :=
  ∀ now transferId, (s.applyEvent (.planCancelled plan.id) now).1.findJob transferId =
    (s.findJob transferId).map (fun job =>
      if plan.state.refusesCancel = false ∧ plan.Owns transferId ∧ job.state.isTerminal = false then
        { job with state := .skipped } else job)

def FailureContained (s : TransferStore) (plan : TransferPlan) : Prop :=
  ∀ error now transferId, ¬ plan.Owns transferId →
    (s.applyEvent (.planFailed plan.id error) now).1.findJob transferId = s.findJob transferId

def OtherPlansUntouched (s : TransferStore) (plan : TransferPlan) : Prop :=
  ∀ other ∈ s.plans, other.id ≠ plan.id → ∀ transferId, other.Owns transferId → ∀ error now,
    (s.applyEvent (.planCancelled plan.id) now).1.findJob transferId = s.findJob transferId ∧
      (s.applyEvent (.planFailed plan.id error) now).1.findJob transferId = s.findJob transferId

theorem reaches_iff_owns {plan : TransferPlan} (clear : ¬ s.Masked plan) (job : TransferJob) :
    s.Reaches plan job ↔ plan.Owns job.id := by
  constructor
  · rintro (own | ⟨spans, hm⟩)
    · exact own
    · by_contra foreign
      exact clear ⟨spans, job, hm, foreign⟩
  · exact Or.inl

theorem span_subset {plan : TransferPlan} {job : TransferJob} (h : job ∈ s.span plan) : job ∈ s.jobs := by
  unfold span at h
  split at h
  · exact List.mem_of_mem_filter h
  · cases h

theorem settled_id {c : TransferJob → Prop} [DecidablePred c] (stale : TransferJob → Bool)
    (state : TransferState) (job : TransferJob) : (if c job then settle stale state job else job).id = job.id := by
  split_ifs
  · exact settle_id stale state job
  · rfl

theorem cancelExact_of_not_masked (valid : s.Valid) {plan : TransferPlan} (hp : plan ∈ s.plans)
    (clear : ¬ s.Masked plan) : s.CancelExact plan := by
  intro now transferId
  rw [findJob_map valid.jobs (settled_id _ _) (planCancelled_jobs valid hp now)]
  cases hf : s.findJob transferId with
  | none => rfl
  | some job =>
    obtain ⟨_, rfl⟩ := (findJob_iff valid.jobs).mp hf
    simp only [Option.map_some, Option.some.injEq, reaches_iff_owns clear]
    by_cases own : plan.state.refusesCancel = false ∧ plan.Owns job.id
    · rw [if_pos own, settle]
      simp only [own, true_and, Bool.not_eq_true']
    · rw [if_neg own, if_neg (fun h => own ⟨h.1, h.2.1⟩)]

theorem failureContained_of_not_masked (valid : s.Valid) {plan : TransferPlan} (hp : plan ∈ s.plans)
    (clear : ¬ s.Masked plan) : s.FailureContained plan := by
  intro error now transferId foreign
  rw [findJob_map valid.jobs (settled_id _ _) (planFailed_jobs valid hp error now)]
  cases hf : s.findJob transferId with
  | none => rfl
  | some job =>
    obtain ⟨_, rfl⟩ := (findJob_iff valid.jobs).mp hf
    rw [Option.map_some, if_neg (fun reach => foreign ((reaches_iff_owns clear job).mp reach))]

theorem otherPlansUntouched (valid : s.Valid) {plan : TransferPlan} (hp : plan ∈ s.plans)
    (cancel : s.CancelExact plan) (failure : s.FailureContained plan) : s.OtherPlansUntouched plan := by
  intro other ho hne transferId own error now
  have foreign : ¬ plan.Owns transferId := valid.plans.apart other ho plan hp hne transferId own
  refine ⟨?_, failure error now transferId foreign⟩
  rw [cancel now transferId]
  cases s.findJob transferId with
  | none => rfl
  | some job => rw [Option.map_some, if_neg (fun h => foreign h.2.1)]

theorem not_failureContained_of_masked (valid : s.Valid) {plan : TransferPlan} (hp : plan ∈ s.plans)
    (masked : s.Masked plan) : ¬ s.FailureContained plan := by
  obtain ⟨spans, job, hm, foreign⟩ := masked
  intro contained
  have found : s.findJob job.id = some job := (findJob_iff valid.jobs).mpr ⟨span_subset hm, rfl⟩
  have state : ∀ error : UserFacingError, job.state = .failed error error.retryable := by
    intro error
    have after := contained error ⟨0⟩ job.id foreign
    have reach : s.Reaches plan job := Or.inr ⟨spans, hm⟩
    rw [findJob_map valid.jobs (settled_id _ _) (planFailed_jobs valid hp error ⟨0⟩), found, Option.map_some,
      if_pos reach, Option.some.injEq] at after
    by_contra differ
    rw [settle, if_pos (by simpa using differ)] at after
    exact differ (congrArg TransferJob.state after).symm
  have first := state ⟨.unknown, "", "", none, true⟩
  have second := state ⟨.notFound, "", "", none, true⟩
  rw [first] at second
  cases second

theorem plan_outcomes_exact_iff (ops : List StoreOp) (legal : machine.Admissible (fun s op => op.Legal s) {} ops)
    (plan : TransferPlan) (hp : plan ∈ (machine.run {} ops).plans) :
    ((machine.run {} ops).CancelExact plan ∧ (machine.run {} ops).FailureContained plan ∧
      (machine.run {} ops).OtherPlansUntouched plan) ↔ ¬ (machine.run {} ops).Masked plan := by
  have valid := reachable_valid legal
  constructor
  · rintro ⟨_, contained, _⟩ masked
    exact not_failureContained_of_masked valid hp masked contained
  · intro clear
    have cancel := cancelExact_of_not_masked valid hp clear
    have failure := failureContained_of_not_masked valid hp clear
    exact ⟨cancel, failure, otherPlansUntouched valid hp cancel failure⟩

def sampleJob (id : Nat) : TransferJob where
  id := ⟨id⟩
  direction := .upload
  source := .local (.new "/a")
  destination := .remote (.new "/b")
  state := .queued
  metadataPolicy := {}
  conflictPolicy := .ask
  warnings := []
  createdAt := ⟨0⟩

def samplePlan (id root : Nat) (children : List Nat) : TransferPlan where
  id := ⟨id⟩
  rootJobId := ⟨root⟩
  sourceRoot := .local (.new "/a")
  destinationRoot := .remote (.new "/b")
  state := .planning
  plannedCount := children.length
  totalBytes := some 0
  childJobs := children.map (⟨·⟩)
  conflictPolicy := .ask

def sampleEvents (events : List TransferEvent) : List StoreOp := events.map (.applyEvent · ⟨0⟩)

/-- Plan 1 publishes the jobs 3, 5 and 6, plan 2 the job 4 in between. -/
def interleavedPlans : List StoreOp := sampleEvents
  [.planStarted ⟨samplePlan 1 1 [], sampleJob 1⟩, .planStarted ⟨samplePlan 2 2 [], sampleJob 2⟩,
    .planProgress ⟨⟨1⟩, [sampleJob 3], 1, some 0⟩, .planProgress ⟨⟨2⟩, [sampleJob 4], 1, some 0⟩,
    .planProgress ⟨⟨1⟩, [sampleJob 5, sampleJob 6], 3, some 0⟩]

theorem plan_outcomes_exact_interleaved :
    (machine.run {} interleavedPlans).CancelExact (samplePlan 1 1 [3, 5, 6]) ∧
      (machine.run {} interleavedPlans).FailureContained (samplePlan 1 1 [3, 5, 6]) ∧
      (machine.run {} interleavedPlans).OtherPlansUntouched (samplePlan 1 1 [3, 5, 6]) :=
  (plan_outcomes_exact_iff interleavedPlans (by decide) (samplePlan 1 1 [3, 5, 6]) (by decide)).mpr (by decide)

/-- Once job 5 is done and cleared, the jobs 3, 4 and 6 look like the three children of plan 1. -/
def maskedRun : List StoreOp := interleavedPlans ++ sampleEvents [.completed ⟨5⟩] ++ [.clearTerminal]

theorem plan_cancel_skips_foreign_job :
    machine.Admissible (fun s op => op.Legal s) {} maskedRun ∧
      samplePlan 1 1 [3, 5, 6] ∈ (machine.run {} maskedRun).plans ∧
      samplePlan 2 2 [4] ∈ (machine.run {} maskedRun).plans ∧
      ¬ (machine.run {} maskedRun).CancelExact (samplePlan 1 1 [3, 5, 6]) ∧
      ¬ (machine.run {} maskedRun).FailureContained (samplePlan 1 1 [3, 5, 6]) ∧
      ¬ (machine.run {} maskedRun).OtherPlansUntouched (samplePlan 1 1 [3, 5, 6]) := by
  refine ⟨by decide, by decide, by decide, ?_, ?_, ?_⟩
  · intro exact_
    exact absurd (exact_ ⟨0⟩ ⟨4⟩) (by decide)
  · intro contained
    exact absurd (contained finishedWithFailures ⟨0⟩ ⟨4⟩ (by decide)) (by decide)
  · intro untouched
    have h := untouched (samplePlan 2 2 [4]) (by decide) (by decide) ⟨4⟩ (by decide) finishedWithFailures ⟨0⟩
    exact absurd h.1 (by decide)

end TransferStore

end MacSftp
