import MacSftp.Transfer.CancelOrder
import MacSftp.Transfer.Planned

namespace MacSftp

open Lib

def TransferEvent.job : TransferEvent → Option TransferId
  | running snapshot => some snapshot.id
  | progress made => some made.transferId
  | warning raised => some raised.transferId
  | completed transferId | skipped transferId => some transferId
  | failed failure => some failure.transferId
  | _ => none

/-- What a job-level event makes of the job it is about. -/
def TransferEvent.advance (event : TransferEvent) (now : Timestamp) (job : TransferJob) : TransferJob :=
  match event with
  | running snapshot => snapshot
  | progress made =>
    match job.state with
    | .cancelling | .completed | .skipped | .failed .. => job
    | .running _ _ startedAt => { job with state := .running made.bytesDone made.bytesTotal startedAt }
    | _ => { job with state := .running made.bytesDone made.bytesTotal now }
  | warning raised => if raised ∈ job.warnings then job else { job with warnings := job.warnings ++ [raised] }
  | event => { job with state := (event.outcome.map Prod.snd).getD job.state }

theorem TransferEvent.job_of_outcome {event : TransferEvent} {transferId : TransferId} {state : TransferState}
    (h : event.outcome = some (transferId, state)) : event.job = some transferId := by
  cases event <;> simp only [outcome, reduceCtorEq, Option.some.injEq, Prod.mk.injEq] at h
  all_goals
    obtain ⟨rfl, _⟩ := h
    rfl

theorem TransferEvent.advance_of_outcome {event : TransferEvent} {transferId : TransferId} {state : TransferState}
    (h : event.outcome = some (transferId, state)) (now : Timestamp) (job : TransferJob) :
    event.advance now job = { job with state := state } := by
  cases event <;> simp only [outcome, reduceCtorEq, Option.some.injEq, Prod.mk.injEq] at h
  all_goals
    obtain ⟨_, rfl⟩ := h
    rfl

def ownEvents (transferId : TransferId) (events : List (TransferEvent × Timestamp)) : List (TransferEvent × Timestamp) :=
  events.filter (fun entry => entry.1.job = some transferId)

def endedIn (events : List (TransferEvent × Timestamp)) (transferId : TransferId) : Bool :=
  events.any (fun entry => entry.1.outcome.any (fun outcome => outcome.1 = transferId))

def failedIn (events : List (TransferEvent × Timestamp)) (transferId : TransferId) : Bool :=
  events.any (fun entry => entry.1.outcome.any (fun outcome => outcome.1 = transferId && outcome.2.isFailed))

namespace TransferStore

variable {s s' : TransferStore} {events : List (TransferEvent × Timestamp)} {event : TransferEvent} {now : Timestamp}
  {transferId : TransferId}

theorem withState_getD (state : TransferState) (job : TransferJob) :
    (withState state job).getD job = { job with state := state } := by
  unfold withState
  split_ifs with same
  · rw [← same]
    rfl
  · rfl

theorem upsertJob_stored (asc : Ascending (fun job => job.id) s.jobs) {job : TransferJob} (known : ¬ s.Lacks job.id) :
    (s.upsertJob job).1.jobs = s.jobs.map (fun other => if other.id = job.id then job else other) := by
  unfold TransferStore.upsertJob
  split
  · rename_i index found
    obtain ⟨old, hi, he⟩ := binarySearch_ok found
    have mapped : s.jobs.map (fun other => if other.id = job.id then job else other) = s.jobs.set index job := by
      apply List.ext_getElem?
      intro i
      rw [List.getElem?_map, List.getElem?_set]
      split_ifs with here inside
      · subst here
        rw [hi, Option.map_some, if_pos he]
      · subst here
        exact absurd (List.getElem?_eq_some_iff.mp hi).1 inside
      · cases hj : s.jobs[i]? with
        | none => rfl
        | some other =>
          have differ : other.id ≠ job.id := by
            intro is
            exact here (key_index_unique (fun job => job.id) asc.nodup hi hj (he.trans is.symm))
          rw [Option.map_some, if_neg differ]
    rw [mapped]
    split_ifs with same
    · obtain ⟨inside, get⟩ := List.getElem?_eq_some_iff.mp same
      rw [← get, List.set_getElem_self]
    · rfl
  · rename_i missing
    exact absurd (binarySearch_error asc.le missing).2 known

theorem applyEvent_advance (asc : Ascending (fun job => job.id) s.jobs) (about : event.job = some transferId)
    (known : ¬ s.Lacks transferId) (goesOn : event.outcome = none) (now : Timestamp) :
    (s.applyEvent event now).1.plans = s.plans ∧ (s.applyEvent event now).1.jobs =
      s.jobs.map (fun job => if job.id = transferId then event.advance now job else job) := by
  cases event with
  | running snapshot =>
    obtain rfl : snapshot.id = transferId := Option.some.inj about
    refine ⟨?_, upsertJob_stored (s := { s with justFinishedPlan := none }) asc known⟩
    show (TransferStore.upsertJob _ snapshot).1.plans = _
    unfold TransferStore.upsertJob
    split
    · split <;> rfl
    · rfl
  | progress made =>
    obtain rfl : made.transferId = transferId := Option.some.inj about
    refine ⟨editJob_plans _ _ _, ?_⟩
    refine (congrArg (fun result => result.1.jobs) (editJob_eq (s := { s with justFinishedPlan := none }) asc _ _)).trans ?_
    apply List.map_congr_left
    intro job _
    simp only [editOf, TransferEvent.advance]
    split_ifs
    · cases state : job.state with
      | cancelling | completed | skipped | failed => rfl
      | running | queued | planning | waitingForConflictDecision => exact withState_getD _ job
    · rfl
  | warning raised =>
    obtain rfl : raised.transferId = transferId := Option.some.inj about
    refine ⟨editJob_plans _ _ _, ?_⟩
    refine (congrArg (fun result => result.1.jobs) (editJob_eq (s := { s with justFinishedPlan := none }) asc _ _)).trans ?_
    apply List.map_congr_left
    intro job _
    simp only [editOf, TransferEvent.advance]
    split_ifs
    · rfl
    · rfl
    · rfl
  | completed | skipped | failed => cases goesOn
  | planStarted | planProgress | planCompleted | planCancelled | planFailed | conflict => cases about

def Closed (events : List (TransferEvent × Timestamp)) (plan : TransferPlan) : Prop :=
  plan.state.isTerminal = false ∧ plan.childJobs ≠ [] ∧ ∀ child ∈ plan.childJobs, endedIn events child = true

instance (events : List (TransferEvent × Timestamp)) (plan : TransferPlan) : Decidable (Closed events plan) :=
  inferInstanceAs (Decidable (_ ∧ _))

/-- The plan after these job-level events, whatever their order. -/
def planAfter (events : List (TransferEvent × Timestamp)) (plan : TransferPlan) : TransferPlan :=
  if Closed events plan then
    { plan with state := if plan.childJobs.any (failedIn events) then .failed finishedWithFailures else .completed }
  else plan

def rootStateAfter (events : List (TransferEvent × Timestamp)) (plan : TransferPlan) : TransferState :=
  if plan.childJobs.any (failedIn events) then .failed finishedWithFailures true else .completed

/-- The row after these job-level events: a root follows its plan's children, every other job its own events. -/
def rowAfter (s : TransferStore) (events : List (TransferEvent × Timestamp)) (job : TransferJob) : TransferJob :=
  match s.plans.find? (fun plan => plan.rootJobId = job.id ∧ plan.childJobs ≠ []) with
  | some plan =>
    if Closed events plan then { job with state := rootStateAfter events plan } else job
  | none => (ownEvents job.id events).foldl (fun job entry => entry.1.advance entry.2 job) job

def Busy (s : TransferStore) (events : List (TransferEvent × Timestamp)) (transferId : TransferId) : Prop :=
  (∃ plan ∈ s.plans, plan.rootJobId = transferId ∧ plan.childJobs ≠ []) ∧ ownEvents transferId events ≠ []

structure Determined (s : TransferStore) (events : List (TransferEvent × Timestamp)) (s' : TransferStore)
    (row : TransferJob → TransferJob) : Prop where
  plans : s'.plans = s.plans.map (planAfter events)
  jobs : s'.jobs = s.jobs.map row
  ids : ∀ job, (row job).id = job.id
  rows : ∀ job ∈ s.jobs, ¬ s.Busy events job.id → row job = s.rowAfter events job
  ended : ∀ plan ∈ s.plans, ∀ job ∈ s.jobs, job.id ∈ plan.childJobs → (row job).state.isTerminal = endedIn events job.id
  failed : ∀ plan ∈ s.plans, ∀ job ∈ s.jobs, job.id ∈ plan.childJobs → (row job).state.isFailed = failedIn events job.id

structure Ready (s : TransferStore) : Prop where
  valid : s.Valid
  stored : ∀ plan ∈ s.plans, ∀ child ∈ plan.childJobs, ∃ job ∈ s.jobs, job.id = child
  open_ : ∀ plan ∈ s.plans, ∀ job ∈ s.jobs, job.id ∈ plan.childJobs → job.state.isTerminal = false

theorem not_failed_of_open {state : TransferState} (h : state.isTerminal = false) : state.isFailed = false := by
  cases state <;> first | rfl | cases h

theorem endedIn_concat (events : List (TransferEvent × Timestamp)) (event : TransferEvent) (now : Timestamp)
    (transferId : TransferId) :
    endedIn (events ++ [(event, now)]) transferId =
      (endedIn events transferId || event.outcome.any (fun outcome => outcome.1 = transferId)) := by
  simp [endedIn]

theorem failedIn_concat (events : List (TransferEvent × Timestamp)) (event : TransferEvent) (now : Timestamp)
    (transferId : TransferId) :
    failedIn (events ++ [(event, now)]) transferId =
      (failedIn events transferId || event.outcome.any (fun outcome => outcome.1 = transferId && outcome.2.isFailed)) := by
  simp [failedIn]

theorem ownEvents_concat (events : List (TransferEvent × Timestamp)) (event : TransferEvent) (now : Timestamp)
    (transferId : TransferId) :
    ownEvents transferId (events ++ [(event, now)]) =
      if event.job = some transferId then ownEvents transferId events ++ [(event, now)] else ownEvents transferId events := by
  simp only [ownEvents, List.filter_append]
  split_ifs with about
  · simp [about]
  · simp [about]

theorem planAfter_id (events : List (TransferEvent × Timestamp)) (plan : TransferPlan) :
    (planAfter events plan).id = plan.id := by
  unfold planAfter
  split <;> rfl

theorem planAfter_shape (events : List (TransferEvent × Timestamp)) (plan : TransferPlan) :
    (planAfter events plan).shape = plan.shape := by
  unfold planAfter
  split <;> rfl

theorem planAfter_congr {first second : List (TransferEvent × Timestamp)} {plan : TransferPlan}
    (ended : ∀ child ∈ plan.childJobs, endedIn first child = endedIn second child)
    (failed : ∀ child ∈ plan.childJobs, failedIn first child = failedIn second child) :
    planAfter first plan = planAfter second plan ∧ (Closed first plan ↔ Closed second plan) ∧
      plan.childJobs.any (failedIn first) = plan.childJobs.any (failedIn second) := by
  have any : plan.childJobs.any (failedIn first) = plan.childJobs.any (failedIn second) := by
    rw [Bool.eq_iff_iff, List.any_eq_true, List.any_eq_true]
    exact exists_congr fun child => and_congr_right fun member => by rw [failed child member]
  have closed : Closed first plan ↔ Closed second plan := by
    unfold Closed
    refine and_congr_right fun _ => and_congr_right fun _ => ?_
    exact forall₂_congr fun child member => by rw [ended child member]
  refine ⟨?_, closed, any⟩
  unfold planAfter
  rw [any]
  simp only [closed]

theorem rowAfter_congr {first second : List (TransferEvent × Timestamp)} {job : TransferJob}
    (own : ownEvents job.id first = ownEvents job.id second)
    (ended : ∀ plan ∈ s.plans, plan.rootJobId = job.id → ∀ child ∈ plan.childJobs, endedIn first child = endedIn second child)
    (failed : ∀ plan ∈ s.plans, plan.rootJobId = job.id →
      ∀ child ∈ plan.childJobs, failedIn first child = failedIn second child) :
    s.rowAfter first job = s.rowAfter second job := by
  unfold rowAfter
  split
  · rename_i plan found
    have member := List.mem_of_find?_eq_some found
    have root := List.find?_some found
    simp only [decide_eq_true_eq] at root
    obtain ⟨_, closed, any⟩ := planAfter_congr (ended plan member root.1) (failed plan member root.1)
    simp only [closed, rootStateAfter, any]
  · rw [own]

theorem advance_id {job : TransferJob} (about : event.job = some job.id) (now : Timestamp) :
    (event.advance now job).id = job.id := by
  cases event with
  | running snapshot => exact Option.some.inj about
  | progress made =>
    simp only [TransferEvent.advance]
    split <;> rfl
  | warning raised =>
    simp only [TransferEvent.advance]
    split <;> rfl
  | completed | skipped | failed => rfl
  | planStarted | planProgress | planCompleted | planCancelled | planFailed | conflict => cases about

theorem advance_open {job : TransferJob} (about : event.job = some transferId) (goesOn : event.outcome = none)
    (calm : ∀ snapshot, event = .running snapshot → snapshot.state.isTerminal = false)
    (open_ : job.state.isTerminal = false) (now : Timestamp) : (event.advance now job).state.isTerminal = false := by
  cases event with
  | running snapshot => exact calm snapshot rfl
  | progress made =>
    simp only [TransferEvent.advance]
    cases state : job.state with
    | completed | skipped | failed => rw [state] at open_; cases open_
    | cancelling => simp only; rw [state]; rfl
    | running | queued | planning | waitingForConflictDecision => rfl
  | warning raised =>
    simp only [TransferEvent.advance]
    split <;> exact open_
  | completed | skipped | failed => cases goesOn
  | planStarted | planProgress | planCompleted | planCancelled | planFailed | conflict => cases about

theorem Busy.concat {entry : TransferEvent × Timestamp} (busy : s.Busy events transferId) :
    s.Busy (events ++ [entry]) transferId := by
  refine ⟨busy.1, ?_⟩
  unfold ownEvents
  rw [List.filter_append]
  exact List.append_ne_nil_of_left_ne_nil busy.2 _

theorem rowAfter_worker {job : TransferJob} (worker : ¬ ∃ plan ∈ s.plans, plan.rootJobId = job.id ∧ plan.childJobs ≠ [])
    (events : List (TransferEvent × Timestamp)) :
    s.rowAfter events job = (ownEvents job.id events).foldl (fun job entry => entry.1.advance entry.2 job) job := by
  have none_ : s.plans.find? (fun plan => plan.rootJobId = job.id ∧ plan.childJobs ≠ []) = none := by
    rw [List.find?_eq_none]
    intro plan hp root
    exact worker ⟨plan, hp, of_decide_eq_true root⟩
  unfold rowAfter
  rw [none_]

theorem rowAfter_root (valid : s.Valid) {plan : TransferPlan} (hp : plan ∈ s.plans) (children : plan.childJobs ≠ [])
    {job : TransferJob} (root : job.id = plan.rootJobId) (events : List (TransferEvent × Timestamp)) :
    s.rowAfter events job = if Closed events plan then { job with state := rootStateAfter events plan } else job := by
  have found : s.plans.find? (fun plan => plan.rootJobId = job.id ∧ plan.childJobs ≠ []) = some plan := by
    cases search : s.plans.find? (fun plan => plan.rootJobId = job.id ∧ plan.childJobs ≠ []) with
    | none =>
      have missed := List.find?_eq_none.mp search plan hp
      exact absurd (decide_eq_true ⟨root.symm, children⟩) missed
    | some other =>
      have holds := List.find?_some search
      simp only [decide_eq_true_eq] at holds
      rw [owner_unique valid (List.mem_of_find?_eq_some search) hp (Or.inl holds.1.symm) (Or.inl root)]
  unfold rowAfter
  rw [found]

theorem rowAfter_concat {job : TransferJob} (idle : ¬ s.Busy (events ++ [(event, now)]) job.id)
    (keep : ∀ plan ∈ s.plans, plan.rootJobId = job.id → plan.childJobs ≠ [] →
      ∀ child ∈ plan.childJobs, endedIn (events ++ [(event, now)]) child = endedIn events child ∧
        failedIn (events ++ [(event, now)]) child = failedIn events child) :
    s.rowAfter (events ++ [(event, now)]) job =
      if event.job = some job.id then event.advance now (s.rowAfter events job) else s.rowAfter events job := by
  by_cases root : ∃ plan ∈ s.plans, plan.rootJobId = job.id ∧ plan.childJobs ≠ []
  · have none_ : ownEvents job.id (events ++ [(event, now)]) = [] := by
      by_contra busy
      exact idle ⟨root, busy⟩
    have about : event.job ≠ some job.id := by
      intro about
      rw [ownEvents_concat, if_pos about] at none_
      simp at none_
    have before : ownEvents job.id events = [] := by
      rw [ownEvents_concat, if_neg about] at none_
      exact none_
    have kept : ∀ plan ∈ s.plans, plan.rootJobId = job.id → ∀ child ∈ plan.childJobs,
        endedIn (events ++ [(event, now)]) child = endedIn events child ∧
          failedIn (events ++ [(event, now)]) child = failedIn events child :=
      fun plan hp is child member => keep plan hp is (List.ne_nil_of_mem member) child member
    rw [if_neg about]
    exact rowAfter_congr (none_.trans before.symm) (fun plan hp is child member => (kept plan hp is child member).1)
      (fun plan hp is child member => (kept plan hp is child member).2)
  · rw [rowAfter_worker root, rowAfter_worker root, ownEvents_concat]
    split_ifs
    · rw [List.foldl_append]
      rfl
    · rfl

theorem Determined.known {row : TransferJob → TransferJob} (h : s.Determined events s' row)
    (stored : ∃ job ∈ s.jobs, job.id = transferId) : ¬ s'.Lacks transferId := by
  obtain ⟨job, hj, rfl⟩ := stored
  intro lacks
  refine lacks (row job) ?_ (h.ids job)
  rw [h.jobs]
  exact List.mem_map_of_mem hj

theorem Determined.advance {row : TransferJob → TransferJob} (h : s.Determined events s' row) (valid : s'.Valid)
    (about : event.job = some transferId) (stored : ∃ job ∈ s.jobs, job.id = transferId) (goesOn : event.outcome = none)
    (calm : ∀ snapshot, event = .running snapshot → snapshot.state.isTerminal = false)
    (fresh : endedIn events transferId = false) :
    s.Determined (events ++ [(event, now)]) (s'.applyEvent event now).1
      (fun job => if job.id = transferId then event.advance now (row job) else row job) := by
  obtain ⟨plans, jobs⟩ := applyEvent_advance valid.jobs about (h.known stored) goesOn now
  have ended : ∀ id, endedIn (events ++ [(event, now)]) id = endedIn events id := by
    intro id
    rw [endedIn_concat, goesOn, Option.any_none, Bool.or_false]
  have failed : ∀ id, failedIn (events ++ [(event, now)]) id = failedIn events id := by
    intro id
    rw [failedIn_concat, goesOn, Option.any_none, Bool.or_false]
  refine ⟨?_, ?_, ?_, ?_, ?_, ?_⟩
  · rw [plans, h.plans]
    exact List.map_congr_left fun plan _ => (planAfter_congr (fun id _ => (ended id).symm) (fun id _ => (failed id).symm)).1
  · rw [jobs, h.jobs, List.map_map]
    apply List.map_congr_left
    intro job _
    simp only [Function.comp_apply, h.ids]
  · intro job
    split_ifs with is
    · rw [advance_id _ now, h.ids]
      rw [h.ids, about, is]
    · exact h.ids job
  · intro job hj idle
    rw [rowAfter_concat idle fun _ _ _ _ child _ => ⟨ended child, failed child⟩,
      ← h.rows job hj fun busy => idle busy.concat, about]
    simp only [Option.some.injEq, eq_comm]
  · intro plan hp job hj child
    rw [ended]
    have before := h.ended plan hp job hj child
    split_ifs with is
    · rw [is, fresh] at before ⊢
      exact advance_open about goesOn calm before now
    · exact before
  · intro plan hp job hj child
    rw [failed]
    have before := h.failed plan hp job hj child
    split_ifs with is
    · have open_ := h.ended plan hp job hj child
      rw [is, fresh] at open_
      rw [not_failed_of_open (advance_open about goesOn calm open_ now), ← before]
      exact (not_failed_of_open open_).symm
    · exact before

theorem childRows_stored (asc : Ascending (fun job => job.id) s.jobs) {plan : TransferPlan}
    (children : Ascending (fun id => id) plan.childJobs)
    (stored : ∀ child ∈ plan.childJobs, ∃ job ∈ s.jobs, job.id = child) :
    s.childRows plan = s.jobs.filter (fun job => job.id ∈ plan.childJobs) ∧
      (s.childRows plan).length = plan.childJobs.length := by
  have rows : s.childRows plan = s.jobs.filter (fun job => job.id ∈ plan.childJobs) := by
    by_cases spans : s.Spans plan
    · rw [childRows_spans asc children spans]
      have sub : List.Sublist (s.span plan) s.jobs := by
        rw [← childRows_spans asc children spans]
        exact childRows_sublist asc children
      apply asc.eq_of_mem_iff sub List.filter_sublist
      intro job
      rw [List.mem_filter, decide_eq_true_eq]
      constructor
      · intro inside
        refine ⟨sub.subset inside, ?_⟩
        by_contra foreign
        obtain ⟨child, member, missing⟩ := child_missing children spans inside foreign
        obtain ⟨row, hr, is⟩ := stored child member
        exact missing row hr is
      · rintro ⟨hj, child⟩
        exact mem_span_of_child children hj child
    · exact childRows_not_spans asc children spans
  refine ⟨rows, ?_⟩
  have nodup : ((s.childRows plan).map (fun job => job.id)).Nodup :=
    asc.nodup.sublist ((childRows_sublist asc children).map _)
  have perm : ((s.childRows plan).map (fun job => job.id)).Perm plan.childJobs := by
    refine (List.perm_ext_iff_of_nodup nodup (children.imp fun hlt => hlt.ne)).mpr ?_
    intro id
    rw [rows, List.mem_map]
    constructor
    · rintro ⟨job, hj, rfl⟩
      exact of_decide_eq_true (List.mem_filter.mp hj).2
    · intro child
      obtain ⟨job, hj, rfl⟩ := stored id child
      exact ⟨job, List.mem_filter.mpr ⟨hj, decide_eq_true child⟩, rfl⟩
  simpa using perm.length_eq

theorem finishes_iff_children (asc : Ascending (fun job => job.id) s.jobs) {plan : TransferPlan}
    (children : Ascending (fun id => id) plan.childJobs)
    (stored : ∀ child ∈ plan.childJobs, ∃ job ∈ s.jobs, job.id = child) :
    s.Finishes plan ↔ plan.state.isTerminal = false ∧
      ∀ job ∈ s.jobs, job.id ∈ plan.childJobs → job.state.isTerminal = true := by
  obtain ⟨rows, count⟩ := childRows_stored asc children stored
  unfold Finishes
  simp only [count, and_true]
  rw [rows]
  refine and_congr_right fun _ => ?_
  constructor
  · intro all job hj child
    exact all job (List.mem_filter.mpr ⟨hj, decide_eq_true child⟩)
  · intro all job hj
    obtain ⟨hj, child⟩ := List.mem_filter.mp hj
    exact all job hj (of_decide_eq_true child)

theorem ended_of_failed (h : endedIn events transferId = false) : failedIn events transferId = false := by
  rw [endedIn, List.any_eq_false] at h
  rw [failedIn, List.any_eq_false]
  intro entry member
  have none_ := h entry member
  cases outcome : entry.1.outcome with
  | none => simp
  | some found =>
    rw [outcome] at none_
    simp only [Option.any_some, decide_eq_true_eq] at none_
    simp [none_]

theorem child_not_root (valid : s.Valid) {plan other : TransferPlan} (hp : plan ∈ s.plans) (ho : other ∈ s.plans)
    {id : TransferId} (member : id ∈ other.childJobs) : id ≠ plan.rootJobId := by
  intro root
  obtain rfl := owner_unique valid hp ho (Or.inl root) (Or.inr member)
  exact valid.plans.root plan hp (root ▸ member)

section Outcome

variable {row : TransferJob → TransferJob} {state : TransferState}

def settledRow (row : TransferJob → TransferJob) (transferId : TransferId) (state : TransferState) (job : TransferJob) :
    TransferJob :=
  if job.id = transferId then { row job with state := state } else row job

theorem settledRow_id (ids : ∀ job, (row job).id = job.id) (job : TransferJob) :
    (settledRow row transferId state job).id = job.id := by
  unfold settledRow
  split_ifs
  · exact ids job
  · exact ids job

theorem Determined.settledBy_jobs (h : s.Determined events s' row) (valid : s'.Valid) (transferId : TransferId)
    (state : TransferState) :
    (s'.settledBy transferId state).jobs = s.jobs.map (settledRow row transferId state) := by
  rw [TransferStore.settledBy_jobs valid.jobs, h.jobs, List.map_map]
  apply List.map_congr_left
  intro job _
  simp only [Function.comp_apply, assign, settledRow, h.ids]

theorem child_of_one (ready : s.Ready) {plan other : TransferPlan} (hp : plan ∈ s.plans)
    (child : transferId ∈ plan.childJobs) (ho : other ∈ s.plans) (differ : other.id ≠ plan.id) :
    transferId ∉ other.childJobs := by
  intro member
  exact ready.valid.plans.apart other ho plan hp differ transferId (Or.inr member) (Or.inr child)

theorem not_closed_of_child (fresh : endedIn events transferId = false) {plan : TransferPlan}
    (child : transferId ∈ plan.childJobs) : ¬ Closed events plan := by
  intro closed
  have ended := closed.2.2 transferId child
  rw [fresh] at ended
  cases ended

theorem planAfter_waiting (fresh : endedIn events transferId = false) {plan : TransferPlan}
    (child : transferId ∈ plan.childJobs) : planAfter events plan = plan := if_neg (not_closed_of_child fresh child)

theorem Determined.settled_root (ready : s.Ready) (h : s.Determined events s' row) (fresh : endedIn events transferId = false)
    {plan : TransferPlan} (hp : plan ∈ s.plans) (child : transferId ∈ plan.childJobs) {job : TransferJob}
    (hj : job ∈ s.jobs) (root : job.id = plan.rootJobId) (idle : ¬ s.Busy (events ++ [(event, now)]) job.id) :
    settledRow row transferId state job = job := by
  have differ : job.id ≠ transferId := by
    intro is
    exact ready.valid.plans.root plan hp (root ▸ is ▸ child)
  rw [settledRow, if_neg differ, h.rows job hj fun busy => idle busy.concat,
    rowAfter_root ready.valid hp (List.ne_nil_of_mem child) root, if_neg (not_closed_of_child fresh child)]

variable (outcome : event.outcome = some (transferId, state))

include outcome

theorem endedIn_outcome (id : TransferId) :
    endedIn (events ++ [(event, now)]) id = (endedIn events id || decide (transferId = id)) := by
  rw [endedIn_concat, outcome, Option.any_some]

theorem failedIn_outcome (id : TransferId) :
    failedIn (events ++ [(event, now)]) id = (failedIn events id || decide (transferId = id) && state.isFailed) := by
  rw [failedIn_concat, outcome, Option.any_some]

theorem unrelated_plan (events : List (TransferEvent × Timestamp)) (now : Timestamp) {plan : TransferPlan}
    (unrelated : transferId ∉ plan.childJobs) :
    (∀ child ∈ plan.childJobs, endedIn (events ++ [(event, now)]) child = endedIn events child) ∧
      ∀ child ∈ plan.childJobs, failedIn (events ++ [(event, now)]) child = failedIn events child := by
  have differ : ∀ child ∈ plan.childJobs, transferId ≠ child := fun child member is => unrelated (is ▸ member)
  constructor
  · intro child member
    simp [endedIn_outcome outcome, differ child member]
  · intro child member
    simp [failedIn_outcome outcome, differ child member]

theorem Determined.settled_children (h : s.Determined events s' row) (fresh : endedIn events transferId = false)
    (now : Timestamp) {plan : TransferPlan} (hp : plan ∈ s.plans) {job : TransferJob} (hj : job ∈ s.jobs)
    (child : job.id ∈ plan.childJobs) :
    (settledRow row transferId state job).state.isTerminal = endedIn (events ++ [(event, now)]) job.id ∧
      (settledRow row transferId state job).state.isFailed = failedIn (events ++ [(event, now)]) job.id := by
  rw [endedIn_outcome outcome, failedIn_outcome outcome]
  unfold settledRow
  by_cases is : job.id = transferId
  · rw [if_pos is, is, fresh, ended_of_failed fresh]
    simp [outcome_terminal outcome]
  · rw [if_neg is, h.ended plan hp job hj child, h.failed plan hp job hj child]
    simp [Ne.symm is]

theorem Determined.settled_row (h : s.Determined events s' row) {job : TransferJob} (hj : job ∈ s.jobs)
    (idle : ¬ s.Busy (events ++ [(event, now)]) job.id)
    (unrelated : ∀ plan ∈ s.plans, plan.rootJobId = job.id → transferId ∉ plan.childJobs) :
    settledRow row transferId state job = s.rowAfter (events ++ [(event, now)]) job := by
  have keep : ∀ plan ∈ s.plans, plan.rootJobId = job.id → plan.childJobs ≠ [] → ∀ child ∈ plan.childJobs,
      endedIn (events ++ [(event, now)]) child = endedIn events child ∧
        failedIn (events ++ [(event, now)]) child = failedIn events child := by
    intro plan hp root _ child member
    obtain ⟨ended, failed⟩ := unrelated_plan outcome events now (unrelated plan hp root)
    exact ⟨ended child member, failed child member⟩
  rw [rowAfter_concat idle keep, ← h.rows job hj fun busy => idle busy.concat, TransferEvent.job_of_outcome outcome]
  unfold settledRow
  by_cases is : job.id = transferId
  · rw [if_pos is, if_pos (congrArg some is.symm), TransferEvent.advance_of_outcome outcome]
  · rw [if_neg is, if_neg fun same => is (Option.some.inj same).symm]

theorem Determined.finishes_iff (ready : s.Ready) (h : s.Determined events s' row) (valid : s'.Valid)
    (fresh : endedIn events transferId = false) (now : Timestamp) {plan : TransferPlan} (hp : plan ∈ s.plans)
    (child : transferId ∈ plan.childJobs) :
    ((s'.settledBy transferId state).Finishes plan ↔ Closed (events ++ [(event, now)]) plan) ∧
      ((s'.settledBy transferId state).childRows plan).any (fun job => job.state.isFailed) =
        plan.childJobs.any (failedIn (events ++ [(event, now)])) := by
  have jobs := h.settledBy_jobs valid transferId state
  have asc := (settledBy_valid valid transferId state).jobs
  have children := ready.valid.plans.ascending plan hp
  have stored : ∀ id ∈ plan.childJobs, ∃ job ∈ (s'.settledBy transferId state).jobs, job.id = id := by
    intro id member
    obtain ⟨job, hj, rfl⟩ := ready.stored plan hp id member
    rw [jobs]
    exact ⟨_, List.mem_map_of_mem hj, settledRow_id h.ids job⟩
  have rows := (childRows_stored asc children stored).1
  constructor
  · rw [finishes_iff_children asc children stored, Closed]
    refine and_congr_right fun _ => ?_
    constructor
    · intro all
      refine ⟨List.ne_nil_of_mem child, ?_⟩
      intro id member
      obtain ⟨job, hj, rfl⟩ := ready.stored plan hp id member
      rw [← (h.settled_children outcome fresh now hp hj member).1]
      apply all
      · rw [jobs]
        exact List.mem_map_of_mem hj
      · rw [settledRow_id h.ids]
        exact member
    · rintro ⟨_, all⟩ row' hr member
      rw [jobs] at hr
      obtain ⟨job, hj, rfl⟩ := List.mem_map.mp hr
      rw [settledRow_id h.ids] at member
      rw [(h.settled_children outcome fresh now hp hj member).1]
      exact all job.id member
  · rw [Bool.eq_iff_iff, List.any_eq_true, List.any_eq_true, rows]
    constructor
    · rintro ⟨row', hr, failed⟩
      obtain ⟨hr, member⟩ := List.mem_filter.mp hr
      rw [jobs] at hr
      obtain ⟨job, hj, rfl⟩ := List.mem_map.mp hr
      rw [decide_eq_true_eq, settledRow_id h.ids] at member
      rw [(h.settled_children outcome fresh now hp hj member).2] at failed
      exact ⟨job.id, member, failed⟩
    · rintro ⟨id, member, failed⟩
      obtain ⟨job, hj, rfl⟩ := ready.stored plan hp id member
      rw [← (h.settled_children outcome fresh now hp hj member).2] at failed
      refine ⟨settledRow row transferId state job, List.mem_filter.mpr ⟨?_, ?_⟩, failed⟩
      · rw [jobs]
        exact List.mem_map_of_mem hj
      · rw [decide_eq_true_eq, settledRow_id h.ids]
        exact member

theorem planAfter_other (ready : s.Ready) (events : List (TransferEvent × Timestamp)) (now : Timestamp)
    {plan other : TransferPlan} (hp : plan ∈ s.plans) (child : transferId ∈ plan.childJobs) (ho : other ∈ s.plans)
    (differ : other.id ≠ plan.id) : planAfter (events ++ [(event, now)]) other = planAfter events other := by
  obtain ⟨ended, failed⟩ := unrelated_plan outcome events now (child_of_one ready hp child ho differ)
  exact (planAfter_congr ended failed).1

theorem Determined.settled_row_other (ready : s.Ready) (h : s.Determined events s' row) {plan : TransferPlan}
    (hp : plan ∈ s.plans) (child : transferId ∈ plan.childJobs) {job : TransferJob} (hj : job ∈ s.jobs)
    (idle : ¬ s.Busy (events ++ [(event, now)]) job.id) (differ : job.id ≠ plan.rootJobId) :
    settledRow row transferId state job = s.rowAfter (events ++ [(event, now)]) job := by
  refine h.settled_row outcome hj idle ?_
  intro other ho root
  refine child_of_one ready hp child ho fun same => differ ?_
  rw [← root, key_unique (fun plan => plan.id) ready.valid.plans.ids ho hp same]

theorem Determined.finish_orphan (h : s.Determined events s' row) (valid : s'.Valid)
    (fresh : endedIn events transferId = false) (now : Timestamp)
    (orphan : ∀ plan ∈ s.plans, transferId ∉ plan.childJobs) :
    s.Determined (events ++ [(event, now)]) (s'.applyEvent event now).1 (settledRow row transferId state) := by
  have noChild : ∀ plan ∈ (s'.settledBy transferId state).plans, transferId ∉ plan.childJobs := by
    intro plan hp
    rw [settledBy_plans, h.plans] at hp
    obtain ⟨before, hb, rfl⟩ := List.mem_map.mp hp
    have same := planAfter_shape events before
    simp only [TransferPlan.shape, Prod.mk.injEq] at same
    rw [same.2.2]
    exact orphan before hb
  obtain ⟨samePlans, sameJobs⟩ := finalizePlanForJob_no_child noChild
  rw [applyEvent_outcome outcome]
  refine ⟨?_, sameJobs.trans (h.settledBy_jobs valid transferId state), settledRow_id h.ids, ?_, ?_, ?_⟩
  · rw [samePlans, settledBy_plans, h.plans]
    apply List.map_congr_left
    intro plan hp
    obtain ⟨ended, failed⟩ := unrelated_plan outcome events now (orphan plan hp)
    exact (planAfter_congr (fun id hid => (ended id hid).symm) fun id hid => (failed id hid).symm).1
  · intro job hj idle
    exact h.settled_row outcome hj idle fun plan hp _ => orphan plan hp
  · exact fun plan hp job hj child => (h.settled_children outcome fresh now hp hj child).1
  · exact fun plan hp job hj child => (h.settled_children outcome fresh now hp hj child).2

theorem Determined.applyEvent_child (h : s.Determined events s' row) (valid : s'.Valid)
    (fresh : endedIn events transferId = false) (now : Timestamp) {plan : TransferPlan} (hp : plan ∈ s.plans)
    (child : transferId ∈ plan.childJobs) :
    ∃ planIndex, (s'.settledBy transferId state).plans[planIndex]? = some plan ∧
      (s'.applyEvent event now).1 = ((s'.settledBy transferId state).finalizePlan planIndex plan).1 := by
  have hp' : plan ∈ (s'.settledBy transferId state).plans := by
    rw [settledBy_plans, h.plans]
    exact List.mem_map.mpr ⟨plan, hp, planAfter_waiting fresh child⟩
  obtain ⟨planIndex, get, final⟩ := finalizePlanForJob_child (settledBy_valid valid transferId state) hp' child
  exact ⟨planIndex, get, by rw [applyEvent_outcome outcome, final]⟩

theorem Determined.finish_waiting (ready : s.Ready) (h : s.Determined events s' row) (valid : s'.Valid)
    (fresh : endedIn events transferId = false) (now : Timestamp) {plan : TransferPlan} (hp : plan ∈ s.plans)
    (child : transferId ∈ plan.childJobs) (open_ : ¬ Closed (events ++ [(event, now)]) plan) :
    s.Determined (events ++ [(event, now)]) (s'.applyEvent event now).1 (settledRow row transferId state) := by
  obtain ⟨planIndex, get, final⟩ := h.applyEvent_child outcome valid fresh now hp child
  obtain ⟨finishes, _⟩ := h.finishes_iff outcome ready valid fresh now hp child
  rw [final, finalizePlan_quiet planIndex fun done => open_ (finishes.mp done)]
  refine ⟨?_, h.settledBy_jobs valid transferId state, settledRow_id h.ids, ?_, ?_, ?_⟩
  · rw [settledBy_plans, h.plans]
    apply List.map_congr_left
    intro other ho
    by_cases is : other.id = plan.id
    · rw [key_unique (fun plan => plan.id) ready.valid.plans.ids ho hp is, planAfter_waiting fresh child, planAfter,
        if_neg open_]
    · exact (planAfter_other outcome ready events now hp child ho is).symm
  · intro job hj idle
    by_cases root : job.id = plan.rootJobId
    · rw [h.settled_root ready fresh hp child hj root idle,
        rowAfter_root ready.valid hp (List.ne_nil_of_mem child) root, if_neg open_]
    · exact h.settled_row_other outcome ready hp child hj idle root
  · exact fun other ho job hj member => (h.settled_children outcome fresh now ho hj member).1
  · exact fun other ho job hj member => (h.settled_children outcome fresh now ho hj member).2

-- The last child to end also ends the plan and its root's row.
theorem Determined.finish_closed (ready : s.Ready) (h : s.Determined events s' row) (valid : s'.Valid)
    (fresh : endedIn events transferId = false) (now : Timestamp) {plan : TransferPlan} (hp : plan ∈ s.plans)
    (child : transferId ∈ plan.childJobs) (closed : Closed (events ++ [(event, now)]) plan) :
    s.Determined (events ++ [(event, now)]) (s'.applyEvent event now).1 fun job => if job.id = plan.rootJobId then
      { settledRow row transferId state job with state := rootStateAfter (events ++ [(event, now)]) plan }
      else settledRow row transferId state job := by
  have valid' := settledBy_valid valid transferId state
  obtain ⟨planIndex, get, final⟩ := h.applyEvent_child outcome valid fresh now hp child
  obtain ⟨finishes, failed⟩ := h.finishes_iff outcome ready valid fresh now hp child
  rw [final, finalizePlan_of_finishes planIndex (finishes.mpr closed), failed]
  refine ⟨?_, ?_, ?_, ?_, ?_, ?_⟩
  · refine (modify_eq_map valid'.plans.ids get _).trans ?_
    rw [settledBy_plans, h.plans, List.map_map]
    apply List.map_congr_left
    intro other ho
    simp only [Function.comp_apply, planAfter_id]
    by_cases is : other.id = plan.id
    · rw [key_unique (fun plan => plan.id) ready.valid.plans.ids ho hp is, if_pos rfl, planAfter_waiting fresh child,
        planAfter, if_pos closed]
    · rw [if_neg is, planAfter_other outcome ready events now hp child ho is]
  · refine (finishPlan_jobs valid' planIndex plan _).trans ?_
    rw [h.settledBy_jobs valid transferId state, List.map_map]
    apply List.map_congr_left
    intro job _
    simp only [Function.comp_apply, settledRow_id h.ids]
    rfl
  · intro job
    split_ifs
    · exact settledRow_id h.ids job
    · exact settledRow_id h.ids job
  · intro job hj idle
    by_cases root : job.id = plan.rootJobId
    · rw [if_pos root, h.settled_root ready fresh hp child hj root idle,
        rowAfter_root ready.valid hp (List.ne_nil_of_mem child) root, if_pos closed]
    · rw [if_neg root]
      exact h.settled_row_other outcome ready hp child hj idle root
  · intro other ho job hj member
    rw [if_neg (child_not_root ready.valid hp ho member)]
    exact (h.settled_children outcome fresh now ho hj member).1
  · intro other ho job hj member
    rw [if_neg (child_not_root ready.valid hp ho member)]
    exact (h.settled_children outcome fresh now ho hj member).2

theorem Determined.finish (ready : s.Ready) (h : s.Determined events s' row) (valid : s'.Valid)
    (fresh : endedIn events transferId = false) (now : Timestamp) :
    ∃ row, s.Determined (events ++ [(event, now)]) (s'.applyEvent event now).1 row := by
  by_cases owned : ∃ plan ∈ s.plans, transferId ∈ plan.childJobs
  · obtain ⟨plan, hp, child⟩ := owned
    by_cases closed : Closed (events ++ [(event, now)]) plan
    · exact ⟨_, h.finish_closed outcome ready valid fresh now hp child closed⟩
    · exact ⟨_, h.finish_waiting outcome ready valid fresh now hp child closed⟩
  · push Not at owned
    exact ⟨_, h.finish_orphan outcome valid fresh now owned⟩

end Outcome

theorem reduce_concat (s : TransferStore) (events : List (TransferEvent × Timestamp)) (entry : TransferEvent × Timestamp) :
    s.reduce (events ++ [entry]) = ((s.reduce events).applyEvent entry.1 entry.2).1 := by
  simp [reduce]

theorem legal_of_job (about : event.job = some transferId) (now : Timestamp) :
    (StoreOp.applyEvent event now).Legal s := by
  cases event with
  | planStarted | planProgress => cases about
  | planCompleted | planCancelled | planFailed | conflict | running | progress | warning | completed | skipped
  | failed => trivial

/-- What each job goes through: only the last of its events may be an outcome, and a job reported as running has
not ended. -/
structure JobSequences (sequence : TransferId → List (TransferEvent × Timestamp)) : Prop where
  last : ∀ transferId, ∀ entry ∈ (sequence transferId).dropLast, entry.1.outcome = none
  running : ∀ transferId, ∀ entry ∈ sequence transferId, ∀ snapshot, entry.1 = .running snapshot →
    snapshot.state.isTerminal = false

/-- The events are an interleaving of what the stored jobs go through. -/
structure Interleaves (s : TransferStore) (sequence : TransferId → List (TransferEvent × Timestamp))
    (events : List (TransferEvent × Timestamp)) : Prop where
  own : ∀ transferId, ownEvents transferId events = sequence transferId
  stored : ∀ entry ∈ events, ∃ job ∈ s.jobs, entry.1.job = some job.id

theorem not_ended_of_own (none_ : ∀ entry ∈ ownEvents transferId events, entry.1.outcome = none) :
    endedIn events transferId = false := by
  rw [endedIn, List.any_eq_false]
  intro entry member
  cases outcome : entry.1.outcome with
  | none => simp
  | some found =>
    obtain ⟨id, state⟩ := found
    simp only [Option.any_some, decide_eq_true_eq]
    rintro rfl
    have own : entry ∈ ownEvents id events :=
      List.mem_filter.mpr ⟨member, decide_eq_true (TransferEvent.job_of_outcome outcome)⟩
    rw [none_ entry own] at outcome
    cases outcome

theorem not_closed_nil (plan : TransferPlan) : ¬ Closed [] plan := by
  intro closed
  obtain ⟨child, rest, is⟩ := List.exists_cons_of_ne_nil closed.2.1
  have ended := closed.2.2 child (is ▸ List.mem_cons_self)
  cases ended

theorem reduce_determined (ready : s.Ready) {events : List (TransferEvent × Timestamp)}
    (sequences : JobSequences (fun transferId => ownEvents transferId events))
    (stored : ∀ entry ∈ events, ∃ job ∈ s.jobs, entry.1.job = some job.id) :
    (s.reduce events).Valid ∧ ∃ row, s.Determined events (s.reduce events) row := by
  induction events using List.reverseRecOn with
  | nil =>
    refine ⟨ready.valid, id, ?_, by simp [reduce], fun _ => rfl, ?_, ?_, ?_⟩
    · have same : planAfter [] = id := by
        funext plan
        exact if_neg (not_closed_nil plan)
      simp [reduce, same]
    · intro job _ _
      unfold rowAfter
      split
      · rename_i plan _
        rw [if_neg (not_closed_nil plan)]
        rfl
      · rfl
    · exact fun plan hp job hj child => ready.open_ plan hp job hj child
    · exact fun plan hp job hj child => not_failed_of_open (ready.open_ plan hp job hj child)
  | append_singleton events entry ih =>
    obtain ⟨event, now⟩ := entry
    obtain ⟨job, hj, about⟩ := stored (event, now) (List.mem_append_right _ (List.mem_singleton_self _))
    have whole : ownEvents job.id (events ++ [(event, now)]) = ownEvents job.id events ++ [(event, now)] := by
      rw [ownEvents_concat, if_pos about]
    have none_ : ∀ entry ∈ ownEvents job.id events, entry.1.outcome = none := by
      intro entry member
      have last := sequences.last job.id entry
      simp only [whole, List.dropLast_concat] at last
      exact last member
    have before : JobSequences (fun transferId => ownEvents transferId events) := by
      constructor
      · intro transferId entry member
        by_cases same : event.job = some transferId
        · rw [about] at same
          rw [← Option.some.inj same] at member
          exact none_ entry ((List.dropLast_sublist _).subset member)
        · have last := sequences.last transferId entry
          simp only [ownEvents_concat, if_neg same] at last
          exact last member
      · intro transferId entry member
        refine sequences.running transferId entry ?_
        exact ((List.sublist_append_left _ _).filter _).subset member
    obtain ⟨valid, row, determined⟩ := ih before fun entry member => stored entry (List.mem_append_left _ member)
    have fresh := not_ended_of_own none_
    rw [reduce_concat]
    refine ⟨applyEvent_valid valid (legal_of_job about now), ?_⟩
    cases outcome : event.outcome with
    | none =>
      refine ⟨_, determined.advance valid about ⟨job, hj, rfl⟩ outcome ?_ fresh⟩
      intro snapshot is
      refine sequences.running job.id (event, now) ?_ snapshot is
      rw [whole]
      exact List.mem_append_right _ (List.mem_singleton_self _)
    | some found =>
      obtain ⟨id, state⟩ := found
      have same := TransferEvent.job_of_outcome outcome
      rw [about] at same
      obtain rfl := Option.some.inj same
      exact determined.finish outcome ready valid fresh now

theorem Planned.ready (planned : s.Planned) : s.Ready := by
  refine ⟨planned.valid, planned.stored, ?_⟩
  intro plan hp job hj child
  cases terminal : job.state.isTerminal with
  | false => rfl
  | true =>
    obtain ⟨other, ho, root⟩ := planned.ended job hj terminal
    exact absurd root (child_not_root planned.valid ho hp child)

theorem endedIn_own (events : List (TransferEvent × Timestamp)) (transferId : TransferId) :
    endedIn (ownEvents transferId events) transferId = endedIn events transferId := by
  unfold endedIn ownEvents
  rw [List.any_filter]
  congr 1
  funext entry
  cases outcome : entry.1.outcome with
  | none => simp
  | some found =>
    obtain ⟨id, state⟩ := found
    rw [TransferEvent.job_of_outcome outcome]
    simp

theorem failedIn_own (events : List (TransferEvent × Timestamp)) (transferId : TransferId) :
    failedIn (ownEvents transferId events) transferId = failedIn events transferId := by
  unfold failedIn ownEvents
  rw [List.any_filter]
  congr 1
  funext entry
  cases outcome : entry.1.outcome with
  | none => simp
  | some found =>
    obtain ⟨id, state⟩ := found
    rw [TransferEvent.job_of_outcome outcome]
    by_cases is : id = transferId
    · simp [is]
    · simp [is]

/-- A plan that was planned to completion and whose children all ended is failed if one of them failed, and
completed otherwise. -/
def EndsAsChildren (sequence : TransferId → List (TransferEvent × Timestamp)) (s : TransferStore) (plan : TransferPlan) :
    Prop :=
  if ∃ child ∈ plan.childJobs, failedIn (sequence child) child = true then
    s.planState plan.id = some (.failed finishedWithFailures)
  else s.planState plan.id = some .completed

section

variable {sequence : TransferId → List (TransferEvent × Timestamp)} {first second : List (TransferEvent × Timestamp)}

theorem Interleaves.determined (ready : s.Ready) (sequences : JobSequences sequence) (h : s.Interleaves sequence events) :
    (s.reduce events).Valid ∧ ∃ row, s.Determined events (s.reduce events) row := by
  have own : (fun transferId => ownEvents transferId events) = sequence := funext h.own
  exact reduce_determined ready (own ▸ sequences) h.stored

theorem Interleaves.ended (h : s.Interleaves sequence events) (transferId : TransferId) :
    endedIn events transferId = endedIn (sequence transferId) transferId := by
  rw [← h.own transferId, endedIn_own]

theorem Interleaves.failed (h : s.Interleaves sequence events) (transferId : TransferId) :
    failedIn events transferId = failedIn (sequence transferId) transferId := by
  rw [← h.own transferId, failedIn_own]

theorem Interleaves.same_plans (ready : s.Ready) (sequences : JobSequences sequence) (one : s.Interleaves sequence first)
    (two : s.Interleaves sequence second) : (s.reduce first).plans = (s.reduce second).plans := by
  obtain ⟨_, _, first'⟩ := one.determined ready sequences
  obtain ⟨_, _, second'⟩ := two.determined ready sequences
  rw [first'.plans, second'.plans]
  apply List.map_congr_left
  intro plan _
  exact (planAfter_congr (fun child _ => (one.ended child).trans (two.ended child).symm)
    fun child _ => (one.failed child).trans (two.failed child).symm).1

theorem Interleaves.same_row (one : s.Interleaves sequence first) (two : s.Interleaves sequence second)
    {row row' : TransferJob → TransferJob} (first' : s.Determined first (s.reduce first) row)
    (second' : s.Determined second (s.reduce second) row') {job : TransferJob} (hj : job ∈ s.jobs)
    (idle : (∃ plan ∈ s.plans, plan.rootJobId = job.id ∧ plan.childJobs ≠ []) → sequence job.id = []) :
    row job = row' job := by
  have calm : ∀ events, s.Interleaves sequence events → ¬ s.Busy events job.id := by
    intro events h busy
    exact busy.2 ((h.own job.id).trans (idle busy.1))
  rw [first'.rows job hj (calm first one), second'.rows job hj (calm second two)]
  apply rowAfter_congr
  · exact (one.own job.id).trans (two.own job.id).symm
  · exact fun _ _ _ child _ => (one.ended child).trans (two.ended child).symm
  · exact fun _ _ _ child _ => (one.failed child).trans (two.failed child).symm

theorem Interleaves.same_job (ready : s.Ready) (sequences : JobSequences sequence) (one : s.Interleaves sequence first)
    (two : s.Interleaves sequence second) {transferId : TransferId}
    (idle : (∃ plan ∈ s.plans, plan.rootJobId = transferId ∧ plan.childJobs ≠ []) → sequence transferId = []) :
    (s.reduce first).findJob transferId = (s.reduce second).findJob transferId := by
  obtain ⟨_, _, first'⟩ := one.determined ready sequences
  obtain ⟨_, _, second'⟩ := two.determined ready sequences
  rw [findJob_map ready.valid.jobs first'.ids first'.jobs, findJob_map ready.valid.jobs second'.ids second'.jobs]
  cases found : s.findJob transferId with
  | none => rfl
  | some job =>
    obtain ⟨hj, rfl⟩ := (findJob_iff ready.valid.jobs).mp found
    rw [Option.map_some, Option.map_some, one.same_row two first' second' hj idle]

theorem Interleaves.same_jobs (ready : s.Ready) (sequences : JobSequences sequence) (one : s.Interleaves sequence first)
    (two : s.Interleaves sequence second)
    (idle : ∀ plan ∈ s.plans, plan.childJobs ≠ [] → sequence plan.rootJobId = []) :
    (s.reduce first).jobs = (s.reduce second).jobs := by
  obtain ⟨_, _, first'⟩ := one.determined ready sequences
  obtain ⟨_, _, second'⟩ := two.determined ready sequences
  rw [first'.jobs, second'.jobs]
  apply List.map_congr_left
  intro job hj
  apply one.same_row two first' second' hj
  rintro ⟨plan, hp, root, children⟩
  exact root ▸ idle plan hp children

theorem Interleaves.ends (planned : s.Planned) (sequences : JobSequences sequence) (h : s.Interleaves sequence events)
    {plan : TransferPlan} (hp : plan ∈ s.plans) (done : plan.state ≠ .planning)
    (all : ∀ child ∈ plan.childJobs, endedIn (sequence child) child = true) :
    EndsAsChildren sequence (s.reduce events) plan := by
  obtain ⟨valid, _, determined⟩ := h.determined planned.ready sequences
  have member : planAfter events plan ∈ (s.reduce events).plans := by
    rw [determined.plans]
    exact List.mem_map_of_mem hp
  have state := planState_of_mem valid.plans.ids member
  rw [planAfter_id] at state
  have any : plan.childJobs.any (failedIn events) = true ↔ ∃ child ∈ plan.childJobs, failedIn (sequence child) child = true := by
    rw [List.any_eq_true]
    exact exists_congr fun child => and_congr_right fun _ => by rw [h.failed child]
  unfold EndsAsChildren
  rw [state]
  rcases planned.phased plan hp with planning | ⟨queued, some_⟩ | ⟨completed, empty⟩
  · exact absurd planning done
  · have closed : Closed events plan := by
      refine ⟨?_, some_, ?_⟩
      · rw [queued]
        rfl
      · intro child member
        rw [h.ended child]
        exact all child member
    rw [planAfter, if_pos closed]
    by_cases failed : ∃ child ∈ plan.childJobs, failedIn (sequence child) child = true
    · rw [if_pos failed, if_pos (any.mpr failed)]
    · rw [if_neg failed, if_neg fun h => failed (any.mp h)]
  · have open_ : ¬ Closed events plan := fun closed => closed.2.1 empty
    rw [planAfter, if_neg open_, empty, completed]
    simp

end

theorem interleavings_agree (ops : List StoreOp)
    (planning : machine.Admissible (fun s op => op.Legal s ∧ op.Plans) {} ops)
    (sequence : TransferId → List (TransferEvent × Timestamp)) (sequences : JobSequences sequence)
    (first second : List (TransferEvent × Timestamp)) (one : (machine.run {} ops).Interleaves sequence first)
    (two : (machine.run {} ops).Interleaves sequence second) :
    let s := machine.run {} ops
    (s.reduce first).plans = (s.reduce second).plans ∧
      (∀ transferId, ((∃ plan ∈ s.plans, plan.rootJobId = transferId ∧ plan.childJobs ≠ []) → sequence transferId = []) →
        (s.reduce first).findJob transferId = (s.reduce second).findJob transferId) ∧
      ((∀ plan ∈ s.plans, plan.childJobs ≠ [] → sequence plan.rootJobId = []) →
        (s.reduce first).jobs = (s.reduce second).jobs) ∧
      ∀ plan ∈ s.plans, plan.state ≠ .planning → (∀ child ∈ plan.childJobs, endedIn (sequence child) child = true) →
        EndsAsChildren sequence (s.reduce first) plan := by
  intro s
  have planned := reachable_planned planning
  refine ⟨one.same_plans planned.ready sequences two, ?_, ?_, ?_⟩
  · exact fun transferId idle => one.same_job planned.ready sequences two idle
  · exact one.same_jobs planned.ready sequences two
  · exact fun plan hp done all => one.ends planned sequences hp done all

def plannedRun : List StoreOp := interleavedPlans ++ sampleEvents [.planCompleted ⟨1⟩, .planCompleted ⟨2⟩]

/-- Job 3 runs and completes, job 4 fails, the jobs 5 and 6 are skipped. -/
def jobReports : List (TransferEvent × Timestamp) :=
  [(.running { sampleJob 3 with state := .running 0 none ⟨1⟩ }, ⟨1⟩), (.completed ⟨3⟩, ⟨2⟩),
    (.failed ⟨⟨4⟩, finishedWithFailures⟩, ⟨3⟩), (.skipped ⟨5⟩, ⟨4⟩), (.skipped ⟨6⟩, ⟨5⟩)]

def reordered : List (TransferEvent × Timestamp) :=
  [(.skipped ⟨6⟩, ⟨5⟩), (.running { sampleJob 3 with state := .running 0 none ⟨1⟩ }, ⟨1⟩),
    (.failed ⟨⟨4⟩, finishedWithFailures⟩, ⟨3⟩), (.skipped ⟨5⟩, ⟨4⟩), (.completed ⟨3⟩, ⟨2⟩)]

theorem jobReports_own (transferId : TransferId) :
    transferId ∈ [⟨3⟩, ⟨4⟩, ⟨5⟩, ⟨6⟩] ∨ ownEvents transferId jobReports = [] ∧ ownEvents transferId reordered = [] := by
  by_cases known : transferId ∈ [⟨3⟩, ⟨4⟩, ⟨5⟩, ⟨6⟩]
  · exact Or.inl known
  · simp only [List.mem_cons, List.not_mem_nil, or_false, not_or] at known
    obtain ⟨h3, h4, h5, h6⟩ := known
    refine Or.inr ⟨?_, ?_⟩
    · simp [ownEvents, jobReports, TransferEvent.job, sampleJob, Ne.symm h3, Ne.symm h4, Ne.symm h5, Ne.symm h6]
    · simp [ownEvents, reordered, TransferEvent.job, sampleJob, Ne.symm h3, Ne.symm h4, Ne.symm h5, Ne.symm h6]

theorem interleavings_agree_reordered :
    ((machine.run {} plannedRun).reduce jobReports).plans = ((machine.run {} plannedRun).reduce reordered).plans ∧
      ((machine.run {} plannedRun).reduce jobReports).jobs = ((machine.run {} plannedRun).reduce reordered).jobs := by
  have own : ∀ transferId, ownEvents transferId reordered = ownEvents transferId jobReports := by
    intro transferId
    rcases jobReports_own transferId with known | ⟨one, two⟩
    · revert transferId
      decide
    · rw [one, two]
  have sequences : JobSequences (fun transferId => ownEvents transferId jobReports) := by
    constructor
    · intro transferId
      rcases jobReports_own transferId with known | ⟨none_, _⟩
      · revert transferId
        decide
      · rw [none_]
        simp
    · intro transferId entry member
      have listed : entry ∈ jobReports := List.mem_of_mem_filter member
      intro snapshot is
      have all : ∀ entry ∈ jobReports, ∀ job ∈ entry.1.announced, job.state.isTerminal = false := by decide
      exact all entry listed snapshot (is ▸ List.mem_singleton_self _)
  obtain ⟨plans, _, jobs, _⟩ := interleavings_agree plannedRun (by decide) _ sequences jobReports reordered
    ⟨fun _ => rfl, by decide⟩ ⟨own, by decide⟩
  exact ⟨plans, jobs (by decide)⟩

def singleChildRun : List StoreOp := sampleEvents
  [.planStarted ⟨samplePlan 1 1 [], sampleJob 1⟩, .planProgress ⟨⟨1⟩, [sampleJob 2], 1, some 0⟩, .planCompleted ⟨1⟩]

def rootReport : TransferEvent × Timestamp := (.completed ⟨1⟩, ⟨1⟩)

def childReport : TransferEvent × Timestamp := (.failed ⟨⟨2⟩, finishedWithFailures⟩, ⟨2⟩)

theorem single_reports (transferId : TransferId) :
    ownEvents transferId [childReport, rootReport] = ownEvents transferId [rootReport, childReport] ∧
      (ownEvents transferId [rootReport, childReport]).dropLast = [] := by
  by_cases first : transferId = ⟨1⟩
  · subst first
    decide
  · by_cases second : transferId = ⟨2⟩
    · subst second
      decide
    · simp [ownEvents, rootReport, childReport, TransferEvent.job, Ne.symm first, Ne.symm second]

/-- A root that reports for itself, before and after its plan's only child. -/
theorem root_report_order_matters :
    machine.Admissible (fun s op => op.Legal s ∧ op.Plans) {} singleChildRun ∧
      JobSequences (fun transferId => ownEvents transferId [rootReport, childReport]) ∧
      (machine.run {} singleChildRun).Interleaves (fun transferId => ownEvents transferId [rootReport, childReport])
        [rootReport, childReport] ∧
      (machine.run {} singleChildRun).Interleaves (fun transferId => ownEvents transferId [rootReport, childReport])
        [childReport, rootReport] ∧
      ((machine.run {} singleChildRun).reduce [rootReport, childReport]).jobs ≠
        ((machine.run {} singleChildRun).reduce [childReport, rootReport]).jobs := by
  refine ⟨by decide, ⟨?_, ?_⟩, ⟨fun _ => rfl, by decide⟩, ⟨fun id => (single_reports id).1, by decide⟩, by decide⟩
  · intro transferId entry member
    rw [(single_reports transferId).2] at member
    cases member
  · intro transferId entry member snapshot is
    have listed : entry ∈ [rootReport, childReport] := List.mem_of_mem_filter member
    rcases List.mem_pair.mp listed with rfl | rfl <;> cases is

end TransferStore

end MacSftp
