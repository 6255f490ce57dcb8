import MacSftp.Transfer.PlanOutcome

namespace MacSftp

open Lib

/-- The job a terminal job event is about, and the state it gives the job. -/
def TransferEvent.outcome : TransferEvent → Option (TransferId × TransferState)
  | completed transferId => some (transferId, .completed)
  | skipped transferId => some (transferId, .skipped)
  | failed failure => some (failure.transferId, .failed failure.error failure.error.retryable)
  | _ => none

namespace TransferStore

variable {s : TransferStore}

theorem countFinished_some {jobs : List TransferJob} {finished : Nat} {anyFailed : Bool} {result : Nat × Bool} :
    countFinished finished anyFailed jobs = some result ↔
      (∀ job ∈ jobs, job.state.isTerminal = true) ∧
        result = (finished + jobs.length, anyFailed || jobs.any (fun job => job.state.isFailed)) := by
  induction jobs generalizing finished anyFailed with
  | nil =>
    simp only [countFinished, Option.some.injEq, List.not_mem_nil, IsEmpty.forall_iff, implies_true, true_and,
      List.length_nil, Nat.add_zero, List.any_nil, Bool.or_false]
    exact eq_comm
  | cons job rest ih =>
    have shift : finished + 1 + rest.length = finished + (rest.length + 1) := by omega
    cases hs : job.state <;>
      simp [countFinished, hs, ih, TransferState.isTerminal, TransferState.isFailed, shift]

theorem childRows_spans (asc : Ascending (fun job => job.id) s.jobs) {plan : TransferPlan}
    (children : Ascending (fun id => id) plan.childJobs) (spans : s.Spans plan) : s.childRows plan = s.span plan := by
  obtain ⟨⟨lo, hi⟩, range⟩ := Option.isSome_iff_exists.mp ((childJobsSliceRange_isSome asc children).mpr spans)
  obtain ⟨_, _, _, _, _, _, _, same, _⟩ := childJobsSliceRange_some asc range
  simp only [childRows, range, same]

theorem childRows_not_spans (asc : Ascending (fun job => job.id) s.jobs) {plan : TransferPlan}
    (children : Ascending (fun id => id) plan.childJobs) (spans : ¬ s.Spans plan) :
    s.childRows plan = s.jobs.filter (fun job => job.id ∈ plan.childJobs) := by
  have range : s.childJobsSliceRange plan = none := by
    rw [← Option.not_isSome_iff_eq_none, childJobsSliceRange_isSome asc children]
    exact spans
  simp only [childRows, range]
  apply List.filter_congr
  intro job _
  rw [Bool.eq_iff_iff, IdMatcher.contains_new, decide_eq_true_eq]

theorem childRows_sublist (asc : Ascending (fun job => job.id) s.jobs) {plan : TransferPlan}
    (children : Ascending (fun id => id) plan.childJobs) : List.Sublist (s.childRows plan) s.jobs := by
  by_cases spans : s.Spans plan
  · rw [childRows_spans asc children spans]
    unfold span
    split
    · exact List.filter_sublist
    · exact List.nil_sublist _
  · rw [childRows_not_spans asc children spans]
    exact List.filter_sublist

theorem children_have_rows (asc : Ascending (fun job => job.id) s.jobs) {plan : TransferPlan}
    (children : Ascending (fun id => id) plan.childJobs) (count : (s.childRows plan).length = plan.childJobs.length)
    (own : ∀ job ∈ s.childRows plan, job.id ∈ plan.childJobs) :
    ∀ id ∈ plan.childJobs, ∃ job ∈ s.childRows plan, job.id = id := by
  have nodup : ((s.childRows plan).map (fun job => job.id)).Nodup :=
    asc.nodup.sublist ((childRows_sublist asc children).map _)
  have sub : (s.childRows plan).map (fun job => job.id) ⊆ plan.childJobs := by
    intro id hid
    obtain ⟨job, hj, rfl⟩ := List.mem_map.mp hid
    exact own job hj
  intro id hid
  have hm := nodup_subset_of_length_le nodup sub (by simp [count]) hid
  exact List.mem_map.mp hm

theorem child_missing {plan : TransferPlan} (children : Ascending (fun id => id) plan.childJobs)
    (spans : s.Spans plan) {job : TransferJob} (hj : job ∈ s.span plan) (foreign : job.id ∉ plan.childJobs) :
    ∃ id ∈ plan.childJobs, ∀ other ∈ s.jobs, other.id ≠ id := by
  by_contra full
  push Not at full
  have sub : plan.childJobs ⊆ (s.span plan).map (fun job => job.id) := by
    intro id hid
    obtain ⟨other, ho, rfl⟩ := full id hid
    exact List.mem_map_of_mem (mem_span_of_child children ho hid)
  have nodup : plan.childJobs.Nodup := children.imp fun hlt => hlt.ne
  have back := nodup_subset_of_length_le nodup sub (by simp [spans.2.2])
  exact foreign (back (List.mem_map_of_mem hj))

def Finishes (s : TransferStore) (plan : TransferPlan) : Prop :=
  plan.state.isTerminal = false ∧ (∀ job ∈ s.childRows plan, job.state.isTerminal = true) ∧
    (s.childRows plan).length = plan.childJobs.length

theorem finalizePlan_of_finishes {plan : TransferPlan} (planIndex : Nat) (h : s.Finishes plan) :
    (s.finalizePlan planIndex plan).1 =
      s.finishPlan planIndex plan ((s.childRows plan).any (fun job => job.state.isFailed)) := by
  obtain ⟨open_, terminal, count⟩ := h
  have counted : countFinished 0 false (s.childRows plan).reverse =
      some ((s.childRows plan).length, (s.childRows plan).any (fun job => job.state.isFailed)) := by
    rw [countFinished_some]
    refine ⟨fun job hj => terminal job (List.mem_reverse.mp hj), ?_⟩
    simp
  simp only [finalizePlan, open_, Bool.false_eq_true, ↓reduceIte, counted, count, ne_eq, not_true_eq_false]

theorem finalizePlan_quiet {plan : TransferPlan} (planIndex : Nat) (h : ¬ s.Finishes plan) :
    s.finalizePlan planIndex plan = (s, false) := by
  unfold finalizePlan
  split
  · rfl
  · rename_i open_
    split
    · rfl
    · rename_i finished anyFailed counted
      split
      · rfl
      · rename_i count
        obtain ⟨terminal, he⟩ := countFinished_some.mp counted
        simp only [List.length_reverse, Nat.zero_add, Prod.mk.injEq] at he
        refine absurd ⟨by simpa using open_, fun job hj => terminal job (List.mem_reverse.mpr hj), ?_⟩ h
        rw [← he.1]
        simpa using count

def assign (transferId : TransferId) (state : TransferState) (job : TransferJob) : TransferJob :=
  if job.id = transferId then { job with state := state } else job

@[simp] theorem assign_id (transferId : TransferId) (state : TransferState) (job : TransferJob) :
    (assign transferId state job).id = job.id := by
  unfold assign
  split <;> rfl

theorem setJobState_jobs (asc : Ascending (fun job => job.id) s.jobs) (transferId : TransferId)
    (state : TransferState) : (s.setJobState transferId state).1.jobs = s.jobs.map (assign transferId state) := by
  rw [setJobState, editJob_eq asc]
  apply List.map_congr_left
  intro job _
  unfold editOf assign withState
  by_cases h : job.state = state
  · simp [← h]
  · simp [h]

/-- The store between the job's own update and the look at its plan. -/
def settledBy (s : TransferStore) (transferId : TransferId) (state : TransferState) : TransferStore :=
  let s := ({ s with justFinishedPlan := none }.setJobState transferId state).1
  (s.removeConflicts ((s.pendingConflicts.filter (fun conflict => conflict.transferId = transferId)).map
    (fun conflict => conflict.id))).1

theorem applyEvent_outcome {event : TransferEvent} {transferId : TransferId} {state : TransferState}
    (h : event.outcome = some (transferId, state)) (now : Timestamp) :
    (s.applyEvent event now).1 = ((s.settledBy transferId state).finalizePlanForJob transferId).1 := by
  cases event <;> simp only [TransferEvent.outcome, reduceCtorEq, Option.some.injEq, Prod.mk.injEq] at h
  all_goals
    obtain ⟨rfl, rfl⟩ := h
    rfl

@[simp] theorem settledBy_plans (s : TransferStore) (transferId : TransferId) (state : TransferState) :
    (s.settledBy transferId state).plans = s.plans := by
  simp [settledBy, setJobState]

theorem settledBy_jobs (asc : Ascending (fun job => job.id) s.jobs) (transferId : TransferId)
    (state : TransferState) : (s.settledBy transferId state).jobs = s.jobs.map (assign transferId state) := by
  simp only [settledBy, removeConflicts_jobs]
  exact setJobState_jobs (s := { s with justFinishedPlan := none }) asc transferId state

theorem settledBy_valid (valid : s.Valid) (transferId : TransferId) (state : TransferState) :
    (s.settledBy transferId state).Valid :=
  valid.of_jobs (valid.jobs.map (assign_id transferId state)) (settledBy_jobs valid.jobs transferId state) (by simp)

theorem span_map {s' : TransferStore} {g : TransferJob → TransferJob} (keep : ∀ job, (g job).id = job.id)
    (jobs : s'.jobs = s.jobs.map g) (plan : TransferPlan) : s'.span plan = (s.span plan).map g := by
  unfold span
  split
  · rw [jobs, List.filter_map]
    simp only [Function.comp_def, keep]
  · rfl

theorem spans_map {s' : TransferStore} {g : TransferJob → TransferJob} (keep : ∀ job, (g job).id = job.id)
    (jobs : s'.jobs = s.jobs.map g) (plan : TransferPlan) : s'.Spans plan ↔ s.Spans plan := by
  simp only [Spans, span_map keep jobs, jobs, List.length_map, List.mem_map, exists_exists_and_eq_and, keep]

theorem settledBy_span (asc : Ascending (fun job => job.id) s.jobs) (plan : TransferPlan) (transferId : TransferId)
    (state : TransferState) :
    (s.settledBy transferId state).span plan = (s.span plan).map (assign transferId state) :=
  span_map (assign_id transferId state) (settledBy_jobs asc transferId state) plan

theorem settledBy_spans (asc : Ascending (fun job => job.id) s.jobs) (plan : TransferPlan) (transferId : TransferId)
    (state : TransferState) : (s.settledBy transferId state).Spans plan ↔ s.Spans plan :=
  spans_map (assign_id transferId state) (settledBy_jobs asc transferId state) plan

def ChildrenDone (s : TransferStore) (plan : TransferPlan) : Prop :=
  ∀ id ∈ plan.childJobs, ∃ job, s.findJob id = some job ∧ (job.state = .completed ∨ job.state = .skipped)

def ChildrenEnded (s : TransferStore) (plan : TransferPlan) : Prop :=
  ∀ id ∈ plan.childJobs, ∃ job, s.findJob id = some job ∧ job.state.isTerminal = true

def SomeChildFailed (s : TransferStore) (plan : TransferPlan) : Prop :=
  ∃ id ∈ plan.childJobs, ∃ job, s.findJob id = some job ∧ job.state.isFailed = true

/-- What moving a plan from an open state in `s` to a closed one in `s'` promises. -/
def CompletionSound (s s' : TransferStore) : Prop :=
  ∀ plan ∈ s.plans, plan.state.isTerminal = false → ∀ plan' ∈ s'.plans, plan'.id = plan.id →
    (plan'.state = .completed → s'.ChildrenDone plan) ∧
      ∀ error, plan'.state = .failed error → s'.ChildrenEnded plan ∧ s'.SomeChildFailed plan

/-- The job is a child of an open plan for which foreign jobs stand in for missing children, and it is the
last of the jobs counted that has not ended. -/
def Misled (s : TransferStore) (transferId : TransferId) : Prop :=
  ∃ plan ∈ s.plans, plan.state.isTerminal = false ∧ transferId ∈ plan.childJobs ∧ s.Spans plan ∧
    (∃ job ∈ s.span plan, job.id ∉ plan.childJobs) ∧
    ∀ job ∈ s.span plan, job.id = transferId ∨ job.state.isTerminal = true

instance (s : TransferStore) (transferId : TransferId) : Decidable (s.Misled transferId) :=
  inferInstanceAs (Decidable (∃ plan ∈ s.plans, _))

theorem owner_unique (valid : s.Valid) {plan other : TransferPlan} (hp : plan ∈ s.plans) (ho : other ∈ s.plans)
    {id : TransferId} (own : plan.Owns id) (own' : other.Owns id) : plan = other := by
  by_cases h : plan.id = other.id
  · exact key_unique (fun plan => plan.id) valid.plans.ids hp ho h
  · exact absurd own' (valid.plans.apart plan hp other ho h id own)

theorem finalizePlanForJob_child (valid : s.Valid) {plan : TransferPlan} (hp : plan ∈ s.plans)
    {transferId : TransferId} (child : transferId ∈ plan.childJobs) :
    ∃ planIndex, s.plans[planIndex]? = some plan ∧
      s.finalizePlanForJob transferId = s.finalizePlan planIndex plan := by
  cases hi : s.plans.findIdx? (fun plan => planHasChild plan transferId) with
  | none =>
    have := List.findIdx?_eq_none_iff.mp hi plan hp
    rw [(planHasChild_iff plan transferId).mpr child] at this
    cases this
  | some planIndex =>
    obtain ⟨hlt, found, _⟩ := List.findIdx?_eq_some_iff_getElem.mp hi
    have child' := (planHasChild_iff _ _).mp found
    have same : s.plans[planIndex] = plan :=
      owner_unique valid (List.getElem_mem hlt) hp (Or.inr child') (Or.inr child)
    have get : s.plans[planIndex]? = some plan := same ▸ List.getElem?_eq_getElem hlt
    refine ⟨planIndex, get, ?_⟩
    simp only [finalizePlanForJob, hi, Option.bind_some, get, Option.map_some]

theorem finalizePlanForJob_no_child {transferId : TransferId} (orphan : ∀ plan ∈ s.plans, transferId ∉ plan.childJobs) :
    (s.finalizePlanForJob transferId).1.plans = s.plans ∧ (s.finalizePlanForJob transferId).1.jobs = s.jobs := by
  have hi : s.plans.findIdx? (fun plan => planHasChild plan transferId) = none := by
    rw [List.findIdx?_eq_none_iff]
    intro plan hp
    rw [← Bool.not_eq_true, planHasChild_iff]
    exact orphan plan hp
  simp only [finalizePlanForJob, hi, Option.bind_none]
  split <;> exact ⟨rfl, rfl⟩

theorem open_not_closed {state : TransferPlanState} (h : state.isTerminal = false) :
    state ≠ .completed ∧ ∀ error, state ≠ .failed error := by
  constructor
  · rintro rfl
    cases h
  · rintro error rfl
    cases h

theorem sound_of_same_plans (valid : s.Valid) {s' : TransferStore} (same : s'.plans = s.plans) :
    CompletionSound s s' := by
  intro plan hp open_ plan' hp' he
  rw [same] at hp'
  rw [key_unique (fun plan => plan.id) valid.plans.ids hp' hp he]
  have still := open_not_closed open_
  exact ⟨fun h => absurd h still.1, fun error h => absurd h (still.2 error)⟩

theorem finishPlan_findJob (valid : s.Valid) (planIndex : Nat) {plan : TransferPlan} (hp : plan ∈ s.plans)
    (anyFailed : Bool) {id : TransferId} (child : id ∈ plan.childJobs) :
    (s.finishPlan planIndex plan anyFailed).findJob id = s.findJob id := by
  rw [findJob_map valid.jobs _ (finishPlan_jobs valid planIndex plan anyFailed)]
  · cases hf : s.findJob id with
    | none => rfl
    | some job =>
      obtain ⟨_, rfl⟩ := (findJob_iff valid.jobs).mp hf
      have notRoot : job.id ≠ plan.rootJobId := fun he => valid.plans.root plan hp (he ▸ child)
      rw [Option.map_some, if_neg notRoot]
  · intro job
    split <;> rfl

theorem finishPlan_get {planIndex : Nat} {plan : TransferPlan} (get : s.plans[planIndex]? = some plan) (anyFailed : Bool) :
    (s.finishPlan planIndex plan anyFailed).plans[planIndex]? =
      some { plan with state := if anyFailed then .failed finishedWithFailures else .completed } := by
  simp only [finishPlan, setPlanState, List.getElem?_modify, get, if_true, Option.map_eq_map, Option.map_some]

theorem finishPlan_plans {planIndex : Nat} {plan : TransferPlan} (valid : s.Valid)
    (hi : s.plans[planIndex]? = some plan) (anyFailed : Bool) {plan' : TransferPlan}
    (hp' : plan' ∈ (s.finishPlan planIndex plan anyFailed).plans) :
    plan'.id = plan.id ∧ plan'.state = (if anyFailed then .failed finishedWithFailures else .completed) ∨
      plan'.id ≠ plan.id ∧ plan' ∈ s.plans := by
  obtain ⟨i, hget⟩ := List.mem_iff_getElem?.mp hp'
  simp only [finishPlan, setPlanState, List.getElem?_modify] at hget
  cases hold : s.plans[i]? with
  | none => simp [hold] at hget
  | some old =>
    simp only [hold, Option.map_eq_map, Option.map_some, Option.some.injEq] at hget
    by_cases h : planIndex = i
    · subst h
      rw [hi] at hold
      cases hold
      rw [if_pos rfl] at hget
      exact Or.inl (by rw [← hget]; exact ⟨rfl, rfl⟩)
    · rw [if_neg h] at hget
      subst hget
      refine Or.inr ⟨?_, List.mem_of_getElem? hold⟩
      intro he
      have same : (s.plans.map (fun plan => plan.id))[planIndex]? = (s.plans.map (fun plan => plan.id))[i]? := by
        simp [hi, hold, he]
      have hlt : planIndex < (s.plans.map (fun plan => plan.id)).length := by
        simpa using (List.getElem?_eq_some_iff.mp hi).1
      exact h ((List.getElem?_inj hlt valid.plans.ids).mp same)

theorem rows_own (valid : s.Valid) {plan : TransferPlan} (hp : plan ∈ s.plans) {transferId : TransferId}
    {state : TransferState} (child : transferId ∈ plan.childJobs) (clear : ¬ s.Misled transferId)
    (finishes : (s.settledBy transferId state).Finishes plan) :
    ∀ job ∈ (s.settledBy transferId state).childRows plan, job.id ∈ plan.childJobs := by
  have asc' := (settledBy_valid valid transferId state).jobs
  have children := valid.plans.ascending plan hp
  intro row hrow
  by_cases spans : (s.settledBy transferId state).Spans plan
  · have terminal := finishes.2.1
    rw [childRows_spans asc' children spans, settledBy_span valid.jobs] at hrow terminal
    obtain ⟨job, hj, rfl⟩ := List.mem_map.mp hrow
    rw [assign_id]
    by_contra foreign
    refine clear ⟨plan, hp, finishes.1, child, (settledBy_spans valid.jobs plan transferId state).mp spans,
      ⟨job, hj, foreign⟩, ?_⟩
    intro other ho
    by_cases he : other.id = transferId
    · exact Or.inl he
    · have ended := terminal _ (List.mem_map_of_mem ho)
      rw [assign, if_neg he] at ended
      exact Or.inr ended
  · rw [childRows_not_spans asc' children spans, List.mem_filter, decide_eq_true_eq] at hrow
    exact hrow.2

theorem finishPlan_sound (valid : s.Valid) {plan : TransferPlan} (hp : plan ∈ s.plans) (planIndex : Nat)
    (finishes : s.Finishes plan) (own : ∀ job ∈ s.childRows plan, job.id ∈ plan.childJobs) :
    let anyFailed := (s.childRows plan).any (fun job => job.state.isFailed)
    let s' := s.finishPlan planIndex plan anyFailed
    s'.ChildrenEnded plan ∧ (anyFailed = false → s'.ChildrenDone plan) ∧ (anyFailed = true → s'.SomeChildFailed plan) := by
  intro anyFailed s'
  have children := valid.plans.ascending plan hp
  have rows : ∀ job ∈ s.childRows plan, s'.findJob job.id = some job := by
    intro job hj
    rw [finishPlan_findJob valid planIndex hp anyFailed (own job hj)]
    exact (findJob_iff valid.jobs).mpr ⟨(childRows_sublist valid.jobs children).subset hj, rfl⟩
  have present := children_have_rows valid.jobs children finishes.2.2 own
  refine ⟨?_, ?_, ?_⟩
  · intro id hid
    obtain ⟨job, hj, rfl⟩ := present id hid
    exact ⟨job, rows job hj, finishes.2.1 job hj⟩
  · intro none_ id hid
    obtain ⟨job, hj, rfl⟩ := present id hid
    refine ⟨job, rows job hj, ?_⟩
    have ended := finishes.2.1 job hj
    have fine : job.state.isFailed = false := by simpa using List.any_eq_false.mp none_ job hj
    cases hs : job.state <;> simp_all [TransferState.isTerminal, TransferState.isFailed]
  · intro some_
    obtain ⟨job, hj, failed⟩ := List.any_eq_true.mp some_
    exact ⟨job.id, own job hj, job, rows job hj, failed⟩

theorem sound_of_not_misled (valid : s.Valid) {event : TransferEvent} {transferId : TransferId}
    {state : TransferState} (h : event.outcome = some (transferId, state)) (now : Timestamp)
    (clear : ¬ s.Misled transferId) : CompletionSound s (s.applyEvent event now).1 := by
  have valid' := settledBy_valid valid transferId state
  rw [applyEvent_outcome h]
  by_cases orphan : ∀ plan ∈ s.plans, transferId ∉ plan.childJobs
  · apply sound_of_same_plans valid
    rw [(finalizePlanForJob_no_child (by simpa using orphan)).1, settledBy_plans]
  · push Not at orphan
    obtain ⟨plan, hp, child⟩ := orphan
    have hp1 : plan ∈ (s.settledBy transferId state).plans := by simpa using hp
    obtain ⟨planIndex, hi, final⟩ := finalizePlanForJob_child valid' hp1 child
    rw [final]
    by_cases finishes : (s.settledBy transferId state).Finishes plan
    · rw [finalizePlan_of_finishes planIndex finishes]
      have own := rows_own valid hp child clear finishes
      obtain ⟨ended, done, failed⟩ := finishPlan_sound valid' hp1 planIndex finishes own
      intro before hb open_ plan' hp' he
      rcases finishPlan_plans valid' hi _ hp' with ⟨hid, hstate⟩ | ⟨hid, hold⟩
      · have same : before = plan := key_unique (fun plan => plan.id) valid.plans.ids hb hp (he.symm.trans hid)
        subst same
        cases hf : ((s.settledBy transferId state).childRows before).any (fun job => job.state.isFailed) with
        | true =>
          rw [hf] at hstate ended failed
          exact ⟨fun hc => absurd (hc.symm.trans hstate) (by simp), fun _ _ => ⟨ended, failed rfl⟩⟩
        | false =>
          rw [hf] at hstate done
          exact ⟨fun _ => done rfl, fun _ hc => absurd (hc.symm.trans hstate) (by simp)⟩
      · have same : plan' = before :=
          key_unique (fun plan => plan.id) valid.plans.ids (by simpa using hold) hb he
        subst same
        have still := open_not_closed open_
        exact ⟨fun h => absurd h still.1, fun error h => absurd h (still.2 error)⟩
    · rw [finalizePlan_quiet planIndex finishes]
      exact sound_of_same_plans valid (by simp)

theorem not_sound_of_misled (valid : s.Valid) {event : TransferEvent} {transferId : TransferId}
    {state : TransferState} (h : event.outcome = some (transferId, state)) (terminal : state.isTerminal = true)
    (now : Timestamp) (misled : s.Misled transferId) : ¬ CompletionSound s (s.applyEvent event now).1 := by
  obtain ⟨plan, hp, open_, child, spans, ⟨foreign, hf, notChild⟩, ended⟩ := misled
  have valid' := settledBy_valid valid transferId state
  have children := valid.plans.ascending plan hp
  have hp1 : plan ∈ (s.settledBy transferId state).plans := by simpa using hp
  have spans' := (settledBy_spans valid.jobs plan transferId state).mpr spans
  obtain ⟨planIndex, hi, final⟩ := finalizePlanForJob_child valid' hp1 child
  have finishes : (s.settledBy transferId state).Finishes plan := by
    refine ⟨open_, ?_, ?_⟩
    · rw [childRows_spans valid'.jobs children spans', settledBy_span valid.jobs]
      intro row hrow
      obtain ⟨job, hj, rfl⟩ := List.mem_map.mp hrow
      by_cases he : job.id = transferId
      · rw [assign, if_pos he]
        exact terminal
      · rw [assign, if_neg he]
        exact (ended job hj).resolve_left he
    · rw [childRows_spans valid'.jobs children spans']
      exact spans'.2.2
  obtain ⟨missing, hm, absent⟩ := child_missing children spans hf notChild
  rw [applyEvent_outcome h, final, finalizePlan_of_finishes planIndex finishes]
  set anyFailed := ((s.settledBy transferId state).childRows plan).any (fun job => job.state.isFailed)
  have gone : ((s.settledBy transferId state).finishPlan planIndex plan anyFailed).findJob missing = none := by
    rw [finishPlan_findJob valid' planIndex hp1 anyFailed hm, findJob_map valid.jobs
      (assign_id transferId state) (settledBy_jobs valid.jobs transferId state), Option.map_eq_none_iff]
    cases found : s.findJob missing with
    | none => rfl
    | some job =>
      obtain ⟨hj, he⟩ := (findJob_iff valid.jobs).mp found
      exact absurd he (absent job hj)
  have hget := finishPlan_get hi anyFailed
  intro sound
  obtain ⟨done, failed⟩ := sound plan hp open_ _ (List.mem_of_getElem? hget) rfl
  cases hf : anyFailed with
  | true =>
    obtain ⟨job, found, _⟩ := (failed finishedWithFailures (by simp [hf])).1 missing hm
    rw [gone] at found
    cases found
  | false =>
    obtain ⟨job, found, _⟩ := done (by simp [hf]) missing hm
    rw [gone] at found
    cases found

theorem outcome_terminal {event : TransferEvent} {transferId : TransferId} {state : TransferState}
    (h : event.outcome = some (transferId, state)) : state.isTerminal = true := by
  cases event <;> simp only [TransferEvent.outcome, reduceCtorEq, Option.some.injEq, Prod.mk.injEq] at h
  all_goals
    rw [← h.2]
    rfl

theorem plan_completion_sound_iff (ops : List StoreOp) (legal : machine.Admissible (fun s op => op.Legal s) {} ops)
    (event : TransferEvent) (transferId : TransferId) (state : TransferState)
    (h : event.outcome = some (transferId, state)) (now : Timestamp) :
    CompletionSound (machine.run {} ops) ((machine.run {} ops).applyEvent event now).1 ↔
      ¬ (machine.run {} ops).Misled transferId := by
  have valid := reachable_valid legal
  constructor
  · intro sound misled
    exact not_sound_of_misled valid h (outcome_terminal h) now misled sound
  · exact sound_of_not_misled valid h now

/-- Job 5 of plan 1 fails; job 4 of plan 2 and job 3 end. Job 6 is the last one of plan 1. -/
def lastChildLeft : List StoreOp :=
  interleavedPlans ++ sampleEvents [.failed ⟨⟨5⟩, finishedWithFailures⟩, .completed ⟨4⟩, .completed ⟨3⟩]

theorem plan_completion_sound_interleaved :
    { samplePlan 1 1 [3, 5, 6] with state := .failed finishedWithFailures } ∈
        ((machine.run {} lastChildLeft).applyEvent (.completed ⟨6⟩) ⟨0⟩).1.plans ∧
      CompletionSound (machine.run {} lastChildLeft)
        ((machine.run {} lastChildLeft).applyEvent (.completed ⟨6⟩) ⟨0⟩).1 :=
  ⟨by decide,
    (plan_completion_sound_iff lastChildLeft (by decide) (.completed ⟨6⟩) ⟨6⟩ .completed rfl ⟨0⟩).mpr (by decide)⟩

/-- Job 5 of plan 1 fails and is cleared; then job 4 of plan 2 and job 3 end. -/
def misledRun : List StoreOp :=
  interleavedPlans ++ sampleEvents [.failed ⟨⟨5⟩, finishedWithFailures⟩] ++ [.clearTerminal] ++
    sampleEvents [.completed ⟨4⟩, .completed ⟨3⟩]

theorem plan_completes_without_its_child :
    machine.Admissible (fun s op => op.Legal s) {} misledRun ∧
      samplePlan 1 1 [3, 5, 6] ∈ (machine.run {} misledRun).plans ∧
      { samplePlan 1 1 [3, 5, 6] with state := .completed } ∈
        ((machine.run {} misledRun).applyEvent (.completed ⟨6⟩) ⟨0⟩).1.plans ∧
      ((machine.run {} misledRun).applyEvent (.completed ⟨6⟩) ⟨0⟩).1.findJob ⟨5⟩ = none ∧
      ¬ CompletionSound (machine.run {} misledRun)
        ((machine.run {} misledRun).applyEvent (.completed ⟨6⟩) ⟨0⟩).1 := by
  refine ⟨by decide, by decide, by decide, by decide, ?_⟩
  intro sound
  have promised := sound (samplePlan 1 1 [3, 5, 6]) (by decide) rfl
    { samplePlan 1 1 [3, 5, 6] with state := .completed } (by decide) rfl
  obtain ⟨job, found, _⟩ := promised.1 rfl ⟨5⟩ (by decide)
  exact absurd found (by rw [show TransferStore.findJob _ ⟨5⟩ = none by decide]; simp)

end TransferStore

end MacSftp
