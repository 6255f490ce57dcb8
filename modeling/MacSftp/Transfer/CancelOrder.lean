import MacSftp.Transfer.Completion

namespace MacSftp

open Lib

namespace TransferStore

variable {s : TransferStore}

def planState (s : TransferStore) (planId : TransferPlanId) : Option TransferPlanState :=
  (s.findPlan planId).map (fun plan => plan.state)

def reduce (s : TransferStore) (events : List (TransferEvent × Timestamp)) : TransferStore :=
  events.foldl (fun s event => (s.applyEvent event.1 event.2).1) s

/-- Once the jobs in `early` are skipped the finalizer takes the plan to be finished. -/
def Closes (s : TransferStore) (plan : TransferPlan) (early : List TransferId) : Prop :=
  plan.state.isTerminal = false ∧ early ≠ [] ∧ (s.childRows plan).length = plan.childJobs.length ∧
    ∀ job ∈ s.childRows plan, job.state.isTerminal = true ∨ job.id ∈ early

/-- A cancel that is reduced after the jobs in `early` were skipped still finds something to cancel. -/
def CancelInTime (s : TransferStore) (plan : TransferPlan) (early : List TransferId) : Prop :=
  plan.state = .cancelled ∨ plan.state.refusesCancel = false ∧
    (∃ job ∈ s.jobs, s.Reaches plan job ∧ job.state.isTerminal = false ∧ job.id ∉ early) ∧ ¬ s.Closes plan early

instance (s : TransferStore) (plan : TransferPlan) (early : List TransferId) : Decidable (s.Closes plan early) :=
  inferInstanceAs (Decidable (_ ∧ _))

instance (s : TransferStore) (plan : TransferPlan) (job : TransferJob) : Decidable (s.Reaches plan job) :=
  inferInstanceAs (Decidable (_ ∨ _))

instance (s : TransferStore) (plan : TransferPlan) (early : List TransferId) : Decidable (s.CancelInTime plan early) :=
  inferInstanceAs (Decidable (_ ∨ _))

theorem planState_iff (ids : (s.plans.map (fun plan => plan.id)).Nodup) {planId : TransferPlanId}
    {state : TransferPlanState} :
    s.planState planId = some state ↔ ∃ plan ∈ s.plans, plan.id = planId ∧ plan.state = state := by
  simp only [planState, Option.map_eq_some_iff, findPlan, findKey_iff _ ids, and_assoc]

theorem planState_of_mem (ids : (s.plans.map (fun plan => plan.id)).Nodup) {plan : TransferPlan} (hp : plan ∈ s.plans) :
    s.planState plan.id = some plan.state := (planState_iff ids).mpr ⟨plan, hp, rfl, rfl⟩

theorem setPlanState_ids (ids : (s.plans.map (fun plan => plan.id)).Nodup) (planIndex : Nat) (state : TransferPlanState) :
    ((s.setPlanState planIndex state).plans.map (fun plan => plan.id)).Nodup := by
  have same : (s.setPlanState planIndex state).plans.map (fun plan => plan.id) = s.plans.map (fun plan => plan.id) :=
    ids_of_shape (modify_shape s.plans planIndex state)
  rw [same]
  exact ids

theorem setPlanState_planState (ids : (s.plans.map (fun plan => plan.id)).Nodup) {planIndex : Nat} {plan : TransferPlan}
    (get : s.plans[planIndex]? = some plan) (state : TransferPlanState) :
    (s.setPlanState planIndex state).planState plan.id = some state := by
  refine (planState_iff (setPlanState_ids ids planIndex state)).mpr ⟨{ plan with state := state }, ?_, rfl, rfl⟩
  refine List.mem_of_getElem? (i := planIndex) ?_
  simp only [setPlanState, List.getElem?_modify, get, if_true, Option.map_eq_map, Option.map_some]

theorem planCancelled_state (valid : s.Valid) {plan : TransferPlan} (hp : plan ∈ s.plans) (now : Timestamp) :
    (s.applyEvent (.planCancelled plan.id) now).1.planState plan.id = some .cancelled ↔
      plan.state = .cancelled ∨ plan.state.refusesCancel = false ∧
        ∃ job ∈ s.jobs, s.Reaches plan job ∧ job.state.isTerminal = false := by
  have valid0 : { s with justFinishedPlan := none }.Valid := ⟨valid.jobs, valid.plans⟩
  obtain ⟨planIndex, found⟩ := planIndexOf_of_mem (s := { s with justFinishedPlan := none }) valid.plans.ids hp
  obtain ⟨get, _, _⟩ := planIndexOf_some found
  have children := valid.plans.ascending plan hp
  have before : { s with justFinishedPlan := none }.planState plan.id = some plan.state :=
    planState_of_mem (s := { s with justFinishedPlan := none }) valid.plans.ids hp
  have settled := settleJobs_valid valid0 children (fun job => !job.state.isTerminal) .skipped
  have changed := settleJobs_changed (s := { s with justFinishedPlan := none }) valid.jobs children
    (fun job => !job.state.isTerminal) .skipped
  have reached : (∃ job ∈ s.jobs, { s with justFinishedPlan := none }.Reaches plan job ∧ (!job.state.isTerminal) = true) ↔
      ∃ job ∈ s.jobs, s.Reaches plan job ∧ job.state.isTerminal = false := by
    simp only [Bool.not_eq_true']
    rfl
  have same : ({ s with justFinishedPlan := none }.settleJobs plan (fun job => !job.state.isTerminal) .skipped).1.planState
      plan.id = some plan.state := by
    rw [← before, planState, planState, findPlan, findPlan, settleJobs_plans]
  have get' : ({ s with justFinishedPlan := none }.settleJobs plan (fun job => !job.state.isTerminal)
      .skipped).1.plans[planIndex]? = some plan := by
    rw [settleJobs_plans]
    exact get
  have cancelled := setPlanState_planState settled.plans.ids get' .cancelled
  rw [reached] at changed
  simp only [applyEvent, setPlanCancelled, found]
  cases hs : plan.state with
  | cancelled => simpa [hs] using before
  | failed error => simp [before, hs, TransferPlanState.refusesCancel]
  | queued | planning | completed =>
    rw [hs] at same
    simp only [TransferPlanState.refusesCancel, true_and, reduceCtorEq, false_or]
    rw [← changed]
    split_ifs with any
    · exact ⟨fun _ => any, fun _ => cancelled⟩
    · simp [same, any]

theorem settledBy_childRows (valid : s.Valid) {plan : TransferPlan} (hp : plan ∈ s.plans) (transferId : TransferId)
    (state : TransferState) :
    (s.settledBy transferId state).childRows plan = (s.childRows plan).map (assign transferId state) := by
  have valid' := settledBy_valid valid transferId state
  have children := valid.plans.ascending plan hp
  by_cases spans : s.Spans plan
  · rw [childRows_spans valid.jobs children spans,
      childRows_spans valid'.jobs children ((settledBy_spans valid.jobs plan transferId state).mpr spans),
      settledBy_span valid.jobs]
  · rw [childRows_not_spans valid.jobs children spans,
      childRows_not_spans valid'.jobs children (fun h => spans ((settledBy_spans valid.jobs plan transferId state).mp h)),
      settledBy_jobs valid.jobs, List.filter_map]
    simp only [Function.comp_def, assign_id]

theorem reaches_iff_between {plan : TransferPlan} {job : TransferJob} (hj : job ∈ s.jobs) :
    s.Reaches plan job ↔ plan.Owns job.id ∨ s.Spans plan ∧
      ∃ first ∈ plan.childJobs.head?, ∃ last ∈ plan.childJobs.getLast?, first ≤ job.id ∧ job.id ≤ last := by
  unfold Reaches
  refine or_congr Iff.rfl (and_congr_right fun spans => ?_)
  obtain ⟨⟨a, _, hf⟩, ⟨b, _, hl⟩, _⟩ := spans
  rw [mem_span_iff hf hl, hf, hl]
  simp [hj]

theorem reaches_map {s' : TransferStore} {g : TransferJob → TransferJob} (keep : ∀ job, (g job).id = job.id)
    (jobs : s'.jobs = s.jobs.map g) {plan : TransferPlan} {job : TransferJob} (hj : job ∈ s.jobs) :
    s'.Reaches plan (g job) ↔ s.Reaches plan job := by
  have hj' : g job ∈ s'.jobs := by
    rw [jobs]
    exact List.mem_map_of_mem hj
  rw [reaches_iff_between hj', reaches_iff_between hj, keep, spans_map keep jobs]

theorem assign_terminal (transferId : TransferId) (job : TransferJob) :
    (assign transferId .skipped job).state.isTerminal = true ↔ job.state.isTerminal = true ∨ job.id = transferId := by
  unfold assign
  split
  · rename_i same
    simp [same, TransferState.isTerminal]
  · rename_i differ
    simp [differ]

theorem assign_open (transferId : TransferId) (job : TransferJob) :
    (assign transferId .skipped job).state.isTerminal = false ↔ job.state.isTerminal = false ∧ job.id ≠ transferId := by
  rw [← Bool.not_eq_true, assign_terminal, not_or, Bool.not_eq_true]

theorem settledBy_rows_done (valid : s.Valid) {plan : TransferPlan} (hp : plan ∈ s.plans) (transferId : TransferId)
    (early : List TransferId) :
    (∀ job ∈ s.childRows plan, job.state.isTerminal = true ∨ job.id ∈ transferId :: early) ↔
      ∀ job ∈ (s.settledBy transferId .skipped).childRows plan, job.state.isTerminal = true ∨ job.id ∈ early := by
  rw [settledBy_childRows valid hp]
  simp only [List.forall_mem_map, assign_id, List.mem_cons]
  refine forall₂_congr fun job _ => ?_
  rw [assign_terminal, or_assoc]

theorem settledBy_rows_length (valid : s.Valid) {plan : TransferPlan} (hp : plan ∈ s.plans) (transferId : TransferId) :
    ((s.settledBy transferId .skipped).childRows plan).length = (s.childRows plan).length := by
  rw [settledBy_childRows valid hp, List.length_map]

theorem settledBy_cancelInTime (valid : s.Valid) {plan : TransferPlan} (hp : plan ∈ s.plans) {transferId : TransferId}
    (open_ : ¬ (s.settledBy transferId .skipped).Finishes plan) (early : List TransferId) :
    s.CancelInTime plan (transferId :: early) ↔ (s.settledBy transferId .skipped).CancelInTime plan early := by
  have left : (∃ job ∈ s.jobs, s.Reaches plan job ∧ job.state.isTerminal = false ∧ job.id ∉ transferId :: early) ↔
      ∃ job ∈ (s.settledBy transferId .skipped).jobs, (s.settledBy transferId .skipped).Reaches plan job ∧
        job.state.isTerminal = false ∧ job.id ∉ early := by
    rw [settledBy_jobs valid.jobs]
    simp only [List.mem_map, exists_exists_and_eq_and, assign_open, assign_id, List.mem_cons, not_or]
    refine exists_congr fun job => and_congr_right fun hj => ?_
    rw [reaches_map (assign_id transferId .skipped) (settledBy_jobs valid.jobs transferId .skipped) hj, and_assoc]
  have count := settledBy_rows_length valid hp transferId
  have closes : s.Closes plan (transferId :: early) ↔ (s.settledBy transferId .skipped).Closes plan early := by
    unfold Closes
    rw [settledBy_rows_done valid hp, count]
    constructor
    · rintro ⟨isOpen, _, length, ended⟩
      refine ⟨isOpen, ?_, length, ended⟩
      rintro rfl
      exact open_ ⟨isOpen, fun job hj => (ended job hj).resolve_right List.not_mem_nil, count.trans length⟩
    · rintro ⟨isOpen, _, length, ended⟩
      exact ⟨isOpen, List.cons_ne_nil _ _, length, ended⟩
  unfold CancelInTime
  rw [left, closes]

theorem finished_not_in_time (valid : s.Valid) {plan : TransferPlan} (hp : plan ∈ s.plans) {planIndex : Nat}
    (finishes : s.Finishes plan) (anyFailed : Bool) (early : List TransferId) :
    ¬ (s.finishPlan planIndex plan anyFailed).CancelInTime
      { plan with state := if anyFailed then .failed finishedWithFailures else .completed } early := by
  have children := valid.plans.ascending plan hp
  have rows : ∀ job ∈ s.jobs, s.Reaches plan job → job.id ≠ plan.rootJobId → job.state.isTerminal = true := by
    intro job hj reach notRoot
    apply finishes.2.1 job
    by_cases spans : s.Spans plan
    · rw [childRows_spans valid.jobs children spans]
      obtain (root | child) | ⟨_, inside⟩ := reach
      · exact absurd root notRoot
      · exact mem_span_of_child children hj child
      · exact inside
    · rw [childRows_not_spans valid.jobs children spans, List.mem_filter, decide_eq_true_eq]
      obtain (root | child) | ⟨spans', _⟩ := reach
      · exact absurd root notRoot
      · exact ⟨hj, child⟩
      · exact absurd spans' spans
  rintro (cancelled | ⟨accepts, ⟨job, hj, reach, isOpen, _⟩, _⟩)
  · cases anyFailed <;> simp at cancelled
  · cases anyFailed with
    | true => simp [TransferPlanState.refusesCancel] at accepts
    | false =>
      rw [finishPlan_jobs valid] at hj
      obtain ⟨old, hold, rfl⟩ := List.mem_map.mp hj
      have reach' : s.Reaches plan old := by
        refine (reaches_map ?_ (finishPlan_jobs valid planIndex plan false) hold).mp reach
        intro job
        split <;> rfl
      by_cases root : old.id = plan.rootJobId
      · simp [root, TransferState.isTerminal] at isOpen
      · rw [if_neg root, rows old hold reach' root] at isOpen
        cases isOpen

theorem skipped_step (valid : s.Valid) {plan : TransferPlan} (hp : plan ∈ s.plans) {transferId : TransferId}
    (child : transferId ∈ plan.childJobs) (now : Timestamp) :
    (s.applyEvent (.skipped transferId) now).1.Valid ∧
      ∃ plan' ∈ (s.applyEvent (.skipped transferId) now).1.plans, plan'.id = plan.id ∧
        plan'.childJobs = plan.childJobs ∧
        ∀ early, s.CancelInTime plan (transferId :: early) ↔
          (s.applyEvent (.skipped transferId) now).1.CancelInTime plan' early := by
  have valid' := settledBy_valid valid transferId .skipped
  have hp' : plan ∈ (s.settledBy transferId .skipped).plans := by simpa using hp
  obtain ⟨planIndex, get, final⟩ := finalizePlanForJob_child valid' hp' child
  refine ⟨applyEvent_valid valid trivial, ?_⟩
  rw [show (s.applyEvent (.skipped transferId) now).1 = ((s.settledBy transferId .skipped).finalizePlanForJob transferId).1
    from applyEvent_outcome rfl now, final]
  by_cases finishes : (s.settledBy transferId .skipped).Finishes plan
  · rw [finalizePlan_of_finishes planIndex finishes]
    refine ⟨_, List.mem_of_getElem? (finishPlan_get get _), rfl, rfl, fun early => ⟨?_, ?_⟩⟩
    · rintro (cancelled | ⟨_, _, notClosed⟩)
      · have isOpen := finishes.1
        rw [cancelled] at isOpen
        cases isOpen
      · refine absurd ⟨finishes.1, List.cons_ne_nil _ _, ?_, ?_⟩ notClosed
        · rw [← settledBy_rows_length valid hp transferId]
          exact finishes.2.2
        · rw [settledBy_rows_done valid hp]
          exact fun job hj => Or.inl (finishes.2.1 job hj)
    · intro inTime
      exact absurd inTime (finished_not_in_time valid' hp' finishes _ early)
  · rw [finalizePlan_quiet planIndex finishes]
    exact ⟨plan, hp', rfl, rfl, settledBy_cancelInTime valid hp finishes⟩

theorem cancelled_after (valid : s.Valid) {plan : TransferPlan} (hp : plan ∈ s.plans)
    {early : List (TransferId × Timestamp)} (children : ∀ skip ∈ early, skip.1 ∈ plan.childJobs) (now : Timestamp) :
    ((s.reduce (early.map (fun skip => (.skipped skip.1, skip.2)))).applyEvent (.planCancelled plan.id) now).1.planState
        plan.id = some .cancelled ↔ s.CancelInTime plan (early.map Prod.fst) := by
  induction early generalizing s plan with
  | nil =>
    have none_ : ¬ s.Closes plan [] := fun h => h.2.1 rfl
    rw [reduce, List.map_nil, List.foldl_nil, planCancelled_state valid hp]
    simp [CancelInTime, none_]
  | cons skip early ih =>
    obtain ⟨valid', plan', hp', id, same, step⟩ := skipped_step valid hp (children skip List.mem_cons_self) skip.2
    have later : ∀ other ∈ early, other.1 ∈ plan'.childJobs := by
      intro other member
      rw [same]
      exact children other (List.mem_cons_of_mem _ member)
    rw [List.map_cons, List.map_cons, step, ← ih valid' hp' later, id]
    rfl

theorem skipped_keeps_cancelled (valid : s.Valid) (transferId : TransferId) (now : Timestamp) (planId : TransferPlanId) :
    (s.applyEvent (.skipped transferId) now).1.planState planId = some .cancelled ↔
      s.planState planId = some .cancelled := by
  have valid' := settledBy_valid valid transferId .skipped
  have after : (s.applyEvent (.skipped transferId) now).1.Valid := applyEvent_valid valid trivial
  rw [planState_iff after.plans.ids, planState_iff valid.plans.ids]
  rw [show (s.applyEvent (.skipped transferId) now).1 = ((s.settledBy transferId .skipped).finalizePlanForJob transferId).1
    from applyEvent_outcome rfl now]
  by_cases orphan : ∀ plan ∈ s.plans, transferId ∉ plan.childJobs
  · rw [(finalizePlanForJob_no_child (by simpa using orphan)).1, settledBy_plans]
  · push Not at orphan
    obtain ⟨plan, hp, child⟩ := orphan
    have hp' : plan ∈ (s.settledBy transferId .skipped).plans := by simpa using hp
    obtain ⟨planIndex, get, final⟩ := finalizePlanForJob_child valid' hp' child
    rw [final]
    by_cases finishes : (s.settledBy transferId .skipped).Finishes plan
    · rw [finalizePlan_of_finishes planIndex finishes]
      constructor
      · rintro ⟨row, member, rfl, cancelled⟩
        obtain ⟨_, state⟩ | ⟨_, old⟩ := finishPlan_plans valid' get _ member
        · rw [state] at cancelled
          split at cancelled <;> cases cancelled
        · exact ⟨row, by simpa using old, rfl, cancelled⟩
      · rintro ⟨row, member, rfl, cancelled⟩
        obtain ⟨i, hget⟩ := List.mem_iff_getElem?.mp (settledBy_plans s transferId .skipped ▸ member)
        have differ : planIndex ≠ i := by
          rintro rfl
          rw [get] at hget
          cases hget
          have isOpen := finishes.1
          rw [cancelled] at isOpen
          cases isOpen
        refine ⟨row, List.mem_of_getElem? (i := i) ?_, rfl, cancelled⟩
        simp only [finishPlan, setPlanState, List.getElem?_modify, if_neg differ, hget, Option.map_eq_map, Option.map_some]
    · rw [finalizePlan_quiet planIndex finishes, settledBy_plans]

theorem reduce_skipped_valid (valid : s.Valid) (skips : List (TransferId × Timestamp)) :
    (s.reduce (skips.map (fun skip => (.skipped skip.1, skip.2)))).Valid := by
  induction skips generalizing s with
  | nil => exact valid
  | cons skip skips ih =>
    have first : (s.applyEvent (.skipped skip.1) skip.2).1.Valid := applyEvent_valid valid trivial
    exact ih first

theorem late_skips_keep_cancelled (valid : s.Valid) (planId : TransferPlanId) (late : List (TransferId × Timestamp)) :
    (s.reduce (late.map (fun skip => (.skipped skip.1, skip.2)))).planState planId = some .cancelled ↔
      s.planState planId = some .cancelled := by
  induction late generalizing s with
  | nil => exact Iff.rfl
  | cons skip late ih =>
    have first : (s.applyEvent (.skipped skip.1) skip.2).1.Valid := applyEvent_valid valid trivial
    exact (ih first).trans (skipped_keeps_cancelled valid skip.1 skip.2 planId)

theorem cancelled_iff_in_time (valid : s.Valid) {plan : TransferPlan} (hp : plan ∈ s.plans)
    {early late : List (TransferId × Timestamp)} (children : ∀ skip ∈ early, skip.1 ∈ plan.childJobs) (now : Timestamp) :
    (s.reduce (early.map (fun skip => (.skipped skip.1, skip.2)) ++ (.planCancelled plan.id, now) ::
        late.map (fun skip => (.skipped skip.1, skip.2)))).planState plan.id = some .cancelled ↔
      s.CancelInTime plan (early.map Prod.fst) := by
  have valid' : ((s.reduce (early.map (fun skip => (.skipped skip.1, skip.2)))).applyEvent (.planCancelled plan.id)
      now).1.Valid := applyEvent_valid (reduce_skipped_valid valid early) trivial
  rw [← cancelled_after valid hp children now, ← late_skips_keep_cancelled valid' plan.id late, reduce, reduce, reduce,
    List.foldl_append, List.foldl_cons]

end TransferStore

end MacSftp
