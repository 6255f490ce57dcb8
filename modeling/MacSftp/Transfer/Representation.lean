import MacSftp.Transfer.Endings

namespace MacSftp

open Lib

def StoreOp.Sorted : StoreOp → Prop
  | .applyEvent (.planProgress progress) _ => progress.childJobs.Pairwise (fun a b => a.id < b.id)
  | _ => True

instance (op : StoreOp) : Decidable op.Sorted :=
  match op with
  | .applyEvent event _ =>
    match event with
    | .planProgress _ => inferInstanceAs (Decidable (List.Pairwise _ _))
    | .planStarted _ | .planCompleted _ | .planCancelled _ | .planFailed _ _ | .conflict _ | .running _ | .progress _
    | .warning _ | .completed _ | .skipped _ | .failed _ => isTrue trivial
  | .markCancelling _ | .removeConflict _ | .clearTerminal => isTrue trivial

namespace TransferStore

variable {s s' : TransferStore} {Q : TransferJob → Prop}

/-- The rows are sorted by id and have a property that a change of state keeps. -/
structure Rows (Q : TransferJob → Prop) (s : TransferStore) : Prop where
  ascending : Ascending (fun job => job.id) s.jobs
  each : ∀ job ∈ s.jobs, Q job

theorem Rows.congr (h : Rows Q s) (jobs : s'.jobs = s.jobs) : Rows Q s' := ⟨jobs ▸ h.ascending, jobs ▸ h.each⟩

theorem Rows.map (h : Rows Q s) {g : TransferJob → TransferJob} (ids : ∀ job, (g job).id = job.id)
    (keep : ∀ job, Q job → Q (g job)) (jobs : s'.jobs = s.jobs.map g) : Rows Q s' := by
  constructor
  · rw [jobs]
    exact h.ascending.map ids
  · intro job member
    rw [jobs] at member
    obtain ⟨old, there, rfl⟩ := List.mem_map.mp member
    exact keep old (h.each old there)

theorem insertPlan_frame (s : TransferStore) (plan : TransferPlan) :
    (s.insertPlan plan).1 = { s with plans := (s.insertPlan plan).1.plans } := by
  unfold insertPlan
  split <;> rfl

theorem Rows.edit (h : Rows Q s) (transferId : TransferId) {edit : TransferJob → Option TransferJob}
    (ids : ∀ job new, edit job = some new → new.id = job.id) (keep : ∀ job new, edit job = some new → Q job → Q new) :
    Rows Q (s.editJob transferId edit).1 := by
  rw [editJob_eq h.ascending]
  refine h.map (editOf_id ids) ?_ rfl
  intro job own
  unfold editOf
  split_ifs
  · cases edited : edit job with
    | none => exact own
    | some new => exact keep job new edited own
  · exact own

def Lacks (s : TransferStore) (transferId : TransferId) : Prop := ∀ job ∈ s.jobs, job.id ≠ transferId

instance (s : TransferStore) (transferId : TransferId) : Decidable (s.Lacks transferId) :=
  inferInstanceAs (Decidable (∀ job ∈ s.jobs, _))

theorem mem_insertJob (asc : Ascending (fun job => job.id) s.jobs) {job new : TransferJob} :
    job ∈ (s.insertJob new).1.jobs ↔ job ∈ s.jobs ∨ job = new ∧ s.Lacks new.id := by
  unfold TransferStore.insertJob
  split
  · rename_i index found
    obtain ⟨old, hi, he⟩ := binarySearch_ok found
    have known : ¬ s.Lacks new.id := fun lacks => lacks old (List.mem_of_getElem? hi) he
    simp [known]
  · rename_i missing
    have lacks : s.Lacks new.id := (binarySearch_error asc.le missing).2
    rw [mem_insert_of_error missing]
    simp only [lacks, and_true]
    exact or_comm

theorem mem_insertEach (asc : Ascending (fun job => job.id) s.jobs) {batch : List TransferJob}
    (sorted : batch.Pairwise (fun a b => a.id < b.id)) {job : TransferJob} :
    job ∈ (s.insertEach batch).1.jobs ↔ job ∈ s.jobs ∨ job ∈ batch ∧ s.Lacks job.id := by
  induction batch generalizing s with
  | nil => simp [insertEach]
  | cons first rest ih =>
    obtain ⟨above, sorted⟩ := List.pairwise_cons.mp sorted
    have lacks : ∀ job ∈ rest, (s.insertJob first).1.Lacks job.id ↔ s.Lacks job.id := by
      intro job hj
      constructor
      · intro lacks old ho
        exact lacks old ((mem_insertJob asc).mpr (Or.inl ho))
      · intro lacks old ho
        obtain there | ⟨rfl, _⟩ := (mem_insertJob asc).mp ho
        · exact lacks old there
        · exact (above job hj).ne
    show job ∈ ((s.insertJob first).1.insertEach rest).1.jobs ↔ _
    rw [ih (insertJob_ascending asc first) sorted, mem_insertJob asc, List.mem_cons]
    constructor
    · rintro ((there | ⟨rfl, new⟩) | ⟨there, new⟩)
      · exact Or.inl there
      · exact Or.inr ⟨Or.inl rfl, new⟩
      · exact Or.inr ⟨Or.inr there, (lacks job there).mp new⟩
    · rintro (there | ⟨rfl | there, new⟩)
      · exact Or.inl (Or.inl there)
      · exact Or.inl (Or.inr ⟨rfl, new⟩)
      · exact Or.inr ⟨there, (lacks job there).mpr new⟩

theorem mem_insertJobs (asc : Ascending (fun job => job.id) s.jobs) {batch : List TransferJob}
    (sorted : batch.Pairwise (fun a b => a.id < b.id)) {job : TransferJob} :
    job ∈ (s.insertJobs batch).1.jobs ↔ job ∈ s.jobs ∨ job ∈ batch ∧ s.Lacks job.id := by
  unfold insertJobs
  split_ifs with ascending
  · rw [List.mem_append]
    refine or_congr_right (iff_self_and.mpr ?_)
    exact fun hn old ho => (append_above asc sorted ascending ho hn).ne
  · exact mem_insertEach asc sorted

theorem Rows.insertJob (h : Rows Q s) {job : TransferJob} (own : s.Lacks job.id → Q job) :
    Rows Q (s.insertJob job).1 := by
  refine ⟨insertJob_ascending h.ascending job, ?_⟩
  intro other member
  obtain old | ⟨rfl, new⟩ := (mem_insertJob h.ascending).mp member
  · exact h.each other old
  · exact own new

theorem Rows.insertJobs (h : Rows Q s) {batch : List TransferJob} (sorted : batch.Pairwise (fun a b => a.id < b.id))
    (own : ∀ job ∈ batch, s.Lacks job.id → Q job) : Rows Q (s.insertJobs batch).1 := by
  refine ⟨insertJobs_ascending h.ascending sorted, ?_⟩
  intro job member
  obtain old | ⟨listed, new⟩ := (mem_insertJobs h.ascending sorted).mp member
  · exact h.each job old
  · exact own job listed new

theorem Rows.upsertJob (h : Rows Q s) {job : TransferJob} (own : Q job) : Rows Q (s.upsertJob job).1 := by
  unfold TransferStore.upsertJob
  split
  · rename_i index found
    obtain ⟨old, hi, he⟩ := binarySearch_ok found
    split
    · exact h
    · refine ⟨set_ascending h.ascending hi he.symm, ?_⟩
      intro other member
      obtain there | rfl := List.mem_or_eq_of_mem_set member
      · exact h.each other there
      · exact own
  · refine ⟨h.ascending.insert ‹_›, ?_⟩
    intro other member
    obtain rfl | there := (mem_insert_of_error ‹_›).mp member
    · exact own
    · exact h.each other there

def takenIn (s : TransferStore) : TransferEvent → List TransferJob
  | .planStarted snapshot => [snapshot.rootJob].filter (fun job => s.Lacks job.id)
  | .planProgress progress =>
    if (s.findPlan progress.planId).any (fun plan => plan.state.isTerminal) then []
    else progress.childJobs.filter (fun job => s.Lacks job.id)
  | .running job => [job]
  | _ => []

theorem Rows.applyPlanProgress (h : Rows Q s) {progress : TransferPlanProgress}
    (own : ∀ job ∈ s.takenIn (.planProgress progress), Q job)
    (sorted : progress.childJobs.Pairwise (fun a b => a.id < b.id)) : Rows Q (s.applyPlanProgress progress).1 := by
  unfold TransferStore.applyPlanProgress
  split
  · rename_i unknown
    have taken : s.takenIn (.planProgress progress) = progress.childJobs.filter (fun job => s.Lacks job.id) := by
      simp only [takenIn, unknown]
      rfl
    refine h.insertJobs sorted fun job listed new => own job ?_
    rw [taken]
    exact List.mem_filter.mpr ⟨listed, decide_eq_true new⟩
  · rename_i plan found
    split
    · exact h
    · rename_i open_
      have taken : s.takenIn (.planProgress progress) = progress.childJobs.filter (fun job => s.Lacks job.id) := by
        simp only [takenIn, found, Option.any_some, open_, Bool.false_eq_true, ↓reduceIte]
      refine Rows.insertJobs ?_ sorted fun job listed new => own job ?_
      · exact h.congr rfl
      · rw [taken]
        exact List.mem_filter.mpr ⟨listed, decide_eq_true new⟩

section

variable (stable : ∀ job state, Q job → Q { job with state := state })

include stable

theorem withState_keeps {state : TransferState} (job new : TransferJob) (h : withState state job = some new)
    (own : Q job) : Q new := by
  unfold withState at h
  split_ifs at h
  cases h
  exact stable job state own

theorem Rows.setJobState (h : Rows Q s) (transferId : TransferId) (state : TransferState) :
    Rows Q (s.setJobState transferId state).1 := h.edit transferId withState_id (withState_keeps stable)

theorem Rows.settleJobs (h : Rows Q s) (plan : TransferPlan) (stale : TransferJob → Bool) (state : TransferState) :
    Rows Q (s.settleJobs plan stale state).1 := by
  rw [settleJobs_touches h.ascending]
  refine h.map (settled_id stale state) ?_ rfl
  intro job own
  unfold settle
  split_ifs
  · exact stable job state own
  · exact own
  · exact own

theorem Rows.finalizePlanForJob (h : Rows Q s) (transferId : TransferId) : Rows Q (s.finalizePlanForJob transferId).1 := by
  unfold TransferStore.finalizePlanForJob
  split
  · rename_i planIndex plan _
    unfold finalizePlan
    split
    · exact h
    · split
      · exact h
      · split
        · exact h
        · refine h.map ?_ ?_ (updateKey_eq_map _ _ _ h.ascending.nodup)
          · intro job
            split <;> rfl
          · intro job own
            split
            · exact stable job _ own
            · exact own
  · split
    · exact h.congr rfl
    · exact h

theorem Rows.setTransferTerminal (h : Rows Q s) (transferId : TransferId) (state : TransferState) :
    Rows Q (s.setTransferTerminal transferId state).1 := by
  unfold TransferStore.setTransferTerminal
  apply Rows.finalizePlanForJob stable
  exact (h.setJobState stable transferId state).congr (by simp)

theorem Rows.applyPlanCompleted (h : Rows Q s) (planId : TransferPlanId) : Rows Q (s.applyPlanCompleted planId).1 := by
  unfold TransferStore.applyPlanCompleted
  split
  · exact h
  · split
    · exact h
    · refine Rows.setJobState stable ?_ _ _
      exact h.congr rfl

theorem Rows.setPlanCancelled (h : Rows Q s) (planId : TransferPlanId) : Rows Q (s.setPlanCancelled planId).1 := by
  unfold TransferStore.setPlanCancelled
  split
  · exact h
  · split
    · exact h
    · exact h
    · have settled := h.settleJobs stable
      dsimp only
      split
      · exact (settled _ _ _).congr rfl
      · exact settled _ _ _

theorem Rows.setPlanTerminalState (h : Rows Q s) (planId : TransferPlanId) (planState : TransferPlanState)
    (jobState : TransferState) : Rows Q (s.setPlanTerminalState planId planState jobState).1 := by
  unfold TransferStore.setPlanTerminalState
  split
  · exact h
  · refine (Rows.settleJobs stable ?_ _ _ _).congr rfl
    exact h.congr rfl

theorem Rows.applyProgress (h : Rows Q s) (progress : TransferProgress) (now : Timestamp) :
    Rows Q (s.applyProgress progress now).1 := by
  rw [applyProgress_eq]
  apply h.edit
  · intro job new edited
    obtain ⟨_, _, rfl⟩ := progressEdit_some edited
    rfl
  · intro job new edited own
    obtain ⟨_, _, rfl⟩ := progressEdit_some edited
    exact stable job _ own

theorem Rows.applyEvent (h : Rows Q s) {event : TransferEvent} (own : ∀ job ∈ s.takenIn event, Q job)
    (sorted : event.announced.Pairwise (fun a b => a.id < b.id))
    (warned : ∀ job warning, warning ∉ job.warnings → Q job → Q { job with warnings := job.warnings ++ [warning] })
    (now : Timestamp) : Rows Q (s.applyEvent event now).1 := by
  have h0 : Rows Q { s with justFinishedPlan := none } := h.congr rfl
  cases event with
  | planStarted snapshot =>
    have inserted : Rows Q ({ s with justFinishedPlan := none }.insertPlan snapshot.plan).1 := by
      rw [insertPlan_frame]
      exact h0.congr rfl
    refine inserted.insertJob fun new => own _ ?_
    rw [insertPlan_frame] at new
    exact List.mem_filter.mpr ⟨List.mem_singleton_self _, decide_eq_true new⟩
  | planProgress progress => exact h0.applyPlanProgress own sorted
  | planCompleted planId => exact h0.applyPlanCompleted stable planId
  | planCancelled planId => exact h0.setPlanCancelled stable planId
  | planFailed planId error => exact h0.setPlanTerminalState stable planId _ _
  | conflict prompt =>
    refine (h0.setJobState stable prompt.transferId (.waitingForConflictDecision prompt.planId prompt.requestId)).congr ?_
    simp [TransferStore.applyEvent, applyConflict]
  | running job => exact h0.upsertJob (own job (List.mem_singleton_self _))
  | progress made => exact h0.applyProgress stable made now
  | warning raised =>
    apply h0.edit
    · intro job new edited
      split at edited <;> cases edited
      rfl
    · intro job new edited own
      split at edited
      · cases edited
      · rename_i unknown
        cases edited
        exact warned job raised unknown own
  | completed transferId => exact h0.setTransferTerminal stable transferId _
  | skipped transferId => exact h0.setTransferTerminal stable transferId _
  | failed failure => exact h0.setTransferTerminal stable failure.transferId _

end

theorem Rows.apply (stable : ∀ job state, Q job → Q { job with state := state })
    (warned : ∀ job warning, warning ∉ job.warnings → Q job → Q { job with warnings := job.warnings ++ [warning] })
    (h : Rows Q s) {op : StoreOp} (own : ∀ event now, op = .applyEvent event now →
      (∀ job ∈ s.takenIn event, Q job) ∧ event.announced.Pairwise (fun a b => a.id < b.id)) :
    Rows Q (s.apply op).1 := by
  cases op with
  | applyEvent event now =>
    obtain ⟨each, sorted⟩ := own event now rfl
    exact h.applyEvent stable each sorted warned now
  | markCancelling transferId =>
    apply h.edit
    · intro job new edited
      split at edited <;> cases edited <;> rfl
    · intro job new edited own
      split at edited
      · cases edited
        exact stable job _ own
      · cases edited
        exact stable job _ own
      · cases edited
  | removeConflict requestId => exact h.congr rfl
  | clearTerminal =>
    exact ⟨h.ascending.sublist List.filter_sublist, fun job member => h.each job (List.mem_of_mem_filter member)⟩

@[simp] theorem editJob_conflicts (s : TransferStore) (transferId : TransferId)
    (edit : TransferJob → Option TransferJob) : (s.editJob transferId edit).1.pendingConflicts = s.pendingConflicts := by
  unfold editJob
  split
  · rfl
  · split <;> rfl

@[simp] theorem settleJobs_conflicts (s : TransferStore) (plan : TransferPlan) (stale : TransferJob → Bool)
    (state : TransferState) : (s.settleJobs plan stale state).1.pendingConflicts = s.pendingConflicts := by
  unfold settleJobs
  split
  · exact editJob_conflicts _ _ _
  · split
    · exact editJob_conflicts _ _ _
    · rfl

theorem removeConflicts_sublist (s : TransferStore) (ids : List ConflictRequestId) :
    List.Sublist (s.removeConflicts ids).1.pendingConflicts s.pendingConflicts := by
  induction ids generalizing s with
  | nil => exact List.Sublist.refl _
  | cons id rest ih => exact (ih (s.removeConflict id).1).trans List.filter_sublist

theorem finalizePlanForJob_conflicts (s : TransferStore) (transferId : TransferId) :
    (s.finalizePlanForJob transferId).1.pendingConflicts = s.pendingConflicts := by
  unfold TransferStore.finalizePlanForJob
  split
  · unfold finalizePlan
    split
    · rfl
    · split
      · rfl
      · split <;> rfl
  · split <;> rfl

theorem upsertConflict_nodup (h : (s.pendingConflicts.map (fun conflict => conflict.id)).Nodup) (conflict : ConflictRequest) :
    ((s.upsertConflict conflict).1.pendingConflicts.map (fun conflict => conflict.id)).Nodup := by
  unfold upsertConflict
  split
  · split
    · exact h
    · rename_i existing found _
      have same : (updateKey (fun existing : ConflictRequest => existing.id) conflict.id (fun _ => conflict)
          s.pendingConflicts).map (fun other => other.id) = s.pendingConflicts.map (fun other => other.id) := by
        rw [updateKey_eq_map _ _ _ h, List.map_map]
        apply List.map_congr_left
        intro other _
        simp only [Function.comp_apply]
        split
        · rename_i is
          exact is.symm
        · rfl
      rw [same]
      exact h
  · rename_i absent
    rw [List.map_append, List.nodup_append']
    refine ⟨h, List.nodup_singleton _, ?_⟩
    intro id there here
    obtain ⟨other, member, rfl⟩ := List.mem_map.mp there
    exact (findKey_eq_none _).mp absent other member (List.mem_singleton.mp here)

theorem applyEvent_conflicts {event : TransferEvent} (now : Timestamp) (ends : event.outcome = none)
    (asked : ∀ prompt, event ≠ .conflict prompt) : (s.applyEvent event now).1.pendingConflicts = s.pendingConflicts := by
  cases event with
  | planStarted snapshot =>
    show (({ s with justFinishedPlan := none }.insertPlan snapshot.plan).1.insertJob snapshot.rootJob).1.pendingConflicts = _
    rw [insertJob_frame, insertPlan_frame]
  | planProgress progress =>
    show (applyPlanProgress _ progress).1.pendingConflicts = _
    unfold applyPlanProgress
    split
    · rw [insertJobs_frame]
    · split
      · rfl
      · dsimp only
        rw [insertJobs_frame]
  | planCompleted planId =>
    show (applyPlanCompleted _ planId).1.pendingConflicts = _
    unfold applyPlanCompleted
    split
    · rfl
    · split
      · rfl
      · exact editJob_conflicts _ _ _
  | planCancelled planId =>
    show (setPlanCancelled _ planId).1.pendingConflicts = _
    unfold setPlanCancelled
    split
    · rfl
    · split
      · rfl
      · rfl
      · dsimp only
        split <;> exact settleJobs_conflicts _ _ _ _
  | planFailed planId error =>
    show (setPlanTerminalState _ planId _ _).1.pendingConflicts = _
    unfold setPlanTerminalState
    split
    · rfl
    · exact settleJobs_conflicts _ _ _ _
  | conflict prompt => exact absurd rfl (asked prompt)
  | running job =>
    show (TransferStore.upsertJob _ job).1.pendingConflicts = _
    unfold TransferStore.upsertJob
    split
    · split <;> rfl
    · rfl
  | progress made => exact editJob_conflicts _ _ _
  | warning raised => exact editJob_conflicts _ _ _
  | completed | skipped | failed => cases ends

theorem outcome_conflicts {event : TransferEvent} (now : Timestamp) (ends : event.outcome ≠ none) :
    List.Sublist (s.applyEvent event now).1.pendingConflicts s.pendingConflicts := by
  obtain ⟨⟨transferId, state⟩, outcome⟩ := Option.ne_none_iff_exists'.mp ends
  rw [applyEvent_outcome outcome, finalizePlanForJob_conflicts]
  refine (removeConflicts_sublist _ _).trans ?_
  have same : ({ s with justFinishedPlan := none }.setJobState transferId state).1.pendingConflicts = s.pendingConflicts :=
    editJob_conflicts _ _ _
  rw [same]

theorem apply_conflicts (h : (s.pendingConflicts.map (fun conflict => conflict.id)).Nodup) (op : StoreOp) :
    ((s.apply op).1.pendingConflicts.map (fun conflict => conflict.id)).Nodup := by
  cases op with
  | markCancelling transferId =>
    rw [show (s.apply (.markCancelling transferId)).1 = (s.markCancelling transferId).1 from rfl, markCancelling,
      editJob_conflicts]
    exact h
  | removeConflict requestId => exact h.sublist (List.filter_sublist.map _)
  | clearTerminal => exact h
  | applyEvent event now =>
    show ((s.applyEvent event now).1.pendingConflicts.map _).Nodup
    by_cases ends : event.outcome = none
    · by_cases asked : ∃ prompt, event = .conflict prompt
      · obtain ⟨prompt, rfl⟩ := asked
        apply upsertConflict_nodup
        exact (congrArg (List.map _) (editJob_conflicts _ _ _)).symm ▸ h
      · push Not at asked
        rw [applyEvent_conflicts now ends asked]
        exact h
    · exact h.sublist ((outcome_conflicts now ends).map _)

theorem takenIn_stored (asc : Ascending (fun job => job.id) s.jobs) {event : TransferEvent}
    (sorted : event.announced.Pairwise (fun a b => a.id < b.id)) (now : Timestamp) {job : TransferJob}
    (taken : job ∈ s.takenIn event) : job ∈ (s.applyEvent event now).1.jobs := by
  cases event with
  | planStarted snapshot =>
    obtain ⟨listed, new⟩ := List.mem_filter.mp taken
    have asc0 : Ascending (fun job => job.id) ({ s with justFinishedPlan := none }.insertPlan snapshot.plan).1.jobs := by
      rw [insertPlan_frame]
      exact asc
    refine (mem_insertJob asc0).mpr (Or.inr ⟨List.mem_singleton.mp listed, ?_⟩)
    rw [insertPlan_frame, ← List.mem_singleton.mp listed]
    exact of_decide_eq_true new
  | planProgress progress =>
    simp only [takenIn] at taken
    split at taken
    · cases taken
    · rename_i open_
      obtain ⟨listed, new⟩ := List.mem_filter.mp taken
      have stored : ∀ plans, job ∈ ({ s with plans := plans, justFinishedPlan := none }.insertJobs progress.childJobs).1.jobs :=
        fun plans => (mem_insertJobs (s := { s with plans := plans, justFinishedPlan := none }) asc sorted).mpr
          (Or.inr ⟨listed, of_decide_eq_true new⟩)
      show job ∈ (applyPlanProgress _ progress).1.jobs
      unfold applyPlanProgress
      split
      · exact stored s.plans
      · rename_i plan found
        rw [show s.findPlan progress.planId = some plan from found, Option.any_some] at open_
        rw [if_neg open_]
        exact stored _
  | running snapshot =>
    rw [List.mem_singleton.mp taken]
    show snapshot ∈ (TransferStore.upsertJob _ snapshot).1.jobs
    unfold TransferStore.upsertJob
    split
    · rename_i index found
      obtain ⟨old, hi, _⟩ := binarySearch_ok found
      split
      · rename_i same
        exact List.mem_of_getElem? same
      · exact List.mem_set (List.getElem?_eq_some_iff.mp hi).1 snapshot
    · exact (mem_insert_of_error ‹_›).mpr (Or.inl rfl)
  | planCompleted | planCancelled | planFailed | conflict | progress | warning | completed | skipped | failed =>
    cases taken

theorem finalizePlanForJob_shape (s : TransferStore) (transferId : TransferId) :
    (s.finalizePlanForJob transferId).1.plans.map TransferPlan.shape = s.plans.map TransferPlan.shape := by
  unfold TransferStore.finalizePlanForJob
  split
  · unfold finalizePlan
    split
    · rfl
    · split
      · rfl
      · split
        · rfl
        · exact modify_shape _ _ _
  · split <;> rfl

theorem applyEvent_shape {event : TransferEvent} (now : Timestamp) (started : ∀ snapshot, event ≠ .planStarted snapshot)
    (progressed : ∀ progress, event ≠ .planProgress progress) :
    (s.applyEvent event now).1.plans.map TransferPlan.shape = s.plans.map TransferPlan.shape := by
  cases event with
  | planStarted snapshot => exact absurd rfl (started snapshot)
  | planProgress progress => exact absurd rfl (progressed progress)
  | planCompleted planId =>
    show (applyPlanCompleted _ planId).1.plans.map _ = _
    unfold applyPlanCompleted
    split
    · rfl
    · split
      · rfl
      · exact (congrArg _ (editJob_plans _ _ _)).trans (modify_shape _ _ _)
  | planCancelled planId =>
    show (setPlanCancelled _ planId).1.plans.map _ = _
    unfold setPlanCancelled
    split
    · rfl
    · split
      · rfl
      · rfl
      · dsimp only
        split
        · exact (modify_shape _ _ _).trans (congrArg _ (settleJobs_plans _ _ _ _))
        · exact congrArg _ (settleJobs_plans _ _ _ _)
  | planFailed planId error =>
    show (setPlanTerminalState _ planId _ _).1.plans.map _ = _
    unfold setPlanTerminalState
    split
    · rfl
    · exact (congrArg _ (settleJobs_plans _ _ _ _)).trans (modify_shape _ _ _)
  | conflict prompt =>
    refine congrArg _ ((upsertConflict_plans _ _).trans ?_)
    exact editJob_plans _ _ _
  | running job =>
    show (TransferStore.upsertJob _ job).1.plans.map _ = _
    unfold TransferStore.upsertJob
    split
    · split <;> rfl
    · rfl
  | progress made => exact congrArg _ (editJob_plans _ _ _)
  | warning raised => exact congrArg _ (editJob_plans _ _ _)
  | completed | skipped | failed =>
    refine (finalizePlanForJob_shape _ _).trans (congrArg _ ?_)
    exact (removeConflicts_plans _ _).trans (editJob_plans _ _ _)

theorem extendChildren_merged {children : List TransferId} {batch : List TransferJob}
    (asc : Ascending (fun id => id) children) (sorted : batch.Pairwise (fun a b => a.id < b.id)) :
    (extendChildren children batch).1 = children ++ (batch.map (fun job => job.id)).filter (· ∉ children) := by
  unfold extendChildren
  split_ifs with ascending
  · have all : (batch.map (fun job => job.id)).filter (· ∉ children) = batch.map (fun job => job.id) := by
      rw [List.filter_eq_self]
      intro id listed
      obtain ⟨job, hj, rfl⟩ := List.mem_map.mp listed
      simp only [decide_eq_true_eq]
      intro there
      obtain ⟨last, hl⟩ : ∃ last, children.getLast? = some last :=
        ⟨_, List.getLast?_eq_some_getLast (List.ne_nil_of_mem there)⟩
      obtain ⟨firstNew, hf⟩ : ∃ firstNew, batch.head? = some firstNew :=
        ⟨_, List.head?_eq_some_head (List.ne_nil_of_mem hj)⟩
      simp only [hl, hf, Option.map_some, isMonotonicallyAscending, decide_eq_true_eq] at ascending
      have lower : job.id ≤ last := asc.le_getLast there hl
      have upper : firstNew.id ≤ job.id := Ascending.head_le sorted hj hf
      exact absurd (ascending.trans_le upper) (not_lt.mpr lower)
    rw [all]
  · simp only [List.append_cancel_left_eq]
    rw [List.filter_map, ← List.filterMap_eq_map, List.filterMap_filter]
    apply List.filterMap_congr
    intro job _
    have known := IdMatcher.contains_new children job.id
    by_cases there : job.id ∈ children
    · simp [known.mpr there, there]
    · simp [Bool.eq_false_iff.mpr (fun h => there (known.mp h)), there]

theorem extendChildren_ascending_iff {children : List TransferId} {batch : List TransferJob}
    (asc : Ascending (fun id => id) children) (sorted : batch.Pairwise (fun a b => a.id < b.id)) :
    Ascending (fun id => id) (extendChildren children batch).1 ↔
      ∀ id ∈ children, ∀ job ∈ batch, job.id ∈ children ∨ id < job.id := by
  have ids : Ascending (fun id => id) ((batch.map (fun job => job.id)).filter (· ∉ children)) :=
    Ascending.sublist (List.pairwise_map.mpr sorted) List.filter_sublist
  rw [extendChildren_merged asc sorted]
  constructor
  · intro result id there job hj
    by_cases known : job.id ∈ children
    · exact Or.inl known
    · refine Or.inr ((List.pairwise_append.mp result).2.2 id there job.id ?_)
      exact List.mem_filter.mpr ⟨List.mem_map_of_mem hj, decide_eq_true known⟩
  · intro above
    refine asc.append ids ?_
    intro id there new hn
    obtain ⟨listed, unknown⟩ := List.mem_filter.mp hn
    obtain ⟨job, hj, rfl⟩ := List.mem_map.mp listed
    exact (above id there job hj).resolve_left (of_decide_eq_true unknown)

structure Ordered (s : TransferStore) : Prop where
  jobs : Ascending (fun job => job.id) s.jobs
  plans : (s.plans.map (fun plan => plan.id)).Nodup
  children : ∀ plan ∈ s.plans, Ascending (fun id => id) plan.childJobs
  conflicts : (s.pendingConflicts.map (fun conflict => conflict.id)).Nodup
  warnings : ∀ job ∈ s.jobs, job.warnings.Nodup

instance (s : TransferStore) : Decidable s.Ordered :=
  decidable_of_iff (Ascending (fun job => job.id) s.jobs ∧ (s.plans.map (fun plan => plan.id)).Nodup ∧
      (∀ plan ∈ s.plans, Ascending (fun id => id) plan.childJobs) ∧
      (s.pendingConflicts.map (fun conflict => conflict.id)).Nodup ∧ ∀ job ∈ s.jobs, job.warnings.Nodup)
    ⟨fun ⟨jobs, plans, children, conflicts, warnings⟩ => ⟨jobs, plans, children, conflicts, warnings⟩,
      fun h => ⟨h.jobs, h.plans, h.children, h.conflicts, h.warnings⟩⟩

/-- A new plan brings sorted children, and what reaches an open plan beyond the children it has lies above
all of them. -/
def ContinuesChildren (s : TransferStore) : TransferEvent → Prop
  | .planStarted snapshot =>
    (∃ plan ∈ s.plans, plan.id = snapshot.plan.id) ∨ Ascending (fun id => id) snapshot.plan.childJobs
  | .planProgress progress => ∀ plan ∈ s.plans, plan.id = progress.planId → plan.state.isTerminal = false →
      ∀ id ∈ plan.childJobs, ∀ job ∈ progress.childJobs, job.id ∈ plan.childJobs ∨ id < job.id
  | _ => True

def Orderly (s : TransferStore) : StoreOp → Prop
  | .applyEvent event _ => s.ContinuesChildren event ∧ ∀ job ∈ s.takenIn event, job.warnings.Nodup
  | _ => True

instance (s : TransferStore) (event : TransferEvent) : Decidable (s.ContinuesChildren event) :=
  match event with
  | .planStarted _ => inferInstanceAs (Decidable (_ ∨ _))
  | .planProgress progress => inferInstanceAs (Decidable (∀ plan ∈ s.plans, plan.id = progress.planId → _))
  | .planCompleted _ | .planCancelled _ | .planFailed _ _ | .conflict _ | .running _ | .progress _ | .warning _
  | .completed _ | .skipped _ | .failed _ => isTrue trivial

instance (s : TransferStore) (op : StoreOp) : Decidable (s.Orderly op) :=
  match op with
  | .applyEvent _ _ => inferInstanceAs (Decidable (_ ∧ _))
  | .markCancelling _ | .removeConflict _ | .clearTerminal => isTrue trivial

theorem announced_sorted {event : TransferEvent} {now : Timestamp} (sorted : StoreOp.Sorted (.applyEvent event now)) :
    event.announced.Pairwise (fun a b => a.id < b.id) := by
  cases event with
  | planProgress progress => exact sorted
  | planStarted | running => exact List.pairwise_singleton _ _
  | planCompleted | planCancelled | planFailed | conflict | progress | warning | completed | skipped | failed =>
    exact List.Pairwise.nil

section

variable {P : TransferPlan → Prop}

/-- The plans are told apart by their ids, and each has a property of its ids. -/
structure PlansHave (P : TransferPlan → Prop) (plans : List TransferPlan) : Prop where
  ids : (plans.map (fun plan => plan.id)).Nodup
  each : ∀ plan ∈ plans, P plan

def Brings (s : TransferStore) (P : TransferPlan → Prop) : TransferEvent → Prop
  | .planStarted snapshot => (∃ plan ∈ s.plans, plan.id = snapshot.plan.id) ∨ P snapshot.plan
  | .planProgress progress => ∀ plan ∈ s.plans, plan.id = progress.planId → plan.state.isTerminal = false →
      P (extendPlan plan progress).1
  | _ => True

theorem insertPlan_plansHave_iff (h : PlansHave P s.plans) (plan : TransferPlan) :
    PlansHave P (s.insertPlan plan).1.plans ↔ (∃ other ∈ s.plans, other.id = plan.id) ∨ P plan := by
  unfold insertPlan
  split_ifs with known
  · simp only [List.any_eq_true, decide_eq_true_eq] at known
    exact iff_of_true h (Or.inl known)
  · simp only [List.any_eq_true, decide_eq_true_eq] at known
    constructor
    · intro after
      exact Or.inr (after.each plan (List.mem_append_right _ (List.mem_singleton_self plan)))
    · intro condition
      have own := condition.resolve_left known
      constructor
      · rw [List.map_append, List.nodup_append']
        refine ⟨h.ids, List.nodup_singleton _, ?_⟩
        intro id there here
        obtain ⟨other, ho, rfl⟩ := List.mem_map.mp there
        exact known ⟨other, ho, List.mem_singleton.mp here⟩
      · intro other ho
        rcases List.mem_append.mp ho with ho | ho
        · exact h.each other ho
        · rw [List.mem_singleton.mp ho]
          exact own

theorem updated_plansHave_iff (h : PlansHave P s.plans) {plan p : TransferPlan} (hp : plan ∈ s.plans)
    {planId : TransferPlanId} (named : plan.id = planId) (same : p.id = planId) :
    PlansHave P (updateKey (fun plan => plan.id) planId (fun _ => p) s.plans) ↔ P p := by
  rw [updateKey_eq_map _ _ _ h.ids]
  constructor
  · intro after
    have own := after.each _ (List.mem_map_of_mem hp)
    rw [if_pos named] at own
    exact own
  · intro own
    constructor
    · rw [List.map_map]
      have ids : s.plans.map ((fun plan => plan.id) ∘ fun other => if other.id = planId then p else other) =
          s.plans.map (fun plan => plan.id) := by
        apply List.map_congr_left
        intro other _
        simp only [Function.comp_apply]
        split_ifs with is
        · exact same.trans is.symm
        · rfl
      rw [ids]
      exact h.ids
    · intro other ho
      obtain ⟨before, hb, rfl⟩ := List.mem_map.mp ho
      split_ifs
      · exact own
      · exact h.each before hb

variable (shaped : ∀ plan other : TransferPlan, plan.shape = other.shape → P plan → P other)

include shaped

theorem PlansHave.of_shape {plans plans' : List TransferPlan} (h : PlansHave P plans)
    (same : plans'.map TransferPlan.shape = plans.map TransferPlan.shape) : PlansHave P plans' := by
  constructor
  · rw [ids_of_shape same]
    exact h.ids
  · intro plan hp
    obtain ⟨before, hb, he⟩ := mem_of_shape same hp
    exact shaped before plan he (h.each before hb)

theorem applyEvent_plansHave_iff (h : PlansHave P s.plans) (event : TransferEvent) (now : Timestamp) :
    PlansHave P (s.applyEvent event now).1.plans ↔ s.Brings P event := by
  by_cases started : ∃ snapshot, event = .planStarted snapshot
  · obtain ⟨snapshot, rfl⟩ := started
    have plans : (s.applyEvent (.planStarted snapshot) now).1.plans =
        ({ s with justFinishedPlan := none }.insertPlan snapshot.plan).1.plans := insertJob_plans _ _
    rw [plans]
    exact insertPlan_plansHave_iff (s := { s with justFinishedPlan := none }) h snapshot.plan
  by_cases progressed : ∃ progress, event = .planProgress progress
  · obtain ⟨progress, rfl⟩ := progressed
    show PlansHave P (applyPlanProgress _ progress).1.plans ↔ _
    unfold applyPlanProgress
    split
    · rename_i unknown
      have none_ := (findKey_eq_none _).mp unknown
      rw [insertJobs_frame]
      exact iff_of_true h fun plan hp named => absurd named (none_ plan hp)
    · rename_i plan found
      obtain ⟨hp, named⟩ := findKey_mem (fun plan : TransferPlan => plan.id) found
      have only : ∀ other ∈ s.plans, other.id = progress.planId → other = plan := fun other ho is =>
        key_unique (fun plan => plan.id) h.ids ho hp (is.trans named.symm)
      split
      · rename_i closed
        refine iff_of_true h ?_
        intro other ho is open_
        rw [only other ho is, closed] at open_
        cases open_
      · rename_i open_
        dsimp only
        rw [insertJobs_frame, updated_plansHave_iff (p := (extendPlan plan progress).1) h hp named named]
        constructor
        · intro own other ho is _
          rw [only other ho is]
          exact own
        · intro brings
          exact brings plan hp named (by simpa using open_)
  push Not at started progressed
  have condition : s.Brings P event := by
    cases event with
    | planStarted snapshot => exact absurd rfl (started snapshot)
    | planProgress progress => exact absurd rfl (progressed progress)
    | planCompleted | planCancelled | planFailed | conflict | running | progress | warning | completed | skipped
    | failed => trivial
  exact iff_of_true (h.of_shape shaped (applyEvent_shape now started progressed)) condition

end

theorem ascending_shaped (plan other : TransferPlan) (same : plan.shape = other.shape)
    (asc : Ascending (fun id => id) plan.childJobs) : Ascending (fun id => id) other.childJobs := by
  simp only [TransferPlan.shape, Prod.mk.injEq] at same
  rw [← same.2.2]
  exact asc

theorem brings_ascending_iff (children : ∀ plan ∈ s.plans, Ascending (fun id => id) plan.childJobs)
    {event : TransferEvent} {now : Timestamp} (sorted : StoreOp.Sorted (.applyEvent event now)) :
    s.Brings (fun plan => Ascending (fun id => id) plan.childJobs) event ↔ s.ContinuesChildren event := by
  cases event with
  | planStarted snapshot => exact Iff.rfl
  | planProgress progress =>
    refine forall₂_congr fun plan hp => ?_
    exact imp_congr_right fun _ => imp_congr_right fun _ => extendChildren_ascending_iff (children plan hp) sorted
  | planCompleted | planCancelled | planFailed | conflict | running | progress | warning | completed | skipped
  | failed => exact Iff.rfl

theorem apply_ordered_iff (h : s.Ordered) {op : StoreOp} (sorted : StoreOp.Sorted op) :
    (s.apply op).1.Ordered ↔ s.Orderly op := by
  have rows : (∀ event now, op = .applyEvent event now → ∀ job ∈ s.takenIn event, job.warnings.Nodup) →
      Rows (fun job => job.warnings.Nodup) (s.apply op).1 := by
    intro own
    refine Rows.apply (fun _ _ nodup => nodup) ?_ ⟨h.jobs, h.warnings⟩ ?_
    · intro job warning unknown nodup
      exact List.nodup_append'.mpr ⟨nodup, List.nodup_singleton _, List.disjoint_singleton.mpr unknown⟩
    · rintro event now rfl
      exact ⟨own event now rfl, announced_sorted sorted⟩
  have conflicts := apply_conflicts h.conflicts op
  cases op with
  | applyEvent event now =>
    have plans := (applyEvent_plansHave_iff ascending_shaped ⟨h.plans, h.children⟩ event now).trans
      (brings_ascending_iff h.children sorted)
    constructor
    · intro after
      refine ⟨plans.mp ⟨after.plans, after.children⟩, ?_⟩
      intro job taken
      exact after.warnings job (takenIn_stored h.jobs (announced_sorted sorted) now taken)
    · rintro ⟨continues, own⟩
      have kept : Rows (fun job => job.warnings.Nodup) (s.apply (.applyEvent event now)).1 := by
        apply rows
        rintro _ _ ⟨⟩
        exact own
      have ordered := plans.mpr continues
      exact ⟨kept.ascending, ordered.ids, ordered.each, conflicts, kept.each⟩
  | markCancelling transferId =>
    have kept := rows (by rintro _ _ ⟨⟩)
    have plans : (s.apply (.markCancelling transferId)).1.plans = s.plans := editJob_plans _ _ _
    exact iff_of_true ⟨kept.ascending, plans ▸ h.plans, plans ▸ h.children, conflicts, kept.each⟩ trivial
  | removeConflict requestId =>
    exact iff_of_true ⟨h.jobs, h.plans, h.children, conflicts, h.warnings⟩ trivial
  | clearTerminal =>
    have kept := rows (by rintro _ _ ⟨⟩)
    refine iff_of_true ⟨kept.ascending, ?_, ?_, conflicts, kept.each⟩ trivial
    · exact h.plans.sublist (List.filter_sublist.map _)
    · exact fun plan hp => h.children plan (List.mem_of_mem_filter hp)

theorem empty_ordered : ({} : TransferStore).Ordered :=
  ⟨List.Pairwise.nil, List.nodup_nil, by simp, List.nodup_nil, by simp⟩

theorem representation_ordered_iff (ops : List StoreOp) (sorted : ∀ op ∈ ops, StoreOp.Sorted op) :
    (∀ k, (machine.run {} (ops.take k)).Ordered) ↔ machine.Admissible Orderly {} ops :=
  machine.invariant_iff_admissible (V := fun _ => True) (fun _ _ _ _ => trivial)
    (fun _ op member _ ordered => apply_ordered_iff ordered (sorted op member)) trivial empty_ordered

theorem representation_ordered_replayed :
    machine.Admissible Orderly {} (interleavedPlans ++ interleavedPlans) ∧
      ∀ k, (machine.run {} ((interleavedPlans ++ interleavedPlans).take k)).Ordered := by
  have orderly : machine.Admissible Orderly {} (interleavedPlans ++ interleavedPlans) := by decide
  exact ⟨orderly, (representation_ordered_iff (interleavedPlans ++ interleavedPlans) (by decide)).mpr orderly⟩

def clearedRun : List StoreOp := sampleEvents
  [.planStarted ⟨samplePlan 1 1 [], sampleJob 1⟩, .planProgress ⟨⟨1⟩, [sampleJob 2], 1, some 0⟩,
    .planProgress ⟨⟨1⟩, [sampleJob 3], 2, some 0⟩, .planCompleted ⟨1⟩, .completed ⟨2⟩, .completed ⟨3⟩] ++ [.clearTerminal]

/-- The plan is announced anew, its second batch comes before the first, and then once more. -/
def replays : List StoreOp := sampleEvents
  [.planStarted ⟨samplePlan 1 1 [], sampleJob 1⟩, .planProgress ⟨⟨1⟩, [sampleJob 3], 2, some 0⟩,
    .planProgress ⟨⟨1⟩, [sampleJob 2], 1, some 0⟩, .planProgress ⟨⟨1⟩, [sampleJob 3], 2, some 0⟩]

theorem replay_after_clear_repeats_child :
    machine.Admissible (fun s op => op.Legal s) {} clearedRun ∧ (∀ op ∈ replays, op ∈ clearedRun) ∧
      (machine.run {} (clearedRun ++ replays)).plans.map (fun plan => plan.childJobs) = [[⟨3⟩, ⟨2⟩, ⟨3⟩]] ∧
      ¬ (machine.run {} (clearedRun ++ replays)).Ordered := by
  refine ⟨by decide, by decide, by decide, by decide⟩

end TransferStore

end MacSftp
