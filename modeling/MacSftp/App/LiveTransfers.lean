import MacSftp.App.Covered

namespace MacSftp

open Lib

/-- Clearing leaves the plan one of its rows to be shown by, while the other has work. -/
def TransferPlan.Clears (plan : TransferPlan) (look : TransferId → Option TransferState) : Prop :=
  if plan.state.byRoot then
    ∀ child ∈ plan.childJobs, ∀ state, look child = some state → state.isTerminal = false →
      ∃ root, look plan.rootJobId = some root ∧ root.isTerminal = false
  else
    plan.childJobs ≠ [] → ∀ root, look plan.rootJobId = some root → root.isTerminal = false →
      ∃ child ∈ plan.childJobs, ∃ state, look child = some state ∧ state.isTerminal = false

instance (plan : TransferPlan) (look : TransferId → Option TransferState) : Decidable (plan.Clears look) := by
  delta TransferPlan.Clears
  infer_instance

namespace TransferStore

/-- Ending the plan ends no other plan's root that still stands for a live child. -/
def SparesRoots (s : TransferStore) (plan : TransferPlan) : Prop :=
  ∀ other ∈ s.plans, other.state.byRoot = true → s.Touches plan other.rootJobId →
    ∀ child ∈ other.childJobs, ∀ state, s.stateOf child = some state → state.isLive = true → s.Touches plan child

instance (s : TransferStore) (plan : TransferPlan) : Decidable (s.SparesRoots plan) :=
  inferInstanceAs (Decidable (∀ other ∈ s.plans, _))

end TransferStore

/-- The step keeps every plan with work in sight. -/
def StoreOp.Suits (s : TransferStore) : StoreOp → Prop
  | .applyEvent event now =>
    match event with
    | .planStarted snapshot =>
      s.stateOf snapshot.rootJob.id = none → s.FitsAll snapshot.rootJob.id snapshot.rootJob.state
    | .planProgress progress => ∀ plan ∈ s.plans, plan.id = progress.planId → plan.state = .planning →
        ∀ job ∈ progress.childJobs, plan.Backs s.stateOf ((s.stateOf job.id).getD job.state)
    | .planCompleted planId => ∀ plan ∈ s.plans, plan.id = planId → plan.state.isTerminal = false → plan.childJobs ≠ [] →
        s.stateOf plan.rootJobId ≠ none → ∃ child ∈ plan.childJobs, s.stateOf child ≠ none
    | .planCancelled planId => ∀ plan ∈ s.plans, plan.id = planId → plan.state.refusesCancel = false → s.SparesRoots plan
    | .planFailed planId _ => ∀ plan ∈ s.plans, plan.id = planId → s.SparesRoots plan
    | .conflict prompt => s.stateOf prompt.transferId ≠ none →
        s.FitsAll prompt.transferId (.waitingForConflictDecision prompt.planId prompt.requestId)
    | .running job => s.FitsAll job.id job.state
    | .progress progress => ∀ state, s.stateOf progress.transferId = some state → state.isTerminal = false →
        state ≠ .cancelling → s.FitsAll progress.transferId (.running progress.bytesDone progress.bytesTotal now)
    | .warning _ => True
    | .completed transferId => s.FitsAll transferId .completed
    | .skipped transferId => s.FitsAll transferId .skipped
    | .failed failure => s.FitsAll failure.transferId (.failed failure.error failure.error.retryable)
  | .clearTerminal => ∀ plan ∈ s.plans, plan.Clears s.stateOf
  | .markCancelling _ | .removeConflict _ => True

instance (s : TransferStore) (op : StoreOp) : Decidable (op.Suits s) :=
  match op with
  | .applyEvent event _ =>
    match event with
    | .planStarted _ => inferInstanceAs (Decidable (_ → _))
    | .planProgress _ | .planCompleted _ | .planCancelled _ | .planFailed _ _ =>
      inferInstanceAs (Decidable (∀ plan ∈ s.plans, _))
    | .conflict _ => inferInstanceAs (Decidable (_ → _))
    | .running _ | .completed _ | .skipped _ | .failed _ => inferInstanceAs (Decidable (s.FitsAll _ _))
    | .progress _ => inferInstanceAs (Decidable (∀ state, _ = some state → _))
    | .warning _ => isTrue trivial
  | .clearTerminal => inferInstanceAs (Decidable (∀ plan ∈ s.plans, _))
  | .markCancelling _ | .removeConflict _ => isTrue trivial

namespace TransferStore

variable {s s' : TransferStore} {id : TransferId} {state : TransferState} {now : Timestamp}

theorem running_covered (valid : s.Valid) (covered : s.AllCovered) (job : TransferJob) :
    (s.applyEvent (.running job) now).1.AllCovered ↔ (StoreOp.applyEvent (.running job) now).Suits s := by
  have cleared : ({ s with justFinishedPlan := none } : TransferStore).Valid := ⟨valid.jobs, valid.plans⟩
  refine allCovered_write valid covered ?_ (stateOf_upsert cleared job)
  show (TransferStore.upsertJob _ job).1.plans = _
  unfold TransferStore.upsertJob
  split
  · split <;> rfl
  · rfl

theorem edit_covered (valid : s.Valid) (covered : s.AllCovered) {edit : TransferJob → Option TransferJob}
    (keep : ∀ job new, edit job = some new → new.id = job.id) (plans : s'.plans = s.plans)
    (hj : s'.jobs = s.jobs.map (editOf id edit)) {job : TransferJob} (found : s.findJob id = some job) :
    s'.AllCovered ↔ s.FitsAll id ((edit job).getD job).state :=
  allCovered_write valid covered plans (stateOf_edit_some valid.jobs keep hj found)

theorem edit_missing (valid : s.Valid) {edit : TransferJob → Option TransferJob}
    (keep : ∀ job new, edit job = some new → new.id = job.id) (plans : s'.plans = s.plans)
    (hj : s'.jobs = s.jobs.map (editOf id edit)) (found : s.findJob id = none) : s'.AllCovered ↔ s.AllCovered :=
  allCovered_same plans (stateOf_edit_none valid.jobs keep hj found)

theorem edit_same (valid : s.Valid) {edit : TransferJob → Option TransferJob}
    (keep : ∀ job new, edit job = some new → new.id = job.id) (plans : s'.plans = s.plans)
    (hj : s'.jobs = s.jobs.map (editOf id edit)) (same : ∀ job, s.findJob id = some job → ((edit job).getD job).state = job.state) :
    s'.AllCovered ↔ s.AllCovered := by
  cases found : s.findJob id with
  | none => exact edit_missing valid keep plans hj found
  | some job =>
    refine allCovered_same plans ?_
    have known : s.stateOf id = some job.state := by simp [stateOf, found]
    rw [stateOf_edit_some valid.jobs keep hj found, same job found, ← known, Function.update_eq_self]

theorem conflict_plans (prompt : TransferConflictPrompt) (now : Timestamp) :
    (s.applyEvent (.conflict prompt) now).1.plans = s.plans :=
  (upsertConflict_plans _ _).trans (editJob_plans _ _ _)

theorem conflict_jobs (valid : s.Valid) (prompt : TransferConflictPrompt) (now : Timestamp) :
    (s.applyEvent (.conflict prompt) now).1.jobs = s.jobs.map
      (editOf prompt.transferId (withState (.waitingForConflictDecision prompt.planId prompt.requestId))) := by
  show (TransferStore.upsertConflict _ _).1.jobs = _
  rw [upsertConflict_jobs]
  exact congrArg (fun edited => edited.1.jobs) (editJob_eq (s := { s with justFinishedPlan := none }) valid.jobs _ _)

theorem conflict_covered (valid : s.Valid) (covered : s.AllCovered) (prompt : TransferConflictPrompt) :
    (s.applyEvent (.conflict prompt) now).1.AllCovered ↔ (StoreOp.applyEvent (.conflict prompt) now).Suits s := by
  have plans := conflict_plans (s := s) prompt now
  have jobs := conflict_jobs valid prompt now
  cases found : s.findJob prompt.transferId with
  | none =>
    rw [edit_missing valid withState_id plans jobs found]
    exact iff_of_true covered fun there => absurd (by simp [stateOf, found]) there
  | some job =>
    rw [edit_covered valid covered withState_id plans jobs found, withState_getD]
    exact ⟨fun fits _ => fits, fun fits => fits (by simp [stateOf, found])⟩

theorem fits_congr {plan : TransferPlan} {look : TransferId → Option TransferState} {other : TransferState}
    (terminal : other.isTerminal = state.isTerminal) (live : other.isLive = state.isLive) :
    plan.Fits look id other ↔ plan.Fits look id state := by
  unfold TransferPlan.Fits TransferPlan.Backs
  rw [terminal, live]

theorem progressEdit_id (progress : TransferProgress) (now : Timestamp) (job new : TransferJob)
    (edited : progressEdit progress now job = some new) : new.id = job.id := by
  obtain ⟨_, _, rfl⟩ := progressEdit_some edited
  rfl

theorem progress_jobs (valid : s.Valid) (progress : TransferProgress) (now : Timestamp) :
    (s.applyEvent (.progress progress) now).1.jobs = s.jobs.map (editOf progress.transferId (progressEdit progress now)) := by
  show (TransferStore.applyProgress _ _ _).1.jobs = _
  rw [applyProgress_eq, editJob_eq (s := { s with justFinishedPlan := none }) valid.jobs]

theorem progress_covered (valid : s.Valid) (covered : s.AllCovered) (progress : TransferProgress) :
    (s.applyEvent (.progress progress) now).1.AllCovered ↔ (StoreOp.applyEvent (.progress progress) now).Suits s := by
  have keep := progressEdit_id progress now
  have plans : (s.applyEvent (.progress progress) now).1.plans = s.plans := editJob_plans _ _ _
  have jobs := progress_jobs valid progress now
  cases found : s.findJob progress.transferId with
  | none =>
    rw [edit_missing valid keep plans jobs found]
    exact iff_of_true covered fun state known => absurd known (by simp [stateOf, found])
  | some job =>
    have known : s.stateOf progress.transferId = some job.state := by simp [stateOf, found]
    by_cases closed : job.state.isTerminal = true ∨ job.state = .cancelling
    · rw [edit_same valid keep plans jobs]
      · refine iff_of_true covered fun state is awake going => ?_
        cases known.symm.trans is
        rcases closed with terminal | cancelling
        · exact absurd (terminal.symm.trans awake) (by simp)
        · exact absurd cancelling going
      · intro row there
        cases found.symm.trans there
        unfold progressEdit
        cases state : job.state <;> simp_all [TransferState.isTerminal]
    · have moved : (((progressEdit progress now job).getD job).state).isTerminal = false ∧
          (((progressEdit progress now job).getD job).state).isLive = true := by
        unfold progressEdit
        cases state : job.state <;> simp_all [withState_getD, TransferState.isTerminal, TransferState.isLive]
      rw [edit_covered valid covered keep plans jobs found]
      have same : s.FitsAll progress.transferId ((progressEdit progress now job).getD job).state ↔
          s.FitsAll progress.transferId (.running progress.bytesDone progress.bytesTotal now) :=
        forall₂_congr fun plan _ => fits_congr moved.1 moved.2
      rw [same]
      refine ⟨fun fits _ _ _ _ => fits, fun fits => fits job.state known ?_ ?_⟩
      · by_contra terminal
        exact closed (Or.inl (by simpa using terminal))
      · exact fun cancelling => closed (Or.inr cancelling)

def warningEdit (warning : TransferWarning) (job : TransferJob) : Option TransferJob :=
  if warning ∈ job.warnings then none else some { job with warnings := job.warnings ++ [warning] }

theorem warningEdit_id (warning : TransferWarning) (job new : TransferJob)
    (edited : warningEdit warning job = some new) : new.id = job.id := by
  unfold warningEdit at edited
  split_ifs at edited
  cases edited
  rfl

theorem warningEdit_state (warning : TransferWarning) (job : TransferJob) :
    ((warningEdit warning job).getD job).state = job.state := by
  unfold warningEdit
  split_ifs <;> rfl

theorem warning_jobs (valid : s.Valid) (warning : TransferWarning) (now : Timestamp) :
    (s.applyEvent (.warning warning) now).1.jobs = s.jobs.map (editOf warning.transferId (warningEdit warning)) :=
  congrArg (fun edited => edited.1.jobs) (editJob_eq (s := { s with justFinishedPlan := none }) valid.jobs _ _)

theorem warning_covered (valid : s.Valid) (covered : s.AllCovered) (warning : TransferWarning) :
    (s.applyEvent (.warning warning) now).1.AllCovered := by
  have plans : (s.applyEvent (.warning warning) now).1.plans = s.plans := editJob_plans _ _ _
  exact (edit_same valid (warningEdit_id warning) plans (warning_jobs valid warning now)
    fun job _ => warningEdit_state warning job).mpr covered

def cancellingEdit (job : TransferJob) : Option TransferJob :=
  match job.state with
  | .queued | .running .. => some { job with state := .cancelling }
  | _ => none

theorem fits_calm {plan : TransferPlan} {look : TransferId → Option TransferState} (covered : plan.Covered look)
    {old : TransferState} (known : look id = some old) (open_ : old.isTerminal = false) (awake : state.isTerminal = false)
    (calm : state.isLive = false) : plan.Fits look id state := by
  unfold TransferPlan.Covered at covered
  unfold TransferPlan.Fits
  split
  · rename_i byRoot
    rw [if_pos byRoot] at covered
    refine ⟨fun child => ⟨fun _ => (covered id child old known).1 open_, fun live => ?_⟩, fun _ terminal => ?_⟩
    · exact absurd (calm.symm.trans live) (by simp)
    · exact absurd (awake.symm.trans terminal) (by simp)
  · rename_i byChildren
    rw [if_neg byChildren] at covered
    rintro rfl children _
    exact covered children old known open_

theorem childless_covered {plan : TransferPlan} (look : TransferId → Option TransferState) (empty : plan.childJobs = []) :
    plan.Covered look := by
  unfold TransferPlan.Covered
  split
  · exact fun child hc => absurd hc (empty ▸ List.not_mem_nil)
  · exact fun children => absurd empty children

theorem cancellingEdit_id (job new : TransferJob) (edited : cancellingEdit job = some new) : new.id = job.id := by
  unfold cancellingEdit at edited
  split at edited <;> cases edited <;> rfl

theorem markCancelling_jobs (valid : s.Valid) (transferId : TransferId) :
    (s.markCancelling transferId).1.jobs = s.jobs.map (editOf transferId cancellingEdit) :=
  congrArg (fun edited => edited.1.jobs) (editJob_eq valid.jobs _ _)

theorem markCancelling_covered (valid : s.Valid) (covered : s.AllCovered) (transferId : TransferId) :
    (s.markCancelling transferId).1.AllCovered := by
  have keep := cancellingEdit_id
  have jobs := markCancelling_jobs valid transferId
  have plans : (s.markCancelling transferId).1.plans = s.plans := editJob_plans _ _ _
  cases found : s.findJob transferId with
  | none => exact (edit_missing valid keep plans jobs found).mpr covered
  | some job =>
    have known : s.stateOf transferId = some job.state := by simp [stateOf, found]
    by_cases going : job.state.isTerminal = false ∧ ((cancellingEdit job).getD job).state = .cancelling
    · refine (edit_covered valid covered keep plans jobs found).mpr fun plan hp => ?_
      rw [going.2]
      exact fits_calm (covered plan hp) known going.1 rfl rfl
    · refine (edit_same valid keep plans jobs fun row there => ?_).mpr covered
      cases found.symm.trans there
      unfold cancellingEdit at going ⊢
      cases state : job.state <;> simp_all [TransferState.isTerminal]

theorem planStarted_each {P : TransferPlan → (TransferId → Option TransferState) → Prop}
    (childless : ∀ plan look, plan.childJobs = [] → P plan look) (valid : s.Valid) (each : ∀ plan ∈ s.plans, P plan s.stateOf)
    {snapshot : TransferPlanSnapshot} (legal : (StoreOp.applyEvent (.planStarted snapshot) now).Legal s) :
    (∀ plan ∈ (s.applyEvent (.planStarted snapshot) now).1.plans,
      P plan (s.applyEvent (.planStarted snapshot) now).1.stateOf) ↔ (s.stateOf snapshot.rootJob.id = none →
      ∀ plan ∈ s.plans, P plan (Function.update s.stateOf snapshot.rootJob.id (some snapshot.rootJob.state))) := by
  have cleared : ({ s with justFinishedPlan := none } : TransferStore).Valid := ⟨valid.jobs, valid.plans⟩
  have frame := insertPlan_frame ({ s with justFinishedPlan := none } : TransferStore) snapshot.plan
  have inserted := insertPlan_valid cleared legal
  have plans : (s.applyEvent (.planStarted snapshot) now).1.plans =
      ({ s with justFinishedPlan := none }.insertPlan snapshot.plan).1.plans := insertJob_plans _ _
  have listed : ∀ look : TransferId → Option TransferState,
      (∀ plan ∈ (s.applyEvent (.planStarted snapshot) now).1.plans, P plan look) ↔ ∀ plan ∈ s.plans, P plan look := by
    intro look
    rw [plans]
    unfold insertPlan
    split_ifs with known
    · rfl
    · simp only [List.any_eq_true, decide_eq_true_eq, not_exists, not_and] at known
      have empty : snapshot.plan.childJobs = [] := by
        rcases legal with ⟨other, ho, is⟩ | ⟨empty, _⟩
        · exact absurd is (known other ho)
        · exact empty
      simp only [List.mem_append, List.mem_singleton, or_imp, forall_and, forall_eq]
      exact and_iff_left (childless _ look empty)
  have look : ({ s with justFinishedPlan := none }.insertPlan snapshot.plan).1.stateOf = s.stateOf := by
    rw [frame]
    rfl
  have lacks : ({ s with justFinishedPlan := none }.insertPlan snapshot.plan).1.Lacks snapshot.rootJob.id ↔
      s.stateOf snapshot.rootJob.id = none := by
    rw [lacks_iff inserted.jobs, look]
  rw [listed]
  by_cases missing : s.stateOf snapshot.rootJob.id = none
  · have written : (s.applyEvent (.planStarted snapshot) now).1.stateOf =
        Function.update s.stateOf snapshot.rootJob.id (some snapshot.rootJob.state) := by
      rw [← look]
      exact stateOf_insertJob_none inserted (lacks.mpr missing)
    rw [written, forall_prop_of_true missing]
  · have same : (s.applyEvent (.planStarted snapshot) now).1.stateOf = s.stateOf := by
      rw [← look]
      exact congrArg (fun result => result.1.stateOf) (insertJob_absorbed inserted.jobs (fun h => missing (lacks.mp h)))
    rw [same]
    exact iff_of_true each fun none_ => absurd none_ missing

theorem planStarted_covered (valid : s.Valid) (covered : s.AllCovered) {snapshot : TransferPlanSnapshot}
    (legal : (StoreOp.applyEvent (.planStarted snapshot) now).Legal s) :
    (s.applyEvent (.planStarted snapshot) now).1.AllCovered ↔ (StoreOp.applyEvent (.planStarted snapshot) now).Suits s := by
  apply (planStarted_each (fun plan look empty => childless_covered look empty) valid covered legal).trans
  apply imp_congr_right
  intro _
  exact forall₂_congr fun plan hp => covered_write (valid.plans.root plan hp) (covered plan hp)

/-- What the rows are after a batch has been taken in. -/
structure TakesIn (look : TransferId → Option TransferState) (batch : List TransferJob)
    (look' : TransferId → Option TransferState) : Prop where
  other : ∀ id, (∀ job ∈ batch, job.id ≠ id) → look' id = look id
  listed : ∀ job ∈ batch, look' job.id = some ((look job.id).getD job.state)

theorem insertJobs_takesIn (asc : Ascending (fun job => job.id) s.jobs) {batch : List TransferJob}
    (sorted : batch.Pairwise (fun a b => a.id < b.id)) : TakesIn s.stateOf batch (s.insertJobs batch).1.stateOf := by
  have asc' := insertJobs_ascending asc sorted
  constructor
  · intro id other
    ext state
    rw [stateOf_some asc', stateOf_some asc]
    constructor
    · rintro ⟨row, there, is, its⟩
      rcases (mem_insertJobs asc sorted).mp there with old | ⟨listed, _⟩
      · exact ⟨row, old, is, its⟩
      · exact absurd is (other row listed)
    · rintro ⟨row, there, is, its⟩
      exact ⟨row, (mem_insertJobs asc sorted).mpr (Or.inl there), is, its⟩
  · intro job listed
    rw [stateOf_some asc']
    cases known : s.stateOf job.id with
    | none => exact ⟨job, (mem_insertJobs asc sorted).mpr (Or.inr ⟨listed, (lacks_iff asc).mpr known⟩), rfl, rfl⟩
    | some state =>
      obtain ⟨row, there, is, its⟩ := (stateOf_some asc).mp known
      exact ⟨row, (mem_insertJobs asc sorted).mpr (Or.inl there), is, its⟩

theorem extended_covered {look look' : TransferId → Option TransferState} {plan : TransferPlan} {progress : TransferPlanProgress}
    (takes : TakesIn look progress.childJobs look') (covered : plan.Covered look) (open_ : plan.state.isTerminal = false)
    (above : ∀ id ∈ plan.childJobs, ∀ job ∈ progress.childJobs, id < job.id)
    (root : ∀ job ∈ progress.childJobs, job.id ≠ plan.rootJobId) : (extendPlan plan progress).1.Covered look' ↔
      (plan.state = .planning → ∀ job ∈ progress.childJobs, plan.Backs look ((look job.id).getD job.state)) := by
  have children := extendPlan_children above
  have rootSame : look' (extendPlan plan progress).1.rootJobId = look plan.rootJobId := takes.other _ root
  have backs : ∀ state, (extendPlan plan progress).1.Backs look' state ↔ plan.Backs look state := by
    intro state
    unfold TransferPlan.Backs
    rw [rootSame]
  have oldSame : ∀ id ∈ plan.childJobs, look' id = look id :=
    fun id child => takes.other id fun job listed => (above id child job listed).ne'
  have newSame := takes.listed
  unfold TransferPlan.Covered at covered ⊢
  show (if plan.state.byRoot = true then _ else _) ↔ _
  by_cases planning : plan.state = .planning
  · rw [planning] at covered ⊢
    simp only [TransferPlanState.byRoot, if_true, children, List.mem_append, List.mem_map, forall_true_left] at covered ⊢
    constructor
    · intro h job listed
      exact (backs _).mp (h job.id (Or.inr ⟨job, listed, rfl⟩) _ (newSame job listed))
    · rintro h id (child | ⟨job, listed, rfl⟩) state known
      · exact (backs state).mpr (covered id child state ((oldSame id child).symm.trans known))
      · cases (newSame job listed).symm.trans known
        exact (backs _).mpr (h job listed)
  · have queued : plan.state = .queued := by
      cases state : plan.state <;> simp_all [TransferPlanState.isTerminal]
    rw [queued] at covered ⊢
    simp only [TransferPlanState.byRoot, Bool.false_eq_true, if_false] at covered ⊢
    refine iff_of_true ?_ (by simp)
    intro some_ root' known awake
    rw [rootSame] at known
    rw [children] at some_ ⊢
    by_cases empty : plan.childJobs = []
    · rw [empty, List.nil_append] at some_ ⊢
      obtain ⟨id, new⟩ := List.exists_mem_of_ne_nil _ some_
      obtain ⟨job, listed, rfl⟩ := List.mem_map.mp new
      exact ⟨job.id, new, by rw [newSame job listed]; simp⟩
    · obtain ⟨child, hc, there⟩ := covered empty root' known awake
      exact ⟨child, List.mem_append_left _ hc, (oldSame child hc).symm ▸ there⟩

theorem planProgress_each {P : TransferPlan → (TransferId → Option TransferState) → Prop} {Q : TransferPlan → Prop}
    (own : ∀ plan look look', (∀ id, plan.Owns id → look' id = look id) → P plan look → P plan look')
    (valid : s.Valid) (each : ∀ plan ∈ s.plans, P plan s.stateOf) {progress : TransferPlanProgress}
    (now : Timestamp) (legal : (StoreOp.applyEvent (.planProgress progress) now).Legal s)
    (extended : ∀ plan ∈ s.plans, plan.id = progress.planId → plan.state.isTerminal = false →
      ∀ look', TakesIn s.stateOf progress.childJobs look' → (P (extendPlan plan progress).1 look' ↔ Q plan)) :
    (∀ plan ∈ (s.applyPlanProgress progress).1.plans, P plan (s.applyPlanProgress progress).1.stateOf) ↔
      ∀ plan ∈ s.plans, plan.id = progress.planId → plan.state.isTerminal = false → Q plan := by
  obtain ⟨sorted, unowned, above⟩ := legal
  have untouched : ∀ plan ∈ s.plans, ∀ {look : TransferId → Option TransferState},
      TakesIn s.stateOf progress.childJobs look → ∀ id, plan.Owns id → look id = s.stateOf id :=
    fun plan hp _ takes id owns => takes.other id fun job listed is => unowned job listed plan hp (is ▸ owns)
  unfold applyPlanProgress
  split
  · rename_i unknown
    refine iff_of_true ?_ fun plan hp named => absurd named ((findKey_eq_none _).mp unknown plan hp)
    intro plan hp
    rw [insertJobs_frame] at hp
    exact own plan _ _ (untouched plan hp (insertJobs_takesIn valid.jobs sorted)) (each plan hp)
  · rename_i plan found
    obtain ⟨hp, named⟩ := findKey_mem (fun plan : TransferPlan => plan.id) found
    have only : ∀ other ∈ s.plans, other.id = progress.planId → other = plan := fun other ho is =>
      key_unique (fun plan => plan.id) valid.plans.ids ho hp (is.trans named.symm)
    split
    · rename_i closed
      refine iff_of_true each fun other ho is open_ => ?_
      rw [only other ho is] at open_
      exact absurd (closed.symm.trans open_) (by simp)
    · rename_i open_
      have takes : TakesIn s.stateOf progress.childJobs ((s.extendedBy plan progress).insertJobs progress.childJobs).1.stateOf :=
        insertJobs_takesIn (s := s.extendedBy plan progress) valid.jobs sorted
      have plans : ((s.extendedBy plan progress).insertJobs progress.childJobs).1.plans =
          s.plans.map (fun other => if other.id = plan.id then (extendPlan plan progress).1 else other) := by
        rw [insertJobs_frame, named]
        exact updateKey_eq_map _ _ _ valid.plans.ids
      have awake : plan.state.isTerminal = false := by simpa using open_
      apply (each_plan_one own valid each hp plans fun other ho _ id owns => untouched other ho takes id owns).trans
      apply (extended plan hp named awake _ takes).trans
      constructor
      · intro here other ho is _
        cases only other ho is
        exact here
      · exact fun all => all plan hp named awake

theorem covered_own (plan : TransferPlan) (look look' : TransferId → Option TransferState)
    (same : ∀ id, plan.Owns id → look' id = look id) (covered : plan.Covered look) : plan.Covered look' :=
  (covered_congr (same _ (Or.inl rfl)) fun child hc => same child (Or.inr hc)).mpr covered

theorem allCovered_one (valid : s.Valid) (covered : s.AllCovered) {plan : TransferPlan} (hp : plan ∈ s.plans)
    {f : TransferPlan → TransferPlan}
    (plans : s'.plans = s.plans.map (fun other => if other.id = plan.id then f other else other))
    (frame : ∀ other ∈ s.plans, other.id ≠ plan.id → ∀ id, other.Owns id → s'.stateOf id = s.stateOf id) :
    s'.AllCovered ↔ (f plan).Covered s'.stateOf := each_plan_one covered_own valid covered hp plans frame

theorem planProgress_covered (valid : s.Valid) (covered : s.AllCovered) {progress : TransferPlanProgress}
    (legal : (StoreOp.applyEvent (.planProgress progress) now).Legal s) :
    (s.applyEvent (.planProgress progress) now).1.AllCovered ↔ (StoreOp.applyEvent (.planProgress progress) now).Suits s := by
  have cleared : ({ s with justFinishedPlan := none } : TransferStore).Valid := ⟨valid.jobs, valid.plans⟩
  apply (planProgress_each covered_own cleared covered now legal fun plan hp named open_ look' takes =>
    extended_covered takes (covered plan hp) open_ (legal.2.2 plan hp named)
      fun job listed is => legal.2.1 job listed plan hp (Or.inl is)).trans
  apply forall₂_congr
  intro plan hp
  apply forall_congr'
  intro named
  constructor
  · intro suits planning
    exact suits (by rw [planning]; rfl) planning
  · exact fun suits _ planning => suits planning

end TransferStore

end MacSftp
