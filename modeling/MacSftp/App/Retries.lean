import MacSftp.App.Healing
import MacSftp.Transfer.Confluence

namespace MacSftp

open Lib

namespace TransferStore

/-- The rows once the plan's open ones are skipped, and the foreign ones between them. -/
def cancelledRows (s : TransferStore) (plan : TransferPlan) (id : TransferId) : Option TransferState :=
  (s.stateOf id).map (fun state => if s.Touches plan id ∧ state.isTerminal = false then .skipped else state)

def CancelHeals (s : TransferStore) (plan : TransferPlan) : Prop :=
  ((∃ job ∈ s.jobs, s.Touches plan job.id ∧ job.state.isTerminal = false) → plan.Succeeded (s.cancelledRows plan) →
    ¬ plan.RootFailed s.stateOf) ∧
  ∀ other ∈ s.plans, other.id ≠ plan.id → other.Succeeded (s.cancelledRows plan) → other.Settled s.stateOf

/-- No cancelled plan's root is failed with the plan's own rows, while the children of the other have succeeded. -/
def FailureHeals (s : TransferStore) (plan : TransferPlan) : Prop :=
  ∀ other ∈ s.plans, other.id ≠ plan.id → other.state = .cancelled → other.Succeeded s.stateOf →
    s.stateOf other.rootJobId ≠ none → s.Touches plan other.rootJobId → ∃ child ∈ other.childJobs, s.Touches plan child

def HealsAll (s : TransferStore) (id : TransferId) (state : TransferState) : Prop :=
  ∀ plan ∈ s.plans, plan.Heals s.stateOf id state

/-- A queued plan is looked at when its job ends. -/
def EndHeals (s : TransferStore) (id : TransferId) (state : TransferState) : Prop :=
  s.stateOf id ≠ none → ∀ plan ∈ s.plans, plan.state ≠ .queued → plan.Heals s.stateOf id state

instance (s : TransferStore) (plan : TransferPlan) : Decidable (s.CancelHeals plan) := inferInstanceAs (Decidable (_ ∧ _))

instance (s : TransferStore) (plan : TransferPlan) : Decidable (s.FailureHeals plan) :=
  inferInstanceAs (Decidable (∀ other ∈ s.plans, _))

instance (s : TransferStore) (id : TransferId) (state : TransferState) : Decidable (s.HealsAll id state) :=
  inferInstanceAs (Decidable (∀ plan ∈ s.plans, _))

instance (s : TransferStore) (id : TransferId) (state : TransferState) : Decidable (s.EndHeals id state) :=
  inferInstanceAs (Decidable (_ → _))

end TransferStore

/-- The step does not bring the last child of a plan to success that has ended with failures. -/
def StoreOp.Heals (s : TransferStore) : StoreOp → Prop
  | .applyEvent event _ =>
    match event with
    | .planStarted snapshot => s.stateOf snapshot.rootJob.id = none → s.HealsAll snapshot.rootJob.id snapshot.rootJob.state
    | .planProgress progress => ∀ plan ∈ s.plans, plan.id = progress.planId → plan.state = .queued → plan.childJobs = [] →
        progress.childJobs ≠ [] → ∃ job ∈ progress.childJobs, ((s.stateOf job.id).getD job.state).isDone = false
    | .planCompleted planId => ∀ plan ∈ s.plans, plan.id = planId → plan.state = .planning → ¬ plan.Succeeded s.stateOf
    | .planCancelled planId => ∀ plan ∈ s.plans, plan.id = planId → plan.state.refusesCancel = false → s.CancelHeals plan
    | .planFailed planId _ => ∀ plan ∈ s.plans, plan.id = planId → s.FailureHeals plan
    | .running job => s.HealsAll job.id job.state
    | .completed transferId => s.EndHeals transferId .completed
    | .skipped transferId => s.EndHeals transferId .skipped
    | .failed failure => s.EndHeals failure.transferId (.failed failure.error failure.error.retryable)
    | .conflict _ | .progress _ | .warning _ => True
  | .markCancelling _ | .removeConflict _ | .clearTerminal => True

instance (s : TransferStore) (op : StoreOp) : Decidable (op.Heals s) :=
  match op with
  | .applyEvent event _ =>
    match event with
    | .planStarted _ => inferInstanceAs (Decidable (_ → _))
    | .planProgress _ | .planCompleted _ | .planCancelled _ | .planFailed _ _ =>
      inferInstanceAs (Decidable (∀ plan ∈ s.plans, _))
    | .running _ => inferInstanceAs (Decidable (s.HealsAll _ _))
    | .completed _ | .skipped _ | .failed _ => inferInstanceAs (Decidable (s.EndHeals _ _))
    | .conflict _ | .progress _ | .warning _ => isTrue trivial
  | .markCancelling _ | .removeConflict _ | .clearTerminal => isTrue trivial

namespace TransferStore

variable {s s' : TransferStore} {plan : TransferPlan} {id : TransferId} {state : TransferState} {now : Timestamp}

def AllHealed (s : TransferStore) : Prop := ∀ plan ∈ s.plans, plan.Healed s.stateOf

theorem allHealed_write (valid : s.Valid) (healed : s.AllHealed) (plans : s'.plans = s.plans)
    (look : s'.stateOf = Function.update s.stateOf id (some state)) : s'.AllHealed ↔ s.HealsAll id state := by
  unfold AllHealed HealsAll
  rw [plans, look]
  exact forall₂_congr fun plan hp => healed_write (valid.plans.root plan hp) (healed plan hp)

theorem allHealed_same (plans : s'.plans = s.plans) (look : s'.stateOf = s.stateOf) : s'.AllHealed ↔ s.AllHealed := by
  unfold AllHealed
  rw [plans, look]

theorem heals_open {look : TransferId → Option TransferState} (awake : state.isTerminal = false) : plan.Heals look id state := by
  constructor
  · intro done
    exact absurd (awake.symm.trans (TransferState.isDone_terminal done)) (by simp)
  · intro failed
    exact absurd (awake.symm.trans (TransferState.isFailed_terminal failed)) (by simp)

theorem edit_healed (valid : s.Valid) (healed : s.AllHealed) {edit : TransferJob → Option TransferJob}
    (keep : ∀ job new, edit job = some new → new.id = job.id) (plans : s'.plans = s.plans)
    (hj : s'.jobs = s.jobs.map (editOf id edit))
    (goesOn : ∀ job, ((edit job).getD job).state = job.state ∨ ((edit job).getD job).state.isTerminal = false) : s'.AllHealed := by
  cases found : s.findJob id with
  | none => exact (allHealed_same plans (stateOf_edit_none valid.jobs keep hj found)).mpr healed
  | some job =>
    have look := stateOf_edit_some valid.jobs keep hj found
    rcases goesOn job with same | awake
    · have known : s.stateOf id = some job.state := by simp [stateOf, found]
      rw [same, ← known, Function.update_eq_self] at look
      exact (allHealed_same plans look).mpr healed
    · exact (allHealed_write valid healed plans look).mpr fun plan _ => heals_open awake

theorem conflict_healed (valid : s.Valid) (healed : s.AllHealed) (prompt : TransferConflictPrompt) :
    (s.applyEvent (.conflict prompt) now).1.AllHealed := by
  apply edit_healed valid healed withState_id (conflict_plans prompt now) (conflict_jobs valid prompt now)
  intro job
  right
  rw [withState_getD]
  rfl

theorem progress_healed (valid : s.Valid) (healed : s.AllHealed) (progress : TransferProgress) :
    (s.applyEvent (.progress progress) now).1.AllHealed := by
  refine edit_healed valid healed (progressEdit_id progress now) ?_ (progress_jobs valid progress now) fun job => ?_
  · exact editJob_plans _ _ _
  · unfold progressEdit
    cases state : job.state <;> simp [state, withState_getD, TransferState.isTerminal]

theorem warning_healed (valid : s.Valid) (healed : s.AllHealed) (warning : TransferWarning) :
    (s.applyEvent (.warning warning) now).1.AllHealed := by
  refine edit_healed valid healed (warningEdit_id warning) ?_ (warning_jobs valid warning now) fun job => ?_
  · exact editJob_plans _ _ _
  · exact Or.inl (warningEdit_state warning job)

theorem markCancelling_healed (valid : s.Valid) (healed : s.AllHealed) (transferId : TransferId) :
    (s.markCancelling transferId).1.AllHealed := by
  refine edit_healed valid healed cancellingEdit_id (editJob_plans _ _ _) (markCancelling_jobs valid transferId) fun job => ?_
  unfold cancellingEdit
  cases state : job.state <;> simp [state, TransferState.isTerminal]

theorem running_healed (valid : s.Valid) (healed : s.AllHealed) (job : TransferJob) :
    (s.applyEvent (.running job) now).1.AllHealed ↔ (StoreOp.applyEvent (.running job) now).Heals s := by
  have cleared : ({ s with justFinishedPlan := none } : TransferStore).Valid := ⟨valid.jobs, valid.plans⟩
  refine allHealed_write valid healed ?_ (stateOf_upsert cleared job)
  show (TransferStore.upsertJob _ job).1.plans = _
  unfold TransferStore.upsertJob
  split
  · split <;> rfl
  · rfl

theorem childless_healed (look : TransferId → Option TransferState) (empty : plan.childJobs = []) : plan.Healed look :=
  fun succeeded => absurd empty succeeded.1

theorem planStarted_healed (valid : s.Valid) (healed : s.AllHealed) {snapshot : TransferPlanSnapshot}
    (legal : (StoreOp.applyEvent (.planStarted snapshot) now).Legal s) :
    (s.applyEvent (.planStarted snapshot) now).1.AllHealed ↔ (StoreOp.applyEvent (.planStarted snapshot) now).Heals s := by
  apply (planStarted_each (fun plan look empty => childless_healed look empty) valid healed legal).trans
  apply imp_congr_right
  intro _
  exact forall₂_congr fun plan hp => healed_write (valid.plans.root plan hp) (healed plan hp)

theorem extended_healed {look look' : TransferId → Option TransferState} {progress : TransferPlanProgress}
    (takes : TakesIn look progress.childJobs look') (healed : plan.Healed look) (open_ : plan.state.isTerminal = false)
    (above : ∀ id ∈ plan.childJobs, ∀ job ∈ progress.childJobs, id < job.id) :
    (extendPlan plan progress).1.Healed look' ↔ (plan.state = .queued → plan.childJobs = [] → progress.childJobs ≠ [] →
      ∃ job ∈ progress.childJobs, ((look job.id).getD job.state).isDone = false) := by
  have children := extendPlan_children above
  have oldSame : ∀ id ∈ plan.childJobs, look' id = look id :=
    fun id child => takes.other id fun job listed => (above id child job listed).ne'
  have newDone : ∀ job ∈ progress.childJobs, (look' job.id).any TransferState.isDone = ((look job.id).getD job.state).isDone := by
    intro job listed
    rw [takes.listed job listed, Option.any_some]
  by_cases planning : plan.state = .planning
  · apply iff_of_true
    · exact fun _ => Or.inl planning
    · rw [planning]
      intro queued
      cases queued
  · have queued : plan.state = .queued := by
      cases state : plan.state <;> simp_all [TransferPlanState.isTerminal]
    have unsettled : ∀ look, ¬ (extendPlan plan progress).1.Settled look := by
      intro look settled
      have state : (extendPlan plan progress).1.state = .queued := queued
      rcases settled with is | is | ⟨is, _⟩ <;> rw [state] at is <;> cases is
    have succeeded : (extendPlan plan progress).1.Succeeded look' ↔
      plan.childJobs ++ progress.childJobs.map (fun job => job.id) ≠ [] ∧
        (∀ id ∈ plan.childJobs, (look id).any TransferState.isDone = true) ∧
        ∀ job ∈ progress.childJobs, ((look job.id).getD job.state).isDone = true := by
      unfold TransferPlan.Succeeded
      rw [children]
      apply and_congr_right
      intro _
      simp only [List.mem_append, List.mem_map, or_imp, forall_and, forall_exists_index, and_imp, forall_apply_eq_imp_iff₂]
      apply and_congr
      · exact forall₂_congr fun id child => by rw [oldSame id child]
      · exact forall₂_congr fun job listed => by rw [newDone job listed]
    unfold TransferPlan.Healed
    rw [succeeded, iff_false_intro (unsettled look'), imp_false, forall_prop_of_true queued]
    constructor
    · intro unfinished empty some_
      by_contra all
      push Not at all
      apply unfinished
      refine ⟨by simp [empty, some_], by simp [empty], fun job listed => by simpa using all job listed⟩
    · rintro fresh ⟨some_, old, new⟩
      by_cases empty : plan.childJobs = []
      · have listed : progress.childJobs ≠ [] := by
          intro none_
          exact some_ (by simp [empty, none_])
        obtain ⟨job, there, undone⟩ := fresh empty listed
        exact absurd (undone.symm.trans (new job there)) (by simp)
      · rcases healed ⟨empty, old⟩ with is | is | ⟨is, _⟩ <;> rw [queued] at is <;> cases is

theorem planProgress_healed (valid : s.Valid) (healed : s.AllHealed) {progress : TransferPlanProgress}
    (legal : (StoreOp.applyEvent (.planProgress progress) now).Legal s) :
    (s.applyEvent (.planProgress progress) now).1.AllHealed ↔ (StoreOp.applyEvent (.planProgress progress) now).Heals s := by
  have cleared : ({ s with justFinishedPlan := none } : TransferStore).Valid := ⟨valid.jobs, valid.plans⟩
  apply (planProgress_each (fun _ _ _ same healed =>
    healed_own same healed) cleared healed now legal fun plan hp named open_ look' takes =>
    extended_healed takes (healed plan hp) open_ (legal.2.2 plan hp named)).trans
  apply forall₂_congr
  intro plan hp
  apply forall_congr'
  intro named
  constructor
  · intro heals queued
    exact heals (by rw [queued]; rfl) queued
  · exact fun heals _ queued => heals queued

theorem allHealed_one (valid : s.Valid) (healed : s.AllHealed) (hp : plan ∈ s.plans) {f : TransferPlan → TransferPlan}
    (plans : s'.plans = s.plans.map (fun other => if other.id = plan.id then f other else other))
    (frame : ∀ other ∈ s.plans, other.id ≠ plan.id → ∀ id, other.Owns id → s'.stateOf id = s.stateOf id) :
    s'.AllHealed ↔ (f plan).Healed s'.stateOf :=
  each_plan_one (fun _ _ _ same healed => healed_own same healed) valid healed hp plans frame

theorem planCompleted_healed (valid : s.Valid) (healed : s.AllHealed) (planId : TransferPlanId) :
    (s.applyEvent (.planCompleted planId) now).1.AllHealed ↔ (StoreOp.applyEvent (.planCompleted planId) now).Heals s := by
  show _ ↔ ∀ plan ∈ s.plans, plan.id = planId → plan.state = .planning → ¬ plan.Succeeded s.stateOf
  rcases planCompleted_cases valid planId now with ⟨closed, plans, rows⟩ | ⟨plan, hp, rfl, open_, plans, jobs⟩
  · refine iff_of_true ((allHealed_same plans (stateOf_congr rows)).mpr healed) fun plan hp is planning => ?_
    have ended := closed plan hp is
    rw [planning] at ended
    cases ended
  · rw [only_plan valid hp]
    apply (allHealed_one valid healed hp plans (root_frame valid hp jobs)).trans
    have same := succeeded_congr (root_children valid hp jobs)
    by_cases empty : plan.childJobs = []
    · exact iff_of_true (childless_healed _ empty) fun _ succeeded => succeeded.1 empty
    · rw [if_neg empty]
      have unsettled : ∀ look, ¬ ({ plan with state := .queued } : TransferPlan).Settled look := by
        rintro look (is | is | ⟨is, _⟩) <;> cases is
      constructor
      · exact fun after _ succeeded => unsettled _ (after (same.mpr succeeded))
      · intro heals succeeded
        have before : plan.Succeeded s.stateOf := same.mp succeeded
        rcases healed plan hp before with is | is | ⟨is, _⟩
        · exact absurd before (heals is)
        · rw [is] at open_
          cases open_
        · rw [is] at open_
          cases open_

theorem stateOf_settle (asc : Ascending (fun job => job.id) s.jobs) (stale : TransferState → Bool)
    (jobs : s'.jobs = s.jobs.map (fun job => if s.Touches plan job.id then settle (fun job => stale job.state) state job else job))
    (id : TransferId) :
    s'.stateOf id = (s.stateOf id).map (fun old => if s.Touches plan id ∧ stale old = true then state else old) := by
  have keep : ∀ job, (if s.Touches plan job.id then settle (fun job => stale job.state) state job else job).id = job.id := by
    intro job
    split_ifs
    · exact settle_id _ state job
    · rfl
  rw [stateOf_map asc keep jobs]
  unfold stateOf
  cases found : s.findJob id with
  | none => rfl
  | some job =>
    have named := ((findJob_iff asc).mp found).2
    simp only [Option.map_some, named, Option.some.injEq]
    by_cases touched : s.Touches plan id
    · rw [if_pos touched, settle]
      by_cases old : stale job.state = true <;> simp [touched, old]
    · rw [if_neg touched, if_neg fun both => touched both.1]

theorem cancelledRows_rootFailed (other : TransferPlan) :
    other.RootFailed (s.cancelledRows plan) ↔ other.RootFailed s.stateOf := by
  unfold TransferPlan.RootFailed cancelledRows
  cases s.stateOf other.rootJobId with
  | none => rfl
  | some root =>
    rw [Option.map_some, Option.any_some, Option.any_some]
    split_ifs with skipped
    · have open_ : root.isFailed = false := by
        cases root <;> simp_all [TransferState.isFailed, TransferState.isTerminal]
      rw [open_]
      rfl
    · rfl

theorem each_split (valid : s.Valid) (hp : plan ∈ s.plans) {f : TransferPlan → TransferPlan} {P : TransferPlan → Prop} :
    (∀ plan' ∈ s.plans.map (fun other => if other.id = plan.id then f other else other), P plan') ↔
      P (f plan) ∧ ∀ other ∈ s.plans, other.id ≠ plan.id → P other := by
  constructor
  · intro all
    refine ⟨all _ (List.mem_map.mpr ⟨plan, hp, if_pos rfl⟩), fun other ho differs => ?_⟩
    exact all other (List.mem_map.mpr ⟨other, ho, if_neg differs⟩)
  · rintro ⟨own, others⟩ plan' member
    obtain ⟨other, ho, rfl⟩ := List.mem_map.mp member
    split_ifs with is
    · cases key_unique (fun plan => plan.id) valid.plans.ids ho hp is
      exact own
    · exact others other ho is

theorem planCancelled_healed (valid : s.Valid) (healed : s.AllHealed) (planId : TransferPlanId) :
    (s.applyEvent (.planCancelled planId) now).1.AllHealed ↔ (StoreOp.applyEvent (.planCancelled planId) now).Heals s := by
  show _ ↔ ∀ plan ∈ s.plans, plan.id = planId → plan.state.refusesCancel = false → s.CancelHeals plan
  rcases planCancelled_cases valid planId now with ⟨refused, plans, rows⟩ | ⟨plan, hp, rfl, accepts, plans, rows⟩
  · refine iff_of_true ((allHealed_same plans (stateOf_congr rows)).mpr healed) fun plan hp is accepts => ?_
    exact absurd ((refused plan hp is).symm.trans accepts) (by simp)
  · rw [only_plan valid hp]
    have look : (s.applyEvent (.planCancelled plan.id) now).1.stateOf = s.cancelledRows plan := by
      funext id
      rw [stateOf_settle valid.jobs (fun state => !state.isTerminal) rows]
      unfold cancelledRows
      simp only [Bool.not_eq_true']
    have settledSame : ∀ other : TransferPlan, other.Settled (s.cancelledRows plan) ↔ other.Settled s.stateOf := by
      intro other
      unfold TransferPlan.Settled
      rw [cancelledRows_rootFailed]
    refine Iff.trans ?_ ⟨fun heals _ => heals, fun heals => heals accepts⟩
    unfold AllHealed
    rw [look]
    rcases plans with ⟨calm, same⟩ | ⟨stale, cancelled⟩
    · have unchanged : s.cancelledRows plan = s.stateOf := by
        funext id
        unfold cancelledRows
        cases known : s.stateOf id with
        | none => rfl
        | some state =>
          obtain ⟨job, hj, rfl, rfl⟩ := (stateOf_some valid.jobs).mp known
          rw [Option.map_some, if_neg]
          exact fun both => absurd ((calm job hj both.1).symm.trans both.2) (by simp)
      rw [same, unchanged]
      refine iff_of_true healed ⟨?_, fun other ho _ => ?_⟩
      · rintro ⟨job, hj, touched, awake⟩
        exact absurd ((calm job hj touched).symm.trans awake) (by simp)
      · rw [unchanged]
        exact healed other ho
    · rw [cancelled, each_split valid hp]
      apply and_congr
      · have settled : ({ plan with state := .cancelled } : TransferPlan).Settled (s.cancelledRows plan) ↔
            ¬ plan.RootFailed s.stateOf := by
          rw [settledSame]
          constructor
          · rintro (is | is | ⟨_, spared⟩)
            · cases is
            · cases is
            · exact spared
          · exact fun spared => Or.inr (Or.inr ⟨rfl, spared⟩)
        constructor
        · exact fun after _ succeeded => settled.mp (after succeeded)
        · exact fun heals succeeded => settled.mpr (heals stale succeeded)
      · apply forall₂_congr
        intro other ho
        apply imp_congr_right
        intro _
        exact imp_congr_right fun _ => settledSame other

theorem planFailed_healed (valid : s.Valid) (healed : s.AllHealed) (planId : TransferPlanId) (error : UserFacingError) :
    (s.applyEvent (.planFailed planId error) now).1.AllHealed ↔ (StoreOp.applyEvent (.planFailed planId error) now).Heals s := by
  show _ ↔ ∀ plan ∈ s.plans, plan.id = planId → s.FailureHeals plan
  rcases planFailed_cases valid planId error now with ⟨unknown, plans, rows⟩ | ⟨plan, hp, rfl, plans, rows⟩
  · exact iff_of_true ((allHealed_same plans (stateOf_congr rows)).mpr healed) fun plan hp is => absurd is (unknown plan hp)
  · rw [only_plan valid hp]
    have look : ∀ id, (s.applyEvent (.planFailed plan.id error) now).1.stateOf id = (s.stateOf id).map
        (fun old => if s.Touches plan id then .failed error error.retryable else old) := by
      intro id
      rw [stateOf_settle valid.jobs (fun state => state ≠ .failed error error.retryable) rows]
      congr 1
      funext old
      by_cases touched : s.Touches plan id
      · by_cases same : old = .failed error error.retryable
        · simp [same]
        · simp [touched, same]
      · simp [touched]
    have spared : ∀ id, ¬ s.Touches plan id → (s.applyEvent (.planFailed plan.id error) now).1.stateOf id = s.stateOf id := by
      intro id untouched
      simp [look id, untouched]
    have succeeded : ∀ other : TransferPlan, other.Succeeded (s.applyEvent (.planFailed plan.id error) now).1.stateOf ↔
        other.Succeeded s.stateOf ∧ ∀ child ∈ other.childJobs, ¬ s.Touches plan child := by
      intro other
      constructor
      · rintro ⟨some_, done⟩
        have untouched : ∀ child ∈ other.childJobs, ¬ s.Touches plan child := by
          intro child hc touched
          have there := done child hc
          rw [look child] at there
          cases known : s.stateOf child <;> simp [known, touched, TransferState.isDone] at there
        refine ⟨⟨some_, fun child hc => ?_⟩, untouched⟩
        rw [← spared child (untouched child hc)]
        exact done child hc
      · rintro ⟨⟨some_, done⟩, untouched⟩
        refine ⟨some_, fun child hc => ?_⟩
        rw [spared child (untouched child hc)]
        exact done child hc
    unfold AllHealed
    rw [plans, each_split valid hp]
    constructor
    · rintro ⟨_, others⟩ other ho differs cancelled before there touched
      by_contra none_
      push Not at none_
      rcases others other ho differs ((succeeded other).mpr ⟨before, none_⟩) with is | is | ⟨_, rootSpared⟩
      · rw [cancelled] at is
        cases is
      · rw [cancelled] at is
        cases is
      · apply rootSpared
        obtain ⟨root, known⟩ := Option.ne_none_iff_exists'.mp there
        unfold TransferPlan.RootFailed
        simp [look, known, touched, TransferState.isFailed]
    · intro heals
      constructor
      · intro after
        obtain ⟨⟨some_, done⟩, untouched⟩ := (succeeded _).mp after
        obtain ⟨child, hc⟩ := List.exists_mem_of_ne_nil _ some_
        refine absurd (touches_child valid hp hc fun missing => ?_) (untouched child hc)
        have there := done child hc
        rw [missing] at there
        cases there
      · intro other ho differs after
        obtain ⟨before, untouched⟩ := (succeeded other).mp after
        rcases healed other ho before with is | is | ⟨cancelled, rootSpared⟩
        · exact Or.inl is
        · exact Or.inr (Or.inl is)
        · refine Or.inr (Or.inr ⟨cancelled, fun failed => ?_⟩)
          have unhit : s.stateOf other.rootJobId ≠ none → ¬ s.Touches plan other.rootJobId := by
            intro there touched
            obtain ⟨child, hc, hit⟩ := heals other ho differs cancelled before there touched
            exact untouched child hc hit
          unfold TransferPlan.RootFailed at failed rootSpared
          rw [look] at failed
          cases known : s.stateOf other.rootJobId with
          | none => simp [known] at failed
          | some root =>
            apply rootSpared
            simpa [known, unhit (by simp [known])] using failed

theorem succeeded_rows (valid : s.Valid) (hp : plan ∈ s.plans) (succeeded : plan.Succeeded s.stateOf) :
    (∀ job ∈ s.childRows plan, job.state.isDone = true) ∧ (s.childRows plan).length = plan.childJobs.length := by
  have stored : ∀ child ∈ plan.childJobs, ∃ job ∈ s.jobs, job.id = child := by
    intro child hc
    obtain ⟨state, known, _⟩ := (Option.any_eq_true _ _).mp (succeeded.2 child hc)
    obtain ⟨job, hj, is, _⟩ := (stateOf_some valid.jobs).mp known
    exact ⟨job, hj, is⟩
  obtain ⟨rows, count⟩ := childRows_stored valid.jobs (valid.plans.ascending plan hp) stored
  refine ⟨fun job counted => ?_, count⟩
  rw [rows, List.mem_filter, decide_eq_true_eq] at counted
  have done := succeeded.2 job.id counted.2
  rwa [stateOf_mem valid.jobs counted.1, Option.any_some] at done

theorem succeeded_finishes (valid : s.Valid) (hp : plan ∈ s.plans) (open_ : plan.state.isTerminal = false)
    (succeeded : plan.Succeeded s.stateOf) : s.Finishes plan := by
  obtain ⟨done, count⟩ := succeeded_rows valid hp succeeded
  exact ⟨open_, fun job counted => TransferState.isDone_terminal (done job counted), count⟩

theorem finishPlan_healed (valid : s.Valid) (healed : ∀ other ∈ s.plans, other.id ≠ plan.id → other.Healed s.stateOf)
    {planIndex : Nat} (get : s.plans[planIndex]? = some plan) :
    (s.finishPlan planIndex plan ((s.childRows plan).any (fun job => job.state.isFailed))).AllHealed := by
  have hp := List.mem_of_getElem? get
  obtain ⟨plans, jobs⟩ := finishPlan_rows valid get ((s.childRows plan).any (fun job => job.state.isFailed))
  unfold AllHealed
  rw [plans, each_split valid hp]
  constructor
  · intro after
    have succeeded : plan.Succeeded s.stateOf := (succeeded_congr (root_children valid hp jobs)).mp after
    have fine : (s.childRows plan).any (fun job => job.state.isFailed) = false := by
      rw [List.any_eq_false]
      intro job counted
      rw [TransferState.not_done_failed ((succeeded_rows valid hp succeeded).1 job counted)]
      simp
    rw [fine]
    exact Or.inr (Or.inl rfl)
  · intro other ho differs
    exact healed_own (root_frame valid hp jobs other ho differs) (healed other ho differs)

theorem heals_planning {look : TransferId → Option TransferState} (planning : plan.state = .planning) :
    plan.Heals look id state := by
  constructor
  · exact fun _ _ _ => Or.inl planning
  · intro _ _ cancelled
    rw [planning] at cancelled
    cases cancelled

theorem heals_foreign {look : TransferId → Option TransferState} (foreign : ¬ plan.Owns id) : plan.Heals look id state :=
  ⟨fun _ child => absurd (Or.inr child) foreign, fun _ root => absurd (Or.inl root) foreign⟩

theorem outcome_healed (valid : s.Valid) (healed : s.AllHealed) {event : TransferEvent}
    (outcome : event.outcome = some (id, state)) : (s.applyEvent event now).1.AllHealed ↔ s.EndHeals id state := by
  have valid' := settledBy_valid valid id state
  have plans := settledBy_plans s id state
  have look := stateOf_assign valid.jobs (settledBy_jobs valid.jobs id state)
  -- each plan by itself, before the job's own plan is looked at
  have settled : ∀ plan ∈ s.plans, plan.Healed (s.settledBy id state).stateOf ↔
      (s.stateOf id ≠ none → plan.Heals s.stateOf id state) := by
    intro plan hp
    rw [look]
    by_cases missing : s.stateOf id = none
    · rw [if_pos missing]
      exact iff_of_true (healed plan hp) fun there => absurd missing there
    · rw [if_neg missing, forall_prop_of_true missing]
      exact healed_write (valid.plans.root plan hp) (healed plan hp)
  rw [applyEvent_outcome outcome]
  by_cases owned : ∃ plan ∈ s.plans, id ∈ plan.childJobs
  · obtain ⟨plan, hp, child⟩ := owned
    obtain ⟨planIndex, get, final⟩ := finalizePlanForJob_child valid' (plans.symm ▸ hp) child
    have others : ∀ other ∈ s.plans, other.id ≠ plan.id → other.Heals s.stateOf id state := by
      intro other ho differs
      exact heals_foreign fun owns => valid.plans.apart other ho plan hp differs id owns (Or.inr child)
    rw [final]
    by_cases finishes : (s.settledBy id state).Finishes plan
    · rw [finalizePlan_of_finishes planIndex finishes]
      apply iff_of_true
      · apply finishPlan_healed valid' _ get
        intro other ho differs
        rw [plans] at ho
        exact (settled other ho).mpr fun _ => others other ho differs
      · intro _ other ho unqueued
        by_cases is : other.id = plan.id
        · cases key_unique (fun plan => plan.id) valid.plans.ids ho hp is
          apply heals_planning
          have open_ := finishes.1
          cases state : plan.state <;> simp_all [TransferPlanState.isTerminal]
        · exact others other ho is
    · rw [finalizePlan_quiet planIndex finishes]
      unfold AllHealed EndHeals
      rw [plans]
      constructor
      · exact fun after there other ho _ => (settled other ho).mp (after other ho) there
      · intro heals other ho
        by_cases queued : other.state = .queued
        · by_cases is : other.id = plan.id
          · cases key_unique (fun plan => plan.id) valid.plans.ids ho hp is
            intro succeeded
            have open_ : plan.state.isTerminal = false := by rw [queued]; rfl
            exact absurd (succeeded_finishes valid' (plans.symm ▸ hp) open_ succeeded) finishes
          · exact (settled other ho).mpr fun _ => others other ho is
        · exact (settled other ho).mpr fun there => heals there other ho queued
  · have orphan : ∀ plan ∈ (s.settledBy id state).plans, id ∉ plan.childJobs := by
      rw [plans]
      exact fun plan hp child => owned ⟨plan, hp, child⟩
    obtain ⟨same, rows⟩ := finalizePlanForJob_no_child orphan
    apply (allHealed_same same (stateOf_congr rows)).trans
    unfold AllHealed EndHeals
    rw [plans]
    constructor
    · exact fun after there plan hp _ => (settled plan hp).mp (after plan hp) there
    · intro heals plan hp
      apply (settled plan hp).mpr
      intro there
      by_cases queued : plan.state = .queued
      · constructor
        · exact fun _ child => absurd ⟨plan, hp, child⟩ owned
        · intro _ _ cancelled
          rw [queued] at cancelled
          cases cancelled
      · exact heals there plan hp queued

theorem clearTerminal_healed (valid : s.Valid) : s.clearTerminal.1.AllHealed := by
  rintro plan _ ⟨some_, done⟩
  obtain ⟨child, hc⟩ := List.exists_mem_of_ne_nil _ some_
  have there := done child hc
  rw [clearTerminal_stateOf valid.jobs] at there
  obtain ⟨state, known, isDone⟩ := (Option.any_eq_true _ _).mp there
  have awake := (Option.filter_eq_some_iff.mp known).2
  rw [TransferState.isDone_terminal isDone] at awake
  cases awake

theorem apply_healed_iff (valid : s.Valid) {op : StoreOp} (legal : op.Legal s) (healed : s.AllHealed) :
    (s.apply op).1.AllHealed ↔ op.Heals s := by
  cases op with
  | applyEvent event now =>
    cases event with
    | planStarted snapshot => exact planStarted_healed valid healed legal
    | planProgress progress => exact planProgress_healed valid healed legal
    | planCompleted planId => exact planCompleted_healed valid healed planId
    | planCancelled planId => exact planCancelled_healed valid healed planId
    | planFailed planId error => exact planFailed_healed valid healed planId error
    | conflict prompt => exact iff_of_true (conflict_healed valid healed prompt) trivial
    | running job => exact running_healed valid healed job
    | progress progress => exact iff_of_true (progress_healed valid healed progress) trivial
    | warning warning => exact iff_of_true (@warning_healed s now valid healed warning) trivial
    | completed | skipped | failed => exact outcome_healed valid healed rfl
  | markCancelling transferId => exact iff_of_true (markCancelling_healed valid healed transferId) trivial
  | removeConflict requestId => exact iff_of_true healed trivial
  | clearTerminal => exact iff_of_true (clearTerminal_healed valid) trivial

/-- A planned plan whose children are all there and have succeeded is Completed, if it was not cancelled,
and no failed root is shown for it. -/
def RetriesHeal (s : TransferStore) : Prop :=
  ∀ plan ∈ s.plans, plan.state ≠ .planning → plan.childJobs ≠ [] →
    (∀ id ∈ plan.childJobs, ∃ job ∈ s.jobs, job.id = id ∧ (job.state = .completed ∨ job.state = .skipped)) →
    (plan.state = .completed ∨ plan.state = .cancelled) ∧
      ∀ job ∈ s.visibleTransferJobs, job.id = plan.rootJobId → job.state.isFailed = false

instance (s : TransferStore) : Decidable s.RetriesHeal := inferInstanceAs (Decidable (∀ plan ∈ s.plans, _))

theorem succeeded_iff (asc : Ascending (fun job => job.id) s.jobs) : plan.Succeeded s.stateOf ↔ plan.childJobs ≠ [] ∧
    ∀ id ∈ plan.childJobs, ∃ job ∈ s.jobs, job.id = id ∧ (job.state = .completed ∨ job.state = .skipped) := by
  apply and_congr_right
  intro _
  apply forall₂_congr
  intro id _
  rw [Option.any_eq_true]
  constructor
  · rintro ⟨state, known, done⟩
    obtain ⟨job, hj, is, rfl⟩ := (stateOf_some asc).mp known
    refine ⟨job, hj, is, ?_⟩
    cases state : job.state <;> simp_all [TransferState.isDone]
  · rintro ⟨job, hj, is, done⟩
    refine ⟨job.state, (stateOf_some asc).mpr ⟨job, hj, is, rfl⟩, ?_⟩
    rcases done with done | done <;> rw [done] <;> rfl

theorem rootFailed_iff (asc : Ascending (fun job => job.id) s.jobs) :
    plan.RootFailed s.stateOf ↔ ∃ job ∈ s.jobs, job.id = plan.rootJobId ∧ job.state.isFailed = true := by
  unfold TransferPlan.RootFailed
  rw [Option.any_eq_true]
  constructor
  · rintro ⟨state, known, failed⟩
    obtain ⟨job, hj, is, rfl⟩ := (stateOf_some asc).mp known
    exact ⟨job, hj, is, failed⟩
  · rintro ⟨job, hj, is, failed⟩
    exact ⟨job.state, (stateOf_some asc).mpr ⟨job, hj, is, rfl⟩, failed⟩

theorem retriesHeal_iff (valid : s.Valid) : s.RetriesHeal ↔ s.AllHealed := by
  constructor
  · intro heal plan hp succeeded
    by_cases planning : plan.state = .planning
    · exact Or.inl planning
    obtain ⟨some_, done⟩ := (succeeded_iff valid.jobs).mp succeeded
    obtain ⟨completed | cancelled, shown⟩ := heal plan hp planning some_ done
    · exact Or.inr (Or.inl completed)
    · refine Or.inr (Or.inr ⟨cancelled, fun failed => ?_⟩)
      obtain ⟨job, hj, root, isFailed⟩ := (rootFailed_iff valid.jobs).mp failed
      have visible : s.showRoot plan = true := by simp [showRoot, some_, cancelled]
      rw [shown job ((visible_root valid hp root).mpr ⟨hj, visible⟩) root] at isFailed
      cases isFailed
  · intro healed plan hp planning some_ done
    rcases healed plan hp ((succeeded_iff valid.jobs).mpr ⟨some_, done⟩) with is | completed | ⟨cancelled, spared⟩
    · exact absurd is planning
    · refine ⟨Or.inl completed, fun job visible root => ?_⟩
      have shown := ((visible_root valid hp root).mp visible).2
      simp [showRoot, some_, completed] at shown
    · refine ⟨Or.inr cancelled, fun job visible root => ?_⟩
      by_contra failed
      exact spared ((rootFailed_iff valid.jobs).mpr
        ⟨job, ((visible_root valid hp root).mp visible).1, root, by simpa using failed⟩)

theorem retries_heal_iff (ops : List StoreOp) (legal : machine.Admissible (fun s op => op.Legal s) {} ops) :
    (∀ k, (machine.run {} (ops.take k)).RetriesHeal) ↔ machine.Admissible (fun s op => op.Heals s) {} ops := by
  rw [← machine.legal_invariant_iff_admissible (I := AllHealed) (V := Valid) (fun _ _ legal valid => apply_valid valid legal)
    (fun _ _ legal valid healed => apply_healed_iff valid legal healed) legal empty_valid (by simp [AllHealed])]
  exact forall_congr' fun k => retriesHeal_iff (valid_take legal k)

/-- The job 3 fails and is retried while the job 2 still runs. -/
def earlyRetry : List StoreOp :=
  queuedRun ++ sampleEvents [.failed ⟨⟨3⟩, finishedWithFailures⟩, .running { sampleJob 3 with state := .running 0 none ⟨0⟩ },
    .completed ⟨3⟩, .completed ⟨2⟩]

theorem retries_heal_early : (∀ k, (machine.run {} (earlyRetry.take k)).RetriesHeal) ∧
    (machine.run {} earlyRetry).plans.map (fun plan => plan.state) = [.completed] :=
  ⟨(retries_heal_iff earlyRetry (by decide)).mpr (by decide), by decide⟩

/-- All children have succeeded in the end, and the plan stays Failed. -/
theorem late_retry_leaves_plan_failed :
    machine.Admissible (fun s op => op.Legal s) {} (retriedRun ++ sampleEvents [.completed ⟨3⟩]) ∧
      ¬ (machine.run {} (retriedRun ++ sampleEvents [.completed ⟨3⟩])).RetriesHeal ∧
      (machine.run {} (retriedRun ++ sampleEvents [.completed ⟨3⟩])).plans.map (fun plan => plan.state) =
        [.failed finishedWithFailures] := by decide

end TransferStore

end MacSftp
