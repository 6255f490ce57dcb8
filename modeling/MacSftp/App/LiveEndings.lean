import MacSftp.App.LiveTransfers

namespace MacSftp

open Lib

namespace TransferStore

variable {s s' : TransferStore} {plan : TransferPlan} {id : TransferId} {state : TransferState} {now : Timestamp}

/-- The plan's rows are ended, and the foreign rows between them. -/
structure Settles (s : TransferStore) (plan : TransferPlan) (s' : TransferStore) : Prop where
  spared : ∀ id, ¬ s.Touches plan id → s'.stateOf id = s.stateOf id
  ended : ∀ id, s.Touches plan id → ∀ state, s'.stateOf id = some state → state.isTerminal = true
  stored : ∀ id, s'.stateOf id = none ↔ s.stateOf id = none

theorem touches_child (valid : s.Valid) (hp : plan ∈ s.plans) (child : id ∈ plan.childJobs) (there : s.stateOf id ≠ none) :
    s.Touches plan id := by
  obtain ⟨state, known⟩ := Option.ne_none_iff_exists'.mp there
  obtain ⟨job, hj, rfl, _⟩ := (stateOf_some valid.jobs).mp known
  exact (touches_iff_reaches valid.jobs (valid.plans.ascending plan hp) hj).mpr (Or.inl (Or.inr child))

theorem Settles.own (settles : s.Settles plan s') (valid : s.Valid) (hp : plan ∈ s.plans) {plan' : TransferPlan}
    (root : plan'.rootJobId = plan.rootJobId) (children : plan'.childJobs = plan.childJobs) : plan'.Covered s'.stateOf := by
  unfold TransferPlan.Covered
  rw [root, children]
  split
  · intro id child state known
    have there : s.stateOf id ≠ none := by
      intro missing
      rw [(settles.stored id).mpr missing] at known
      cases known
    have ended := settles.ended id (touches_child valid hp child there) state known
    refine ⟨fun awake => ?_, fun live => ?_⟩
    · exact absurd (awake.symm.trans ended) (by simp)
    · exact absurd ((TransferState.isLive_open live).symm.trans ended) (by simp)
  · intro _ rootState known awake
    exact absurd (awake.symm.trans (settles.ended _ (Or.inl rfl) rootState known)) (by simp)

theorem Settles.other (settles : s.Settles plan s') {other : TransferPlan} (covered : other.Covered s.stateOf) :
    other.Covered s'.stateOf ↔ (other.state.byRoot = true → s.Touches plan other.rootJobId →
      ∀ child ∈ other.childJobs, ∀ state, s.stateOf child = some state → state.isLive = true → s.Touches plan child) := by
  unfold TransferPlan.Covered at covered ⊢
  split
  · rename_i byRoot
    rw [if_pos byRoot] at covered
    constructor
    · intro after _ root child hc state known live
      by_contra spared
      obtain ⟨rootState, rootKnown, awake⟩ := (after child hc state ((settles.spared child spared).trans known)).2 live
      exact absurd (awake.symm.trans (settles.ended _ root rootState rootKnown)) (by simp)
    · intro spares child hc state known
      by_cases touched : s.Touches plan child
      · have ended := settles.ended child touched state known
        refine ⟨fun awake => ?_, fun live => ?_⟩
        · exact absurd (awake.symm.trans ended) (by simp)
        · exact absurd ((TransferState.isLive_open live).symm.trans ended) (by simp)
      · have before := (settles.spared child touched).symm.trans known
        refine ⟨fun awake missing => (covered child hc state before).1 awake ((settles.stored _).mp missing), fun live => ?_⟩
        obtain ⟨rootState, rootKnown, awake⟩ := (covered child hc state before).2 live
        have untouched : ¬ s.Touches plan other.rootJobId :=
          fun root => touched (spares byRoot root child hc state before live)
        exact ⟨rootState, (settles.spared _ untouched).trans rootKnown, awake⟩
  · rename_i byChildren
    rw [if_neg byChildren] at covered
    refine iff_of_true ?_ fun byRoot => absurd byRoot byChildren
    intro children rootState known awake
    have untouched : ¬ s.Touches plan other.rootJobId :=
      fun root => absurd (awake.symm.trans (settles.ended _ root rootState known)) (by simp)
    obtain ⟨child, hc, there⟩ := covered children rootState ((settles.spared _ untouched).symm.trans known) awake
    exact ⟨child, hc, fun missing => there ((settles.stored child).mp missing)⟩

theorem settles_covered (valid : s.Valid) (covered : s.AllCovered) (hp : plan ∈ s.plans) (settles : s.Settles plan s')
    {f : TransferPlan → TransferPlan} (root : (f plan).rootJobId = plan.rootJobId)
    (children : (f plan).childJobs = plan.childJobs)
    (plans : s'.plans = s.plans.map (fun other => if other.id = plan.id then f other else other)) :
    s'.AllCovered ↔ s.SparesRoots plan := by
  unfold AllCovered
  rw [plans]
  constructor
  · intro after other ho byRoot touched child hc state known live
    by_cases is : other.id = plan.id
    · cases key_unique (fun plan => plan.id) valid.plans.ids ho hp is
      exact touches_child valid hp hc (by rw [known]; simp)
    · have there := after other (List.mem_map.mpr ⟨other, ho, if_neg is⟩)
      exact (settles.other (covered other ho)).mp there byRoot touched child hc state known live
  · intro spares plan' member
    obtain ⟨other, ho, rfl⟩ := List.mem_map.mp member
    split_ifs with is
    · cases key_unique (fun plan => plan.id) valid.plans.ids ho hp is
      exact settles.own valid hp root children
    · exact (settles.other (covered other ho)).mpr (spares other ho)

theorem stateOf_congr (jobs : s'.jobs = s.jobs) : s'.stateOf = s.stateOf := by
  funext transferId
  unfold stateOf findJob findJobIndex
  rw [jobs]

theorem settles_of_rows (asc : Ascending (fun job => job.id) s.jobs) {stale : TransferJob → Bool}
    (ends : ∀ job, (settle stale state job).state.isTerminal = true)
    (jobs : s'.jobs = s.jobs.map (fun job => if s.Touches plan job.id then settle stale state job else job)) :
    s.Settles plan s' := by
  have keep : ∀ job, (if s.Touches plan job.id then settle stale state job else job).id = job.id := by
    intro job
    split_ifs
    · exact settle_id stale state job
    · rfl
  have look := stateOf_map asc keep jobs
  refine ⟨fun id spared => ?_, fun id touched after known => ?_, fun id => ?_⟩
  · rw [look]
    unfold stateOf
    cases found : s.findJob id with
    | none => rfl
    | some job =>
      rw [← ((findJob_iff asc).mp found).2] at spared
      rw [Option.map_some, if_neg spared, Option.map_some]
  · rw [look, Option.map_eq_some_iff] at known
    obtain ⟨job, found, rfl⟩ := known
    rw [← ((findJob_iff asc).mp found).2] at touched
    rw [if_pos touched]
    exact ends job
  · rw [look, stateOf, Option.map_eq_none_iff, Option.map_eq_none_iff]

theorem only_plan (valid : s.Valid) (hp : plan ∈ s.plans) {P : TransferPlan → Prop} :
    (∀ other ∈ s.plans, other.id = plan.id → P other) ↔ P plan := by
  refine ⟨fun each => each plan hp rfl, fun own other ho is => ?_⟩
  cases key_unique (fun plan => plan.id) valid.plans.ids ho hp is
  exact own

theorem no_plan (valid : s.Valid) {planId : TransferPlanId} (unknown : s.planIndexOf planId = none) :
    ∀ plan ∈ s.plans, plan.id ≠ planId := by
  rintro plan hp rfl
  obtain ⟨planIndex, found⟩ := planIndexOf_of_mem valid.plans.ids hp
  rw [unknown] at found
  cases found

theorem planFailed_cases (valid : s.Valid) (planId : TransferPlanId) (error : UserFacingError) (now : Timestamp) :
    ((∀ plan ∈ s.plans, plan.id ≠ planId) ∧ (s.applyEvent (.planFailed planId error) now).1.plans = s.plans ∧
      (s.applyEvent (.planFailed planId error) now).1.jobs = s.jobs) ∨
    ∃ plan ∈ s.plans, plan.id = planId ∧ (s.applyEvent (.planFailed planId error) now).1.plans =
        s.plans.map (fun other => if other.id = plan.id then { other with state := .failed error } else other) ∧
      (s.applyEvent (.planFailed planId error) now).1.jobs = s.jobs.map (fun job => if s.Touches plan job.id then
        settle (fun job => job.state ≠ .failed error error.retryable) (.failed error error.retryable) job else job) := by
  cases found : { s with justFinishedPlan := none }.planIndexOf planId with
  | none =>
    refine Or.inl ⟨no_plan (s := { s with justFinishedPlan := none }) ⟨valid.jobs, valid.plans⟩ found, ?_⟩
    show (setPlanTerminalState _ _ _ _).1.plans = _ ∧ (setPlanTerminalState _ _ _ _).1.jobs = _
    unfold setPlanTerminalState
    rw [found]
    exact ⟨rfl, rfl⟩
  | some entry =>
    obtain ⟨planIndex, plan⟩ := entry
    obtain ⟨get, rfl, hp⟩ := planIndexOf_some found
    refine Or.inr ⟨plan, hp, rfl, ?_, planFailed_touches valid.jobs valid.plans.ids hp error now⟩
    show (setPlanTerminalState _ _ _ _).1.plans = _
    unfold setPlanTerminalState
    rw [found]
    exact (settleJobs_plans _ _ _ _).trans (modify_eq_map valid.plans.ids get _)

theorem planFailed_covered (valid : s.Valid) (covered : s.AllCovered) (planId : TransferPlanId) (error : UserFacingError) :
    (s.applyEvent (.planFailed planId error) now).1.AllCovered ↔
      (StoreOp.applyEvent (.planFailed planId error) now).Suits s := by
  show _ ↔ ∀ plan ∈ s.plans, plan.id = planId → s.SparesRoots plan
  rcases planFailed_cases valid planId error now with ⟨unknown, plans, rows⟩ | ⟨plan, hp, rfl, plans, rows⟩
  · exact iff_of_true ((allCovered_same plans (stateOf_congr rows)).mpr covered) fun plan hp is => absurd is (unknown plan hp)
  · rw [only_plan valid hp]
    refine settles_covered valid covered hp (settles_of_rows valid.jobs (fun job => ?_) rows) rfl rfl plans
    unfold settle
    split_ifs with stale
    · rfl
    · have kept : job.state = .failed error error.retryable := by simpa using stale
      rw [kept]
      rfl

theorem planCancelled_cases (valid : s.Valid) (planId : TransferPlanId) (now : Timestamp) :
    ((∀ plan ∈ s.plans, plan.id = planId → plan.state.refusesCancel = true) ∧
      (s.applyEvent (.planCancelled planId) now).1.plans = s.plans ∧
      (s.applyEvent (.planCancelled planId) now).1.jobs = s.jobs) ∨
    ∃ plan ∈ s.plans, plan.id = planId ∧ plan.state.refusesCancel = false ∧
      ((∀ job ∈ s.jobs, s.Touches plan job.id → job.state.isTerminal = true) ∧
          (s.applyEvent (.planCancelled planId) now).1.plans = s.plans ∨
        (∃ job ∈ s.jobs, s.Touches plan job.id ∧ job.state.isTerminal = false) ∧
          (s.applyEvent (.planCancelled planId) now).1.plans =
            s.plans.map (fun other => if other.id = plan.id then { other with state := .cancelled } else other)) ∧
      (s.applyEvent (.planCancelled planId) now).1.jobs = s.jobs.map (fun job => if s.Touches plan job.id then
        settle (fun job => !job.state.isTerminal) .skipped job else job) := by
  cases found : { s with justFinishedPlan := none }.planIndexOf planId with
  | none =>
    have unknown := no_plan (s := { s with justFinishedPlan := none }) ⟨valid.jobs, valid.plans⟩ found
    refine Or.inl ⟨fun plan hp is => absurd is (unknown plan hp), ?_⟩
    show (setPlanCancelled _ _).1.plans = _ ∧ (setPlanCancelled _ _).1.jobs = _
    unfold setPlanCancelled
    rw [found]
    exact ⟨rfl, rfl⟩
  | some entry =>
    obtain ⟨planIndex, plan⟩ := entry
    obtain ⟨get, rfl, hp⟩ := planIndexOf_some found
    have rows := planCancelled_touches valid.jobs valid.plans.ids hp now
    have changed : ({ s with justFinishedPlan := none }.settleJobs plan (fun job => !job.state.isTerminal) .skipped).2 = true ↔
        ∃ job ∈ s.jobs, s.Touches plan job.id ∧ job.state.isTerminal = false := by
      rw [settleJobs_touches (s := { s with justFinishedPlan := none }) valid.jobs, List.any_eq_true]
      simp only [Bool.and_eq_true, decide_eq_true_eq, Bool.not_eq_true']
      exact Iff.rfl
    cases refuses : plan.state.refusesCancel with
    | true =>
      refine Or.inl ⟨(only_plan valid hp).mpr refuses, ?_, ?_⟩
      · show (setPlanCancelled _ _).1.plans = _
        unfold setPlanCancelled
        rw [found]
        cases state : plan.state <;> simp_all [TransferPlanState.refusesCancel]
      · simpa [refuses] using rows
    | false =>
      refine Or.inr ⟨plan, hp, rfl, refuses, ?_, by simpa [refuses] using rows⟩
      show _ ∧ (setPlanCancelled _ _).1.plans = _ ∨ _ ∧ (setPlanCancelled _ _).1.plans = _
      unfold setPlanCancelled
      rw [found]
      cases state : plan.state with
      | cancelled | failed =>
        rw [state] at refuses
        cases refuses
      | queued | planning | completed =>
        simp only [state]
        split_ifs with stale
        · refine Or.inr ⟨changed.mp stale, ?_⟩
          refine (congrArg (fun plans => List.modify plans planIndex _) (settleJobs_plans _ _ _ _)).trans ?_
          exact modify_eq_map valid.plans.ids get _
        · refine Or.inl ⟨fun job hj touched => ?_, settleJobs_plans _ _ _ _⟩
          by_contra awake
          exact stale (changed.mpr ⟨job, hj, touched, by simpa using awake⟩)

theorem planCancelled_covered (valid : s.Valid) (covered : s.AllCovered) (planId : TransferPlanId) :
    (s.applyEvent (.planCancelled planId) now).1.AllCovered ↔ (StoreOp.applyEvent (.planCancelled planId) now).Suits s := by
  show _ ↔ ∀ plan ∈ s.plans, plan.id = planId → plan.state.refusesCancel = false → s.SparesRoots plan
  rcases planCancelled_cases valid planId now with ⟨refused, plans, rows⟩ | ⟨plan, hp, rfl, accepts, plans, rows⟩
  · refine iff_of_true ((allCovered_same plans (stateOf_congr rows)).mpr covered) fun plan hp is accepts => ?_
    exact absurd ((refused plan hp is).symm.trans accepts) (by simp)
  · rw [only_plan valid hp]
    refine Iff.trans ?_ ⟨fun spares _ => spares, fun spares => spares accepts⟩
    have settles : s.Settles plan (s.applyEvent (.planCancelled plan.id) now).1 := by
      refine settles_of_rows valid.jobs (fun job => ?_) rows
      unfold settle
      split_ifs with stale
      · rfl
      · simpa using stale
    rcases plans with ⟨_, same⟩ | ⟨_, cancelled⟩
    · refine settles_covered valid covered hp settles (f := fun other => other) rfl rfl (same.trans ?_)
      simp
    · exact settles_covered valid covered hp settles rfl rfl cancelled

theorem stateOf_assign (asc : Ascending (fun job => job.id) s.jobs) (jobs : s'.jobs = s.jobs.map (assign id state)) :
    s'.stateOf = if s.stateOf id = none then s.stateOf else Function.update s.stateOf id (some state) := by
  funext transferId
  rw [stateOf_map asc (assign_id id state) jobs]
  by_cases same : transferId = id
  · subst same
    cases found : s.findJob transferId with
    | none => simp [stateOf, found]
    | some job =>
      have named := ((findJob_iff asc).mp found).2
      simp [stateOf, found, assign, named]
  · have elsewhere : (if s.stateOf id = none then s.stateOf else Function.update s.stateOf id (some state)) transferId =
        s.stateOf transferId := by
      split_ifs
      · rfl
      · exact Function.update_of_ne same _ _
    rw [elsewhere]
    unfold stateOf
    cases found : s.findJob transferId with
    | none => rfl
    | some job =>
      have differs : job.id ≠ id := fun is => same (((findJob_iff asc).mp found).2.symm.trans is)
      rw [Option.map_some, Option.map_some, assign, if_neg differs]

theorem stateOf_assign_other (asc : Ascending (fun job => job.id) s.jobs) (jobs : s'.jobs = s.jobs.map (assign id state))
    {other : TransferId} (ne : other ≠ id) : s'.stateOf other = s.stateOf other := by
  rw [stateOf_assign asc jobs]
  split_ifs
  · rfl
  · exact Function.update_of_ne ne _ _

theorem planCompleted_cases (valid : s.Valid) (planId : TransferPlanId) (now : Timestamp) :
    ((∀ plan ∈ s.plans, plan.id = planId → plan.state.isTerminal = true) ∧
      (s.applyEvent (.planCompleted planId) now).1.plans = s.plans ∧ (s.applyEvent (.planCompleted planId) now).1.jobs = s.jobs) ∨
    ∃ plan ∈ s.plans, plan.id = planId ∧ plan.state.isTerminal = false ∧
      (s.applyEvent (.planCompleted planId) now).1.plans = s.plans.map (fun other => if other.id = plan.id then
        { other with state := if plan.childJobs = [] then .completed else .queued } else other) ∧
      (s.applyEvent (.planCompleted planId) now).1.jobs =
        s.jobs.map (assign plan.rootJobId (if plan.childJobs = [] then .completed else .queued)) := by
  show (_ ∧ (applyPlanCompleted { s with justFinishedPlan := none } planId).1.plans = _ ∧
    (applyPlanCompleted { s with justFinishedPlan := none } planId).1.jobs = _) ∨ ∃ plan ∈ s.plans, _ ∧ _ ∧
    (applyPlanCompleted { s with justFinishedPlan := none } planId).1.plans = _ ∧
    (applyPlanCompleted { s with justFinishedPlan := none } planId).1.jobs = _
  unfold applyPlanCompleted
  cases found : { s with justFinishedPlan := none }.planIndexOf planId with
  | none =>
    have unknown := no_plan (s := { s with justFinishedPlan := none }) ⟨valid.jobs, valid.plans⟩ found
    exact Or.inl ⟨fun plan hp is => absurd is (unknown plan hp), rfl, rfl⟩
  | some entry =>
    obtain ⟨planIndex, plan⟩ := entry
    obtain ⟨get, rfl, hp⟩ := planIndexOf_some found
    dsimp only
    split
    · rename_i closed
      exact Or.inl ⟨(only_plan valid hp).mpr closed, rfl, rfl⟩
    · rename_i open_
      refine Or.inr ⟨plan, hp, rfl, by simpa using open_, ?_, ?_⟩
      · exact (editJob_plans _ _ _).trans (modify_eq_map valid.plans.ids get _)
      · exact setJobState_jobs (s := { s with justFinishedPlan := none }.setPlanState planIndex _) valid.jobs _ _

theorem root_frame (valid : s.Valid) (hp : plan ∈ s.plans) (jobs : s'.jobs = s.jobs.map (assign plan.rootJobId state)) :
    ∀ other ∈ s.plans, other.id ≠ plan.id → ∀ id, other.Owns id → s'.stateOf id = s.stateOf id := by
  intro other ho differs id owns
  apply stateOf_assign_other valid.jobs jobs
  exact fun root => valid.plans.apart other ho plan hp differs id owns (Or.inl root)

theorem root_children (valid : s.Valid) (hp : plan ∈ s.plans) (jobs : s'.jobs = s.jobs.map (assign plan.rootJobId state)) :
    ∀ child ∈ plan.childJobs, s'.stateOf child = s.stateOf child := by
  intro child hc
  exact stateOf_assign_other valid.jobs jobs fun root => valid.plans.root plan hp (root ▸ hc)

theorem planCompleted_covered (valid : s.Valid) (covered : s.AllCovered) (planId : TransferPlanId) :
    (s.applyEvent (.planCompleted planId) now).1.AllCovered ↔ (StoreOp.applyEvent (.planCompleted planId) now).Suits s := by
  show _ ↔ ∀ plan ∈ s.plans, plan.id = planId → plan.state.isTerminal = false → plan.childJobs ≠ [] →
    s.stateOf plan.rootJobId ≠ none → ∃ child ∈ plan.childJobs, s.stateOf child ≠ none
  rcases planCompleted_cases valid planId now with ⟨closed, plans, rows⟩ | ⟨plan, hp, rfl, open_, plans, jobs⟩
  · refine iff_of_true ((allCovered_same plans (stateOf_congr rows)).mpr covered) fun plan hp is open_ => ?_
    exact absurd ((closed plan hp is).symm.trans open_) (by simp)
  · rw [only_plan valid hp]
    apply (allCovered_one valid covered hp plans (root_frame valid hp jobs)).trans
    by_cases empty : plan.childJobs = []
    · exact iff_of_true (childless_covered _ empty) fun _ children => absurd empty children
    · rw [if_neg empty] at jobs plans ⊢
      have children := root_children valid hp jobs
      have root := congrFun (stateOf_assign valid.jobs jobs) plan.rootJobId
      unfold TransferPlan.Covered
      rw [if_neg (by simp [TransferPlanState.byRoot])]
      dsimp only
      rw [root]
      by_cases missing : s.stateOf plan.rootJobId = none
      · rw [if_pos missing, missing]
        exact iff_of_true (by simp) fun _ _ there => absurd rfl there
      · rw [if_neg missing, Function.update_self]
        constructor
        · intro after _ _ _
          obtain ⟨child, hc, there⟩ := after empty .queued rfl rfl
          exact ⟨child, hc, children child hc ▸ there⟩
        · intro suits _ _ _ _
          obtain ⟨child, hc, there⟩ := suits open_ empty missing
          exact ⟨child, hc, (children child hc).symm ▸ there⟩

theorem child_row (valid : s.Valid) (hp : plan ∈ s.plans) {job : TransferJob} (hj : job ∈ s.jobs)
    (child : job.id ∈ plan.childJobs) : job ∈ s.childRows plan := by
  have children := valid.plans.ascending plan hp
  by_cases spans : s.Spans plan
  · rw [childRows_spans valid.jobs children spans]
    exact mem_span_of_child children hj child
  · rw [childRows_not_spans valid.jobs children spans]
    exact List.mem_filter.mpr ⟨hj, by simpa using child⟩

theorem finishPlan_rows (valid : s.Valid) {planIndex : Nat} (get : s.plans[planIndex]? = some plan) (anyFailed : Bool) :
    (s.finishPlan planIndex plan anyFailed).plans = s.plans.map (fun other => if other.id = plan.id then
        { other with state := if anyFailed then .failed finishedWithFailures else .completed } else other) ∧
      (s.finishPlan planIndex plan anyFailed).jobs = s.jobs.map (assign plan.rootJobId
        (if anyFailed then .failed finishedWithFailures true else .completed)) :=
  ⟨modify_eq_map valid.plans.ids get _, finishPlan_jobs valid planIndex plan anyFailed⟩

theorem finishPlan_covered (valid : s.Valid) (covered : s.AllCovered) {planIndex : Nat} (get : s.plans[planIndex]? = some plan)
    (finishes : s.Finishes plan) (anyFailed : Bool) : (s.finishPlan planIndex plan anyFailed).AllCovered := by
  have hp := List.mem_of_getElem? get
  obtain ⟨plans, jobs⟩ := finishPlan_rows valid get anyFailed
  apply (allCovered_one valid covered hp plans (root_frame valid hp jobs)).mpr
  unfold TransferPlan.Covered
  split
  · intro child hc childState known
    have same := root_children valid hp jobs child hc
    obtain ⟨job, hj, rfl, rfl⟩ := (stateOf_some valid.jobs).mp (same.symm.trans known)
    have ended := finishes.2.1 job (child_row valid hp hj hc)
    refine ⟨fun awake => ?_, fun live => ?_⟩
    · exact absurd (awake.symm.trans ended) (by simp)
    · exact absurd ((TransferState.isLive_open live).symm.trans ended) (by simp)
  · intro _ root known awake
    dsimp only at known
    rw [stateOf_assign valid.jobs jobs] at known
    split_ifs at known with missing
    · rw [missing] at known
      cases known
    · rw [Function.update_self] at known
      cases known
      cases awake

theorem fits_ending {look : TransferId → Option TransferState} (covered : plan.Covered look) (terminal : state.isTerminal = true)
    (spared : id = plan.rootJobId → look id = none) : plan.Fits look id state := by
  unfold TransferPlan.Covered at covered
  unfold TransferPlan.Fits
  split
  · rename_i byRoot
    rw [if_pos byRoot] at covered
    refine ⟨fun _ => ⟨fun awake => ?_, fun live => ?_⟩, fun root _ child hc childState known => ?_⟩
    · exact absurd (awake.symm.trans terminal) (by simp)
    · exact absurd ((TransferState.isLive_open live).symm.trans terminal) (by simp)
    · by_contra live
      obtain ⟨_, there, _⟩ := (covered child hc childState known).2 (by simpa using live)
      rw [← root, spared root] at there
      cases there
  · exact fun _ _ awake => absurd (awake.symm.trans terminal) (by simp)

theorem outcome_covered (valid : s.Valid) (covered : s.AllCovered) {event : TransferEvent}
    (outcome : event.outcome = some (id, state)) :
    (s.applyEvent event now).1.AllCovered ↔ s.FitsAll id state := by
  have terminal := outcome_terminal outcome
  have valid' := settledBy_valid valid id state
  have plans := settledBy_plans s id state
  have look := stateOf_assign valid.jobs (settledBy_jobs valid.jobs id state)
  have settled : (s.settledBy id state).AllCovered ↔ s.FitsAll id state := by
    by_cases missing : s.stateOf id = none
    · rw [if_pos missing] at look
      refine iff_of_true ((allCovered_same plans look).mpr covered) fun plan hp => ?_
      exact fits_ending (covered plan hp) terminal fun _ => missing
    · rw [if_neg missing] at look
      exact allCovered_write valid covered plans look
  rw [applyEvent_outcome outcome]
  by_cases owned : ∃ plan ∈ s.plans, id ∈ plan.childJobs
  · obtain ⟨plan, hp, child⟩ := owned
    obtain ⟨planIndex, get, final⟩ := finalizePlanForJob_child valid' (plans.symm ▸ hp) child
    rw [final]
    by_cases finishes : (s.settledBy id state).Finishes plan
    · have fits : s.FitsAll id state := fun other ho =>
        fits_ending (covered other ho) terminal fun root => absurd root (child_not_root valid ho hp child)
      rw [finalizePlan_of_finishes planIndex finishes]
      exact iff_of_true (finishPlan_covered valid' (settled.mpr fits) get finishes _) fits
    · rw [finalizePlan_quiet planIndex finishes]
      exact settled
  · have orphan : ∀ plan ∈ (s.settledBy id state).plans, id ∉ plan.childJobs := by
      rw [plans]
      exact fun plan hp child => owned ⟨plan, hp, child⟩
    obtain ⟨same, rows⟩ := finalizePlanForJob_no_child orphan
    exact (allCovered_same same (stateOf_congr rows)).trans settled

theorem clearTerminal_stateOf (asc : Ascending (fun job => job.id) s.jobs) (id : TransferId) :
    s.clearTerminal.1.stateOf id = (s.stateOf id).filter (fun state => !state.isTerminal) := by
  have asc' : Ascending (fun job => job.id) s.clearTerminal.1.jobs := asc.sublist List.filter_sublist
  ext state
  rw [stateOf_some asc', Option.filter_eq_some_iff, stateOf_some asc]
  constructor
  · rintro ⟨job, there, is, rfl⟩
    obtain ⟨hj, awake⟩ := List.mem_filter.mp there
    exact ⟨⟨job, hj, is, rfl⟩, awake⟩
  · rintro ⟨⟨job, hj, is, rfl⟩, awake⟩
    exact ⟨job, List.mem_filter.mpr ⟨hj, awake⟩, is, rfl⟩

theorem covered_unfinished {look : TransferId → Option TransferState} :
    plan.Covered (fun id => (look id).filter (fun state => !state.isTerminal)) ↔ plan.Clears look := by
  unfold TransferPlan.Covered TransferPlan.Clears TransferPlan.Backs
  simp only [Option.filter_eq_some_iff, Option.ne_none_iff_exists', Bool.not_eq_true', and_imp, and_assoc]
  split
  · refine forall₃_congr fun child _ state => ?_
    constructor
    · intro backs known awake
      obtain ⟨root, there, open_⟩ := (backs known awake).1 awake
      exact ⟨root, there, open_⟩
    · exact fun root known awake => ⟨fun _ => root known awake, fun _ => by simpa using root known awake⟩
  · exact forall_congr' fun _ => ⟨fun after root known awake => after root known awake awake,
      fun clears root known awake _ => clears root known awake⟩

theorem kept_of_open (asc : Ascending (fun job => job.id) s.jobs) (hp : plan ∈ s.plans) (owns : plan.Owns id)
    (known : s.stateOf id = some state) (awake : state.isTerminal = false) : plan ∈ s.clearTerminal.1.plans := by
  obtain ⟨job, hj, rfl, rfl⟩ := (stateOf_some asc).mp known
  have stays : job.id ∈ ((s.jobs.filter (fun job => !job.state.isTerminal)).map (fun job => job.id)).toFinset := by
    rw [List.mem_toFinset]
    exact List.mem_map_of_mem (List.mem_filter.mpr ⟨hj, by simp [awake]⟩)
  refine List.mem_filter.mpr ⟨hp, ?_⟩
  rw [Bool.or_eq_true, decide_eq_true_eq, List.any_eq_true]
  rcases owns with root | child
  · exact Or.inl (root ▸ stays)
  · exact Or.inr ⟨job.id, child, by simpa using stays⟩

theorem clears_dropped (asc : Ascending (fun job => job.id) s.jobs) (hp : plan ∈ s.plans)
    (dropped : plan ∉ s.clearTerminal.1.plans) : plan.Clears s.stateOf := by
  unfold TransferPlan.Clears
  split
  · exact fun child hc state known awake => absurd (kept_of_open asc hp (Or.inr hc) known awake) dropped
  · exact fun _ root known awake => absurd (kept_of_open asc hp (Or.inl rfl) known awake) dropped

theorem clearTerminal_covered (valid : s.Valid) :
    s.clearTerminal.1.AllCovered ↔ ∀ plan ∈ s.plans, plan.Clears s.stateOf := by
  have look : s.clearTerminal.1.stateOf = fun id => (s.stateOf id).filter (fun state => !state.isTerminal) :=
    funext (clearTerminal_stateOf valid.jobs)
  unfold AllCovered
  rw [look]
  constructor
  · intro after plan hp
    by_cases kept : plan ∈ s.clearTerminal.1.plans
    · exact covered_unfinished.mp (after plan kept)
    · exact clears_dropped valid.jobs hp kept
  · exact fun clears plan kept => covered_unfinished.mpr (clears plan (List.mem_of_mem_filter kept))

theorem apply_covered_iff (valid : s.Valid) {op : StoreOp} (legal : op.Legal s) (covered : s.AllCovered) :
    (s.apply op).1.AllCovered ↔ op.Suits s := by
  cases op with
  | applyEvent event now =>
    cases event with
    | planStarted snapshot => exact planStarted_covered valid covered legal
    | planProgress progress => exact planProgress_covered valid covered legal
    | planCompleted planId => exact planCompleted_covered valid covered planId
    | planCancelled planId => exact planCancelled_covered valid covered planId
    | planFailed planId error => exact planFailed_covered valid covered planId error
    | conflict prompt => exact conflict_covered valid covered prompt
    | running job => exact running_covered valid covered job
    | progress progress => exact progress_covered valid covered progress
    | warning warning => exact iff_of_true (@warning_covered s now valid covered warning) trivial
    | completed | skipped | failed => exact outcome_covered valid covered rfl
  | markCancelling transferId => exact iff_of_true (markCancelling_covered valid covered transferId) trivial
  | removeConflict requestId => exact iff_of_true covered trivial
  | clearTerminal => exact clearTerminal_covered valid

theorem valid_take {ops : List StoreOp} (legal : machine.Admissible (fun s op => op.Legal s) {} ops) (k : Nat) :
    (machine.run {} (ops.take k)).Valid := by
  refine reachable_valid ((machine.admissible_append {} (ops.take k) (ops.drop k)).mp ?_).1
  rw [List.take_append_drop]
  exact legal

theorem live_transfers_reached_iff (ops : List StoreOp) (legal : machine.Admissible (fun s op => op.Legal s) {} ops) :
    (∀ k, (machine.run {} (ops.take k)).PlansShown ∧ (machine.run {} (ops.take k)).LiveJobsReached) ↔
      machine.Admissible (fun s op => op.Suits s) {} ops := by
  rw [← machine.legal_invariant_iff_admissible (I := AllCovered) (V := Valid) (fun _ _ legal valid => apply_valid valid legal)
    (fun _ _ legal valid covered => apply_covered_iff valid legal covered) legal empty_valid (by simp [AllCovered])]
  exact forall_congr' fun k => shown_iff_covered (valid_take legal k)

def queuedRun : List StoreOp := sampleEvents
  [.planStarted ⟨samplePlan 1 1 [], { sampleJob 1 with state := .planning }⟩,
    .planProgress ⟨⟨1⟩, [sampleJob 2, sampleJob 3], 2, some 0⟩, .planCompleted ⟨1⟩]

theorem live_transfers_reached_planned :
    (∀ k, (machine.run {} (queuedRun.take k)).PlansShown ∧ (machine.run {} (queuedRun.take k)).LiveJobsReached) ∧
      (machine.run {} queuedRun).cancelAllTransfers = [⟨2⟩, ⟨3⟩] :=
  ⟨(live_transfers_reached_iff queuedRun (by decide)).mpr (by decide), by decide⟩

/-- Every live job is cancelled with the others or has an unfinished root that is. -/
def LiveJobsSeen (s : TransferStore) : Prop :=
  ∀ job ∈ s.jobs, job.state.isLive = true →
    (job ∈ s.visibleTransferJobs ∧ job.id ∈ s.cancelAllTransfers) ∨ s.ReachedByRoot job

instance (s : TransferStore) (job : TransferJob) : Decidable (s.ReachedByRoot job) :=
  inferInstanceAs (Decidable (∃ plan ∈ s.plans, _))

instance (s : TransferStore) : Decidable s.LiveJobsSeen := inferInstanceAs (Decidable (∀ job ∈ s.jobs, _))

/-- The job 3 has failed, and runs again after the plan has ended. -/
def retriedRun : List StoreOp :=
  queuedRun ++ sampleEvents [.completed ⟨2⟩, .failed ⟨⟨3⟩, finishedWithFailures⟩,
    .running { sampleJob 3 with state := .running 0 none ⟨0⟩ }]

theorem retried_child_unseen :
    machine.Admissible (fun s op => op.Legal s) {} queuedRun ∧ ¬ (machine.run {} queuedRun).LiveJobsSeen ∧
      machine.Admissible (fun s op => op.Legal s) {} retriedRun ∧ ¬ (machine.run {} retriedRun).LiveJobsSeen ∧
      (machine.run {} retriedRun).cancelAllTransfers = [] := by
  decide

end TransferStore

end MacSftp
