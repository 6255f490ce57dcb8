import MacSftp.Transfer.Representation

namespace MacSftp

open Lib

namespace TransferStore

variable {s s' : TransferStore}

/-- Nothing but the note about a plan that just finished changes, and the store says so. -/
def Absorbs (s : TransferStore) (event : TransferEvent) (now : Timestamp) : Prop :=
  ∃ finished, s.applyEvent event now = ({ s with justFinishedPlan := finished }, false)

theorem absorbs_of_unchanged {event : TransferEvent} {now : Timestamp}
    (same : s.applyEvent event now = ({ s with justFinishedPlan := none }, false)) :
    (s.applyEvent event now).1.Absorbs event now := by
  rw [same]
  exact ⟨none, same⟩

theorem editJob_absorbed (asc : Ascending (fun job => job.id) s.jobs) {transferId : TransferId}
    {edit : TransferJob → Option TransferJob} (calm : ∀ job ∈ s.jobs, job.id = transferId → edit job = none) :
    s.editJob transferId edit = (s, false) := by
  have same : s.jobs.map (editOf transferId edit) = s.jobs := by
    refine (List.map_congr_left ?_).trans (List.map_id s.jobs)
    intro job hj
    unfold editOf
    split_ifs with is
    · rw [calm job hj is]
      rfl
    · rfl
  have quiet : s.jobs.any (fun job => job.id = transferId && (edit job).isSome) = false := by
    rw [List.any_eq_false]
    intro job hj
    by_cases is : job.id = transferId
    · simp [calm job hj is]
    · simp [is]
  rw [editJob_eq asc, same, quiet]

theorem editJob_calm (asc : Ascending (fun job => job.id) s.jobs) {transferId : TransferId}
    {edit : TransferJob → Option TransferJob} (ids : ∀ job new, edit job = some new → new.id = job.id)
    (once : ∀ job new, edit job = some new → edit new = none) :
    ∀ job ∈ (s.editJob transferId edit).1.jobs, job.id = transferId → edit job = none := by
  intro job hj is
  rw [editJob_eq asc] at hj
  obtain ⟨old, _, rfl⟩ := List.mem_map.mp hj
  rw [editOf_id ids] at is
  unfold editOf
  rw [if_pos is]
  cases edited : edit old with
  | none => exact edited
  | some new => exact once old new edited

theorem editJob_ascending (asc : Ascending (fun job => job.id) s.jobs) (transferId : TransferId)
    {edit : TransferJob → Option TransferJob} (ids : ∀ job new, edit job = some new → new.id = job.id) :
    Ascending (fun job => job.id) (s.editJob transferId edit).1.jobs := by
  rw [editJob_eq asc]
  exact asc.map (editOf_id ids)

theorem withState_once {state : TransferState} (job new : TransferJob) (h : withState state job = some new) :
    withState state new = none := by
  unfold withState at h
  split_ifs at h
  cases h
  exact if_pos rfl

theorem editJob_twice (asc : Ascending (fun job => job.id) s.jobs) (transferId : TransferId)
    {edit : TransferJob → Option TransferJob} (ids : ∀ job new, edit job = some new → new.id = job.id)
    (once : ∀ job new, edit job = some new → edit new = none) (jobs : s'.jobs = (s.editJob transferId edit).1.jobs) :
    s'.editJob transferId edit = (s', false) := by
  apply editJob_absorbed
  · rw [jobs]
    exact editJob_ascending asc transferId ids
  · rw [jobs]
    exact editJob_calm asc ids once

theorem progress_absorbed (asc : Ascending (fun job => job.id) s.jobs) (made : TransferProgress) (now : Timestamp) :
    (s.applyEvent (.progress made) now).1.Absorbs (.progress made) now := by
  have once : (s.applyEvent (.progress made) now).1.jobs =
      ({ s with justFinishedPlan := none }.editJob made.transferId (progressEdit made now)).1.jobs := rfl
  refine ⟨none, editJob_twice (s := { s with justFinishedPlan := none }) asc made.transferId ?_ ?_ once⟩
  · intro job new edited
    obtain ⟨_, _, rfl⟩ := progressEdit_some edited
    rfl
  · intro job new edited
    obtain ⟨_, _, rfl⟩ := progressEdit_some edited
    exact if_pos rfl

theorem warning_absorbed (asc : Ascending (fun job => job.id) s.jobs) (raised : TransferWarning) (now : Timestamp) :
    (s.applyEvent (.warning raised) now).1.Absorbs (.warning raised) now := by
  refine ⟨none, editJob_twice (s := { s with justFinishedPlan := none }) asc raised.transferId ?_ ?_ rfl⟩
  · intro job new edited
    split at edited <;> cases edited
    rfl
  · intro job new edited
    split at edited <;> cases edited
    exact if_pos (List.mem_append_right _ (List.mem_singleton_self raised))

theorem insertJob_absorbed (asc : Ascending (fun job => job.id) s.jobs) {job : TransferJob} (known : ¬ s.Lacks job.id) :
    s.insertJob job = (s, false) := by
  unfold TransferStore.insertJob
  split
  · rfl
  · rename_i missing
    exact absurd (binarySearch_error asc.le missing).2 known

theorem upsertJob_absorbed (asc : Ascending (fun job => job.id) s.jobs) {job : TransferJob} (hj : job ∈ s.jobs) :
    s.upsertJob job = (s, false) := by
  unfold TransferStore.upsertJob
  split
  · rename_i index found
    obtain ⟨old, hi, he⟩ := binarySearch_ok found
    have same : old = job := key_unique (fun job => job.id) asc.nodup (List.mem_of_getElem? hi) hj he
    rw [if_pos (same ▸ hi)]
  · rename_i missing
    exact absurd rfl ((binarySearch_error asc.le missing).2 job hj)

theorem insertPlan_absorbed {plan : TransferPlan} (known : ∃ other ∈ s.plans, other.id = plan.id) :
    s.insertPlan plan = (s, false) := by
  unfold insertPlan
  rw [if_pos (by simpa using known)]

theorem insertPlan_known (s : TransferStore) (plan : TransferPlan) :
    ∃ other ∈ (s.insertPlan plan).1.plans, other.id = plan.id := by
  unfold insertPlan
  split_ifs with known
  · simpa using known
  · exact ⟨plan, List.mem_append_right _ (List.mem_singleton_self plan), rfl⟩

theorem insertJob_known (asc : Ascending (fun job => job.id) s.jobs) (job : TransferJob) :
    ¬ (s.insertJob job).1.Lacks job.id := by
  intro lacks
  have before : s.Lacks job.id := fun old ho => lacks old ((mem_insertJob asc).mpr (Or.inl ho))
  exact lacks job ((mem_insertJob asc).mpr (Or.inr ⟨rfl, before⟩)) rfl

theorem planStarted_absorbed (asc : Ascending (fun job => job.id) s.jobs) (snapshot : TransferPlanSnapshot)
    (now : Timestamp) : (s.applyEvent (.planStarted snapshot) now).1.Absorbs (.planStarted snapshot) now := by
  have asc0 : Ascending (fun job => job.id) ({ s with justFinishedPlan := none }.insertPlan snapshot.plan).1.jobs := by
    rw [insertPlan_frame]
    exact asc
  set s1 := (s.applyEvent (.planStarted snapshot) now).1 with once
  have known : ∃ other ∈ s1.plans, other.id = snapshot.plan.id := by
    have plans : s1.plans = ({ s with justFinishedPlan := none }.insertPlan snapshot.plan).1.plans := insertJob_plans _ _
    rw [plans]
    exact insertPlan_known _ _
  have stored : ¬ s1.Lacks snapshot.rootJob.id := insertJob_known asc0 snapshot.rootJob
  have asc1 : Ascending (fun job => job.id) s1.jobs := insertJob_ascending asc0 snapshot.rootJob
  refine ⟨none, ?_⟩
  simp only [applyEvent, insertPlan_absorbed (s := { s1 with justFinishedPlan := none }) known,
    insertJob_absorbed (s := { s1 with justFinishedPlan := none }) asc1 stored, Bool.or_self]

theorem running_absorbed (asc : Ascending (fun job => job.id) s.jobs) (job : TransferJob) (now : Timestamp) :
    (s.applyEvent (.running job) now).1.Absorbs (.running job) now := by
  have rows : Rows (fun _ => True) (s.applyEvent (.running job) now).1 :=
    Rows.upsertJob (s := { s with justFinishedPlan := none }) ⟨asc, fun _ _ => trivial⟩ trivial
  have stored : job ∈ (s.applyEvent (.running job) now).1.jobs :=
    takenIn_stored asc (List.pairwise_singleton _ _) now (List.mem_singleton_self job)
  exact ⟨none, upsertJob_absorbed (s := { (s.applyEvent (.running job) now).1 with justFinishedPlan := none })
    rows.ascending stored⟩

theorem upsertConflict_absorbed (nodup : (s.pendingConflicts.map (fun conflict => conflict.id)).Nodup)
    {conflict : ConflictRequest} (known : conflict ∈ s.pendingConflicts) : s.upsertConflict conflict = (s, false) := by
  unfold upsertConflict
  rw [findKey_of_mem (fun conflict : ConflictRequest => conflict.id) nodup known]
  exact if_pos rfl

theorem upsertConflict_mem (nodup : (s.pendingConflicts.map (fun conflict => conflict.id)).Nodup)
    (conflict : ConflictRequest) : conflict ∈ (s.upsertConflict conflict).1.pendingConflicts := by
  unfold upsertConflict
  split
  · rename_i existing found
    obtain ⟨member, same⟩ := findKey_mem (fun conflict : ConflictRequest => conflict.id) found
    split_ifs with equal
    · exact equal ▸ member
    · refine (mem_updateKey (fun conflict : ConflictRequest => conflict.id) _ _ nodup).mpr ⟨existing, member, ?_⟩
      rw [if_pos same]
  · exact List.mem_append_right _ (List.mem_singleton_self conflict)

theorem conflict_absorbed (asc : Ascending (fun job => job.id) s.jobs)
    (nodup : (s.pendingConflicts.map (fun conflict => conflict.id)).Nodup) (prompt : TransferConflictPrompt)
    (now : Timestamp) : (s.applyEvent (.conflict prompt) now).1.Absorbs (.conflict prompt) now := by
  set s1 := (s.applyEvent (.conflict prompt) now).1 with once
  set waiting := ({ s with justFinishedPlan := none }.setJobState prompt.transferId
    (.waitingForConflictDecision prompt.planId prompt.requestId)).1 with hw
  have conflicts : waiting.pendingConflicts = s.pendingConflicts := editJob_conflicts _ _ _
  have jobs : s1.jobs = waiting.jobs := upsertConflict_jobs _ _
  have settled : { s1 with justFinishedPlan := none }.setJobState prompt.transferId
      (.waitingForConflictDecision prompt.planId prompt.requestId) = ({ s1 with justFinishedPlan := none }, false) :=
    editJob_twice (s := { s with justFinishedPlan := none }) asc _ withState_id withState_once jobs
  have known := upsertConflict_mem (s := waiting) (conflicts ▸ nodup) ((ConflictRequest.new prompt.requestId prompt.planId
    prompt.transferId prompt.source prompt.destination now).withSourceDetails prompt.sourceSize prompt.sourceModifiedAt)
  have apart := apply_conflicts nodup (.applyEvent (.conflict prompt) now)
  refine ⟨none, ?_⟩
  simp only [applyEvent, applyConflict, settled,
    upsertConflict_absorbed (s := { s1 with justFinishedPlan := none }) apart known, Bool.or_self]

theorem mem_extendChildren (children : List TransferId) (batch : List TransferJob) (id : TransferId) :
    id ∈ (extendChildren children batch).1 ↔ id ∈ children ∨ ∃ job ∈ batch, job.id = id := by
  unfold extendChildren
  split_ifs
  · rw [List.mem_append, List.mem_map]
  · simp only [List.mem_append, List.mem_filterMap]
    constructor
    · rintro (there | ⟨job, hj, is⟩)
      · exact Or.inl there
      · split_ifs at is
        exact Or.inr ⟨job, hj, Option.some.inj is⟩
    · rintro (there | ⟨job, hj, rfl⟩)
      · exact Or.inl there
      · by_cases known : (IdMatcher.new children).contains job.id = true
        · exact Or.inl ((IdMatcher.contains_new children job.id).mp known)
        · exact Or.inr ⟨job, hj, if_neg known⟩

theorem extendChildren_last (children : List TransferId) {batch : List TransferJob}
    (sorted : batch.Pairwise (fun a b => a.id < b.id)) :
    isMonotonicallyAscending (extendChildren children batch).1.getLast? (batch.head?.map (fun job => job.id)) = false := by
  cases hf : batch.head? with
  | none => simp [isMonotonicallyAscending]
  | some first =>
    have above : ∀ job ∈ batch, first.id ≤ job.id := fun job hj => Ascending.head_le sorted hj hf
    have present : first.id ∈ (extendChildren children batch).1 :=
      (mem_extendChildren children batch first.id).mpr (Or.inr ⟨first, List.mem_of_head? hf, rfl⟩)
    obtain ⟨last, hl⟩ : ∃ last, (extendChildren children batch).1.getLast? = some last :=
      ⟨_, List.getLast?_eq_some_getLast (List.ne_nil_of_mem present)⟩
    rw [hl]
    simp only [isMonotonicallyAscending, Option.map_some, decide_eq_false_iff_not, not_lt]
    unfold extendChildren at hl
    split_ifs at hl with ascending
    · rw [List.getLast?_append] at hl
      cases added : (batch.map (fun job => job.id)).getLast? with
      | none =>
        have empty : batch = [] := by simpa using added
        simp [empty] at hf
      | some new =>
        rw [added] at hl
        obtain ⟨job, hj, rfl⟩ := List.mem_map.mp (List.mem_of_getLast? added)
        cases hl
        exact above job hj
    · -- What the merge adds stands behind the children it keeps.
      rw [List.getLast?_append] at hl
      cases added : (batch.filterMap (fun job =>
          if (IdMatcher.new children).contains job.id then none else some job.id)).getLast? with
      | none =>
        rw [added, Option.none_or] at hl
        simpa [isMonotonicallyAscending, hl, hf] using ascending
      | some new =>
        rw [added] at hl
        obtain ⟨job, hj, is⟩ := List.mem_filterMap.mp (List.mem_of_getLast? added)
        split_ifs at is
        cases is
        cases hl
        exact above job hj

theorem extendChildren_twice (children : List TransferId) {batch : List TransferJob}
    (sorted : batch.Pairwise (fun a b => a.id < b.id)) :
    extendChildren (extendChildren children batch).1 batch = ((extendChildren children batch).1, false) := by
  have last := extendChildren_last children sorted
  have none_ : batch.filterMap (fun job =>
      if (IdMatcher.new (extendChildren children batch).1).contains job.id then none else some job.id) = [] := by
    rw [List.filterMap_eq_nil_iff]
    intro job hj
    exact if_pos ((IdMatcher.contains_new _ _).mpr ((mem_extendChildren _ _ _).mpr (Or.inr ⟨job, hj, rfl⟩)))
  generalize (extendChildren children batch).1 = extended at last none_
  unfold extendChildren
  rw [if_neg (by simp [last])]
  simp only [none_, List.append_nil, ne_eq, not_true_eq_false, decide_false]

theorem extendPlan_twice (plan : TransferPlan) {progress : TransferPlanProgress}
    (sorted : progress.childJobs.Pairwise (fun a b => a.id < b.id)) :
    extendPlan (extendPlan plan progress).1 progress = ((extendPlan plan progress).1, false) := by
  have counted : ¬ progress.plannedCount > (extendPlan plan progress).1.plannedCount := by
    simp only [extendPlan]
    split_ifs with more
    · exact lt_irrefl _
    · exact more
  have children : extendChildren (extendPlan plan progress).1.childJobs progress.childJobs =
      ((extendPlan plan progress).1.childJobs, false) := extendChildren_twice plan.childJobs sorted
  rw [extendPlan]
  simp only [counted, decide_false, Bool.false_or, if_false, children]

theorem insertEach_absorbed (asc : Ascending (fun job => job.id) s.jobs) {batch : List TransferJob}
    (known : ∀ job ∈ batch, ¬ s.Lacks job.id) : s.insertEach batch = (s, false) := by
  induction batch with
  | nil => rfl
  | cons job rest ih =>
    have first := insertJob_absorbed asc (known job List.mem_cons_self)
    have others := ih fun job hj => known job (List.mem_cons_of_mem _ hj)
    simp only [insertEach, first, others, Bool.or_self]

theorem insertJobs_absorbed (asc : Ascending (fun job => job.id) s.jobs) {batch : List TransferJob}
    (known : ∀ job ∈ batch, ¬ s.Lacks job.id) : s.insertJobs batch = (s, false) := by
  unfold TransferStore.insertJobs
  split_ifs with ascending
  · exfalso
    cases hf : batch.head? with
    | none => simp [hf, isMonotonicallyAscending] at ascending
    | some first =>
      have stored := known first (List.mem_of_head? hf)
      unfold Lacks at stored
      push Not at stored
      obtain ⟨job, hj, same⟩ := stored
      obtain ⟨last, hl⟩ : ∃ last, s.jobs.getLast? = some last :=
        ⟨_, List.getLast?_eq_some_getLast (List.ne_nil_of_mem hj)⟩
      simp only [hl, hf, Option.map_some, isMonotonicallyAscending, decide_eq_true_eq, ← same] at ascending
      exact absurd ascending (not_lt.mpr (asc.le_getLast hj hl))
  · exact insertEach_absorbed asc known

theorem insertJobs_known (asc : Ascending (fun job => job.id) s.jobs) {batch : List TransferJob}
    (sorted : batch.Pairwise (fun a b => a.id < b.id)) : ∀ job ∈ batch, ¬ (s.insertJobs batch).1.Lacks job.id := by
  intro job hj lacks
  have before : s.Lacks job.id := fun old ho => lacks old ((mem_insertJobs asc sorted).mpr (Or.inl ho))
  exact lacks job ((mem_insertJobs asc sorted).mpr (Or.inr ⟨hj, before⟩)) rfl

def extendedBy (s : TransferStore) (plan : TransferPlan) (progress : TransferPlanProgress) : TransferStore :=
  let plans := updateKey (fun plan => plan.id) progress.planId (fun _ => (extendPlan plan progress).1) s.plans
  { s with plans := plans }

theorem applyPlanProgress_open {progress : TransferPlanProgress} {plan : TransferPlan}
    (found : s.findPlan progress.planId = some plan) (open_ : ¬ plan.state.isTerminal = true) :
    s.applyPlanProgress progress = (((s.extendedBy plan progress).insertJobs progress.childJobs).1,
      (extendPlan plan progress).2 || ((s.extendedBy plan progress).insertJobs progress.childJobs).2) := by
  unfold applyPlanProgress
  rw [found]
  exact if_neg open_

theorem planProgress_absorbed (asc : Ascending (fun job => job.id) s.jobs)
    (ids : (s.plans.map (fun plan => plan.id)).Nodup) {progress : TransferPlanProgress}
    (sorted : progress.childJobs.Pairwise (fun a b => a.id < b.id)) (now : Timestamp) :
    (s.applyEvent (.planProgress progress) now).1.Absorbs (.planProgress progress) now := by
  have again : ∀ (s1 : TransferStore) plans, s1.jobs = ({ s with plans := plans, justFinishedPlan := none }.insertJobs
      progress.childJobs).1.jobs → s1.insertJobs progress.childJobs = (s1, false) := by
    intro s1 plans jobs
    apply insertJobs_absorbed
    · rw [jobs]
      exact insertJobs_ascending (s := { s with plans := plans, justFinishedPlan := none }) asc sorted
    · intro job hj
      unfold Lacks
      rw [jobs]
      exact insertJobs_known (s := { s with plans := plans, justFinishedPlan := none }) asc sorted job hj
  cases found : s.findPlan progress.planId with
  | none =>
    have once : s.applyEvent (.planProgress progress) now =
        { s with justFinishedPlan := none }.insertJobs progress.childJobs := by
      simp only [applyEvent, applyPlanProgress,
        show { s with justFinishedPlan := none }.findPlan progress.planId = none from found]
    have jobs := again { (s.applyEvent (.planProgress progress) now).1 with justFinishedPlan := none } s.plans
      (congrArg (fun r => r.1.jobs) once)
    have same : { (s.applyEvent (.planProgress progress) now).1 with justFinishedPlan := none }.findPlan progress.planId =
        none := by
      rw [once, insertJobs_frame]
      exact found
    refine ⟨none, ?_⟩
    show applyPlanProgress _ progress = _
    unfold applyPlanProgress
    rw [same]
    exact jobs
  | some plan =>
    obtain ⟨hp, named⟩ := findKey_mem (fun plan : TransferPlan => plan.id) found
    have found0 : { s with justFinishedPlan := none }.findPlan progress.planId = some plan := found
    by_cases closed : plan.state.isTerminal = true
    · apply absorbs_of_unchanged
      simp only [applyEvent, applyPlanProgress, found0, closed, ↓reduceIte]
    · set plans := updateKey (fun plan : TransferPlan => plan.id) progress.planId
        (fun _ => (extendPlan plan progress).1) s.plans with hplans
      set s1 := (s.applyEvent (.planProgress progress) now).1 with hs1
      have once : s1 = ({ s with plans := plans, justFinishedPlan := none }.insertJobs progress.childJobs).1 := by
        rw [hs1, show s.applyEvent (.planProgress progress) now =
          { s with justFinishedPlan := none }.applyPlanProgress progress from rfl, applyPlanProgress_open found0 closed]
        rfl
      have plans1 : s1.plans = plans := by rw [once, insertJobs_frame]
      have jobs1 := congrArg TransferStore.jobs once
      have have_ : PlansHave (fun _ => True) plans :=
        (updated_plansHave_iff (p := (extendPlan plan progress).1) ⟨ids, fun _ _ => trivial⟩ hp named named).mpr trivial
      have member : (extendPlan plan progress).1 ∈ plans := by
        refine (mem_updateKey (fun plan : TransferPlan => plan.id) _ _ ids).mpr ⟨plan, hp, ?_⟩
        rw [if_pos named]
      have found1 : { s1 with justFinishedPlan := none }.findPlan progress.planId = some (extendPlan plan progress).1 := by
        rw [← named, ← extendPlan_id plan progress]
        show findKey (fun plan : TransferPlan => plan.id) _ s1.plans = _
        rw [plans1]
        exact findKey_of_mem _ have_.ids member
      have same : extendedBy { s1 with justFinishedPlan := none } (extendPlan plan progress).1 progress =
          { s1 with justFinishedPlan := none } := by
        have kept : updateKey (fun plan : TransferPlan => plan.id) progress.planId (fun _ => (extendPlan plan progress).1)
            s1.plans = s1.plans := by
          rw [plans1]
          exact updateKey_self _ have_.ids member named
        rw [extendedBy, extendPlan_twice plan sorted, kept]
      refine ⟨none, ?_⟩
      show applyPlanProgress { s1 with justFinishedPlan := none } progress = _
      rw [applyPlanProgress_open found1 closed, same, extendPlan_twice plan sorted,
        again { s1 with justFinishedPlan := none } plans jobs1]
      rfl

theorem findIdx_shape {plans plans' : List TransferPlan}
    (same : plans'.map TransferPlan.shape = plans.map TransferPlan.shape) {p : TransferPlan → Bool}
    (shaped : ∀ plan other : TransferPlan, plan.shape = other.shape → p plan = p other) :
    plans'.findIdx? p = plans.findIdx? p := by
  induction plans generalizing plans' with
  | nil =>
    rw [List.map_nil, List.map_eq_nil_iff] at same
    rw [same]
  | cons plan rest ih =>
    obtain ⟨first, others, rfl, head, tail⟩ := List.map_eq_cons_iff.mp same
    rw [List.findIdx?_cons, List.findIdx?_cons, shaped first plan head, ih tail]

theorem planIndexOf_modify {planId : TransferPlanId} {planIndex : Nat} {plan : TransferPlan} {state : TransferPlanState}
    (found : s.planIndexOf planId = some (planIndex, plan))
    (plans : s'.plans = s.plans.modify planIndex (fun plan => { plan with state := state })) :
    s'.planIndexOf planId = some (planIndex, { plan with state := state }) := by
  obtain ⟨index, hi, hm⟩ := Option.bind_eq_some_iff.mp found
  obtain ⟨get, _, _⟩ := planIndexOf_some found
  obtain ⟨_, _, he⟩ := Option.map_eq_some_iff.mp hm
  cases he
  have position : s'.plans.findIdx? (fun plan => plan.id = planId) = some planIndex := by
    rw [plans, ← hi]
    refine findIdx_shape (modify_shape _ _ _) ?_
    intro one two same
    simp only [TransferPlan.shape, Prod.mk.injEq] at same
    rw [same.1]
  have stored : s'.plans[planIndex]? = some { plan with state := state } := by
    rw [plans, List.getElem?_modify, get]
    simp
  unfold planIndexOf
  rw [position, Option.bind_some, stored, Option.map_some]

theorem setPlanState_modified {planIndex : Nat} {state : TransferPlanState} {plans : List TransferPlan}
    (modified : s.plans = plans.modify planIndex (fun plan => { plan with state := state })) :
    s.setPlanState planIndex state = s := by
  have same : s.plans.modify planIndex (fun plan => { plan with state := state }) = s.plans := by
    rw [modified]
    apply List.ext_getElem?
    intro i
    rw [List.getElem?_modify, List.getElem?_modify]
    cases plans[i]? with
    | none => rfl
    | some plan =>
      by_cases here : planIndex = i <;> simp [here]
  rw [setPlanState, same]

theorem planCompleted_absorbed (asc : Ascending (fun job => job.id) s.jobs) (planId : TransferPlanId) (now : Timestamp) :
    (s.applyEvent (.planCompleted planId) now).1.Absorbs (.planCompleted planId) now := by
  cases found : { s with justFinishedPlan := none }.planIndexOf planId with
  | none =>
    apply absorbs_of_unchanged
    simp only [applyEvent, applyPlanCompleted, found]
  | some entry =>
    obtain ⟨planIndex, plan⟩ := entry
    by_cases closed : plan.state.isTerminal = true
    · apply absorbs_of_unchanged
      simp only [applyEvent, applyPlanCompleted, found, closed, ↓reduceIte]
    · set planState := if plan.childJobs = [] then TransferPlanState.completed else .queued with hps
      set rootState := if plan.childJobs = [] then TransferState.completed else .queued with hrs
      set marked := { s with justFinishedPlan := none }.setPlanState planIndex planState with hmarked
      set s1 := (s.applyEvent (.planCompleted planId) now).1 with hs1
      have once : s1 = (marked.setJobState plan.rootJobId rootState).1 := by
        rw [hs1]
        simp only [applyEvent, applyPlanCompleted, found, if_neg closed]
        rfl
      have plans1 : s1.plans = s.plans.modify planIndex (fun plan => { plan with state := planState }) := by
        rw [once]
        exact editJob_plans _ _ _
      have found1 : { s1 with justFinishedPlan := none }.planIndexOf planId =
          some (planIndex, { plan with state := planState }) := planIndexOf_modify found plans1
      have jobs1 := congrArg TransferStore.jobs once
      have settled : { s1 with justFinishedPlan := none }.setJobState plan.rootJobId rootState =
          ({ s1 with justFinishedPlan := none }, false) :=
        editJob_twice (s := marked) asc _ withState_id withState_once jobs1
      refine ⟨none, ?_⟩
      show applyPlanCompleted { s1 with justFinishedPlan := none } planId = _
      by_cases empty : plan.childJobs = []
      · simp only [applyPlanCompleted, found1, hps, empty, ↓reduceIte, TransferPlanState.isTerminal]
      · have queued : planState = .queued := if_neg empty
        have same := setPlanState_modified (s := { s1 with justFinishedPlan := none }) plans1
        rw [queued] at found1 same
        rw [hrs, if_neg empty] at settled
        simp only [applyPlanCompleted, found1, empty, ↓reduceIte, TransferPlanState.isTerminal, Bool.false_eq_true, same,
          settled, ne_eq, not_true_eq_false, decide_false, Bool.or_self]

theorem settleJobs_absorbed (asc : Ascending (fun job => job.id) s.jobs) {plan : TransferPlan}
    {stale : TransferJob → Bool} {state : TransferState}
    (calm : ∀ job ∈ s.jobs, s.Touches plan job.id → stale job = false) :
    s.settleJobs plan stale state = (s, false) := by
  have same : s.jobs.map (fun job => if s.Touches plan job.id then settle stale state job else job) = s.jobs := by
    refine (List.map_congr_left ?_).trans (List.map_id s.jobs)
    intro job hj
    split_ifs with touched
    · rw [settle, calm job hj touched]
      rfl
    · rfl
  have quiet : s.jobs.any (fun job => s.Touches plan job.id && stale job) = false := by
    rw [List.any_eq_false]
    intro job hj
    by_cases touched : s.Touches plan job.id
    · simp [calm job hj touched]
    · simp [touched]
  rw [settleJobs_touches asc, same, quiet]

theorem planCancelled_absorbed (asc : Ascending (fun job => job.id) s.jobs) (planId : TransferPlanId) (now : Timestamp) :
    (s.applyEvent (.planCancelled planId) now).1.Absorbs (.planCancelled planId) now := by
  cases found : { s with justFinishedPlan := none }.planIndexOf planId with
  | none =>
    apply absorbs_of_unchanged
    simp only [applyEvent, setPlanCancelled, found]
  | some entry =>
    obtain ⟨planIndex, plan⟩ := entry
    by_cases refused : plan.state.refusesCancel = true
    · apply absorbs_of_unchanged
      simp only [applyEvent, setPlanCancelled, found]
      cases state : plan.state with
      | cancelled | failed => rfl
      | queued | planning | completed => rw [state] at refused; cases refused
    · set settled := { s with justFinishedPlan := none }.settleJobs plan (fun job => !job.state.isTerminal) .skipped with hs
      have once : s.applyEvent (.planCancelled planId) now =
          if settled.2 then ({ settled.1.setPlanState planIndex .cancelled with justFinishedPlan := some planId }, true)
          else (settled.1, false) := by
        simp only [applyEvent, setPlanCancelled, found]
        cases state : plan.state with
        | cancelled | failed => rw [state] at refused; exact absurd rfl refused
        | queued | planning | completed => rfl
      by_cases changed : settled.2 = true
      · rw [once, if_pos changed]
        refine ⟨none, ?_⟩
        have found1 : { settled.1.setPlanState planIndex .cancelled with justFinishedPlan := none }.planIndexOf planId =
            some (planIndex, { plan with state := .cancelled }) := by
          have kept : settled.1.plans = s.plans := settleJobs_plans _ _ _ _
          apply planIndexOf_modify found
          show settled.1.plans.modify planIndex _ = _
          rw [kept]
        simp only [applyEvent, setPlanCancelled, found1]
      · apply absorbs_of_unchanged
        rw [once, if_neg changed]
        have calm : ∀ job ∈ s.jobs, { s with justFinishedPlan := none }.Touches plan job.id →
            (!job.state.isTerminal) = false := by
          intro job hj touched
          rw [hs, settleJobs_touches (s := { s with justFinishedPlan := none }) asc, List.any_eq_true] at changed
          by_contra stale
          exact changed ⟨job, hj, by simp [touched, Bool.eq_true_of_not_eq_false stale]⟩
        rw [hs, settleJobs_absorbed (s := { s with justFinishedPlan := none }) asc calm]

theorem findJobIndex_map (asc : Ascending (fun job => job.id) s.jobs) {g : TransferJob → TransferJob}
    (ids : ∀ job, (g job).id = job.id) (jobs : s'.jobs = s.jobs.map g) (transferId : TransferId) :
    s'.findJobIndex transferId = s.findJobIndex transferId := by
  have asc' : Ascending (fun job => job.id) s'.jobs := by
    rw [jobs]
    exact asc.map ids
  apply Option.ext
  intro index
  rw [findJobIndex_some asc', findJobIndex_some asc, jobs]
  simp only [List.getElem?_map, Option.map_eq_some_iff]
  constructor
  · rintro ⟨_, ⟨job, hj, rfl⟩, is⟩
    exact ⟨job, hj, (ids job).symm.trans is⟩
  · rintro ⟨job, hj, is⟩
    exact ⟨g job, ⟨job, hj, rfl⟩, (ids job).trans is⟩

theorem touches_map (asc : Ascending (fun job => job.id) s.jobs) {g : TransferJob → TransferJob}
    (ids : ∀ job, (g job).id = job.id) (jobs : s'.jobs = s.jobs.map g) {plan plan' : TransferPlan}
    (same : plan'.shape = plan.shape) (transferId : TransferId) :
    s'.Touches plan' transferId ↔ s.Touches plan transferId := by
  simp only [TransferPlan.shape, Prod.mk.injEq] at same
  have range : s'.childJobsSliceRange plan' = s.childJobsSliceRange plan := by
    simp only [childJobsSliceRange, same.2.2, findJobIndex_map asc ids jobs]
  have targets : s'.targets plan' = s.targets plan := by
    unfold TransferStore.targets
    rw [range, same.2.2, jobs]
    split
    · rw [slice, ← List.map_drop, ← List.map_take, List.map_map]
      exact List.map_congr_left fun job _ => ids job
    · rfl
  simp only [Touches, same.2.1, targets]

theorem planFailed_absorbed (asc : Ascending (fun job => job.id) s.jobs) (planId : TransferPlanId)
    (error : UserFacingError) (now : Timestamp) :
    (s.applyEvent (.planFailed planId error) now).1.Absorbs (.planFailed planId error) now := by
  cases found : { s with justFinishedPlan := none }.planIndexOf planId with
  | none =>
    apply absorbs_of_unchanged
    simp only [applyEvent, setPlanTerminalState, found]
  | some entry =>
    obtain ⟨planIndex, plan⟩ := entry
    set jobState := TransferState.failed error error.retryable with hjs
    set marked := { s with justFinishedPlan := none }.setPlanState planIndex (.failed error) with hmarked
    set stale := fun job : TransferJob => decide (job.state ≠ jobState) with hstale
    set s1 := (s.applyEvent (.planFailed planId error) now).1 with hs1
    have plans1 : s1.plans = s.plans.modify planIndex (fun plan => { plan with state := .failed error }) := by
      rw [hs1]
      simp only [applyEvent, setPlanTerminalState, found]
      exact settleJobs_plans _ _ _ _
    have jobs1 : s1.jobs = s.jobs.map (fun job => if marked.Touches plan job.id then settle stale jobState job else job) := by
      rw [hs1]
      simp only [applyEvent, setPlanTerminalState, found]
      exact congrArg (fun r => r.1.jobs) (settleJobs_touches (s := marked) asc plan stale jobState)
    have found1 : { s1 with justFinishedPlan := none }.planIndexOf planId =
        some (planIndex, { plan with state := .failed error }) := planIndexOf_modify found plans1
    have same := setPlanState_modified (s := { s1 with justFinishedPlan := none }) plans1
    have calm : ∀ job ∈ s1.jobs, { s1 with justFinishedPlan := none }.Touches { plan with state := .failed error } job.id →
        stale job = false := by
      intro job hj touched
      have before : marked.Touches plan job.id :=
        (touches_map (s := marked) asc (settled_id stale jobState) jobs1 rfl job.id).mp touched
      rw [jobs1] at hj
      obtain ⟨old, _, rfl⟩ := List.mem_map.mp hj
      rw [settled_id (c := fun job => marked.Touches plan job.id)] at before
      rw [if_pos before]
      by_cases h : stale old = true
      · have new : settle stale jobState old = { old with state := jobState } := if_pos h
        rw [new]
        exact decide_eq_false (not_not.mpr rfl)
      · have kept : settle stale jobState old = old := if_neg h
        rw [kept]
        exact Bool.eq_false_of_not_eq_true h
    have asc1 : Ascending (fun job => job.id) s1.jobs := by
      rw [jobs1]
      exact asc.map (settled_id stale jobState)
    have quiet : { s1 with justFinishedPlan := none }.settleJobs { plan with state := .failed error }
        (fun job => decide (job.state ≠ TransferState.failed error error.retryable)) (.failed error error.retryable) =
        ({ s1 with justFinishedPlan := none }, false) :=
      settleJobs_absorbed (s := { s1 with justFinishedPlan := none }) asc1 calm
    refine ⟨none, ?_⟩
    simp only [applyEvent, setPlanTerminalState, found1, same, quiet]
    simp

theorem mem_removeConflicts {ids : List ConflictRequestId} {conflict : ConflictRequest}
    (h : conflict ∈ (s.removeConflicts ids).1.pendingConflicts) : conflict ∈ s.pendingConflicts ∧ conflict.id ∉ ids := by
  induction ids generalizing s with
  | nil => exact ⟨h, List.not_mem_nil⟩
  | cons id rest ih =>
    obtain ⟨there, out⟩ := ih (s := (s.removeConflict id).1) h
    obtain ⟨there, differs⟩ := List.mem_filter.mp there
    simp only [List.mem_cons, not_or]
    exact ⟨there, of_decide_eq_true differs, out⟩

theorem settledBy_answered (s : TransferStore) (transferId : TransferId) (state : TransferState) :
    ∀ conflict ∈ (s.settledBy transferId state).pendingConflicts, conflict.transferId ≠ transferId := by
  intro conflict member is
  obtain ⟨there, out⟩ := mem_removeConflicts member
  refine out (List.mem_map.mpr ⟨conflict, ?_, rfl⟩)
  exact List.mem_filter.mpr ⟨there, decide_eq_true is⟩

theorem setTransferTerminal_settled (asc : Ascending (fun job => job.id) s.jobs) {transferId : TransferId}
    {state : TransferState} (settled : ∀ job ∈ s.jobs, job.id = transferId → job.state = state)
    (answered : ∀ conflict ∈ s.pendingConflicts, conflict.transferId ≠ transferId) :
    s.setTransferTerminal transferId state = s.finalizePlanForJob transferId := by
  have same : s.setJobState transferId state = (s, false) :=
    editJob_absorbed asc fun job hj is => if_pos (settled job hj is)
  have open_ : s.pendingConflicts.filter (fun conflict => conflict.transferId = transferId) = [] := by
    rw [List.filter_eq_nil_iff]
    intro conflict member
    simpa using answered conflict member
  simp only [setTransferTerminal, same, open_, List.map_nil, removeConflicts, Bool.or_self, Bool.false_or]

theorem childRows_congr (jobs : s'.jobs = s.jobs) (plan : TransferPlan) : s'.childRows plan = s.childRows plan := by
  simp only [childRows, childJobsSliceRange, findJobIndex, jobs]

theorem finalizePlanForJob_twice (s s' : TransferStore) (transferId : TransferId)
    (plans : s'.plans = (s.finalizePlanForJob transferId).1.plans)
    (jobs : s'.jobs = (s.finalizePlanForJob transferId).1.jobs) :
    ∃ finished, s'.finalizePlanForJob transferId = ({ s' with justFinishedPlan := finished }, false) := by
  cases position : s.plans.findIdx? (fun plan => planHasChild plan transferId) with
  | none =>
    have kept : s'.plans = s.plans := by
      rw [plans]
      simp only [finalizePlanForJob, position, Option.bind_none]
      split <;> rfl
    have position' : s'.plans.findIdx? (fun plan => planHasChild plan transferId) = none := kept ▸ position
    unfold finalizePlanForJob
    rw [position', Option.bind_none]
    dsimp only
    split
    · exact ⟨_, rfl⟩
    · exact ⟨s'.justFinishedPlan, rfl⟩
  | some planIndex =>
    obtain ⟨inside, _, _⟩ := List.findIdx?_eq_some_iff_getElem.mp position
    obtain ⟨plan, get⟩ : ∃ plan, s.plans[planIndex]? = some plan := ⟨_, List.getElem?_eq_getElem inside⟩
    have once : s.finalizePlanForJob transferId = s.finalizePlan planIndex plan := by
      simp only [finalizePlanForJob, position, Option.bind_some, get, Option.map_some]
    have again : ∀ plan', s'.plans.findIdx? (fun plan => planHasChild plan transferId) = some planIndex →
        s'.plans[planIndex]? = some plan' → ¬ s'.Finishes plan' →
        ∃ finished, s'.finalizePlanForJob transferId = ({ s' with justFinishedPlan := finished }, false) := by
      intro plan' position' get' open_
      refine ⟨s'.justFinishedPlan, ?_⟩
      simp only [finalizePlanForJob, position', Option.bind_some, get', Option.map_some]
      exact finalizePlan_quiet planIndex open_
    rw [once] at plans jobs
    by_cases finishes : s.Finishes plan
    · rw [finalizePlan_of_finishes planIndex finishes] at plans jobs
      set planState := if (s.childRows plan).any (fun job => job.state.isFailed) = true
        then TransferPlanState.failed finishedWithFailures else .completed with hps
      have modified : s'.plans = s.plans.modify planIndex (fun plan => { plan with state := planState }) := plans
      have terminal : planState.isTerminal = true := by
        rw [hps]
        split_ifs <;> rfl
      refine again { plan with state := planState } ?_ ?_ ?_
      · rw [← position, modified]
        refine findIdx_shape (modify_shape _ _ _) ?_
        intro one two same
        simp only [TransferPlan.shape, Prod.mk.injEq] at same
        simp only [planHasChild, same.2.2]
      · rw [modified, List.getElem?_modify, get]
        simp
      · intro open_
        rw [open_.1] at terminal
        cases terminal
    · rw [finalizePlan_quiet planIndex finishes] at plans jobs
      refine again plan (plans ▸ position) (plans ▸ get) ?_
      intro open_
      rw [Finishes, childRows_congr jobs] at open_
      exact finishes open_

theorem finalizePlanForJob_settled (asc : Ascending (fun job => job.id) s.jobs)
    (roots : ∀ plan ∈ s.plans, plan.rootJobId ∉ plan.childJobs) {transferId : TransferId} {state : TransferState}
    (settled : ∀ job ∈ s.jobs, job.id = transferId → job.state = state) :
    ∀ job ∈ (s.finalizePlanForJob transferId).1.jobs, job.id = transferId → job.state = state := by
  unfold finalizePlanForJob
  split
  · rename_i planIndex plan found
    obtain ⟨index, position, hm⟩ := Option.bind_eq_some_iff.mp found
    obtain ⟨_, get, he⟩ := Option.map_eq_some_iff.mp hm
    cases he
    obtain ⟨inside, holds, _⟩ := List.findIdx?_eq_some_iff_getElem.mp position
    obtain ⟨_, is⟩ := List.getElem?_eq_some_iff.mp get
    rw [is] at holds
    have child : transferId ∈ plan.childJobs := (planHasChild_iff plan transferId).mp holds
    unfold finalizePlan
    split
    · exact settled
    · split
      · exact settled
      · split
        · exact settled
        · -- The finalizer rewrites the root, which is none of the children.
          intro job hj named
          obtain ⟨old, ho, rfl⟩ := (mem_updateKey (fun job : TransferJob => job.id) _ _ asc.nodup).mp hj
          by_cases root : old.id = plan.rootJobId
          · rw [if_pos root] at named
            have same : plan.rootJobId = transferId := root.symm.trans named
            exact absurd (same ▸ child) (roots plan (List.mem_of_getElem? get))
          · rw [if_neg root] at named ⊢
            exact settled old ho named
  · split
    · exact settled
    · exact settled

theorem outcome_absorbed (asc : Ascending (fun job => job.id) s.jobs)
    (roots : ∀ plan ∈ s.plans, plan.rootJobId ∉ plan.childJobs) {event : TransferEvent} {transferId : TransferId}
    {state : TransferState} (h : event.outcome = some (transferId, state)) (now : Timestamp) :
    (s.applyEvent event now).1.Absorbs event now := by
  set s1 := (s.applyEvent event now).1 with hs1
  have once : s1 = ((s.settledBy transferId state).finalizePlanForJob transferId).1 := applyEvent_outcome h now
  have asc' : Ascending (fun job => job.id) (s.settledBy transferId state).jobs := by
    rw [settledBy_jobs asc]
    exact asc.map (assign_id transferId state)
  have assigned : ∀ job ∈ (s.settledBy transferId state).jobs, job.id = transferId → job.state = state := by
    intro job hj is
    rw [settledBy_jobs asc] at hj
    obtain ⟨old, _, rfl⟩ := List.mem_map.mp hj
    rw [assign_id] at is
    rw [assign, if_pos is]
  have roots' : ∀ plan ∈ (s.settledBy transferId state).plans, plan.rootJobId ∉ plan.childJobs := by
    rw [settledBy_plans]
    exact roots
  have rows : Rows (fun _ => True) ((s.settledBy transferId state).finalizePlanForJob transferId).1 :=
    Rows.finalizePlanForJob (fun _ _ _ => trivial) ⟨asc', fun _ _ => trivial⟩ transferId
  have settled : ∀ job ∈ s1.jobs, job.id = transferId → job.state = state := by
    rw [once]
    exact finalizePlanForJob_settled asc' roots' assigned
  have answered : ∀ conflict ∈ s1.pendingConflicts, conflict.transferId ≠ transferId := by
    rw [once, finalizePlanForJob_conflicts]
    exact settledBy_answered s transferId state
  have asc1 : Ascending (fun job => job.id) s1.jobs := once ▸ rows.ascending
  have plans1 := congrArg TransferStore.plans once
  have jobs1 := congrArg TransferStore.jobs once
  obtain ⟨finished, again⟩ : ∃ finished, { s1 with justFinishedPlan := none }.finalizePlanForJob transferId =
      ({ s1 with justFinishedPlan := finished }, false) :=
    finalizePlanForJob_twice (s.settledBy transferId state) { s1 with justFinishedPlan := none } transferId plans1 jobs1
  refine ⟨finished, ?_⟩
  have terminal : s1.applyEvent event now = { s1 with justFinishedPlan := none }.setTransferTerminal transferId state := by
    cases event <;> simp only [TransferEvent.outcome, reduceCtorEq, Option.some.injEq, Prod.mk.injEq] at h
    all_goals
      obtain ⟨rfl, rfl⟩ := h
      rfl
  rw [terminal, setTransferTerminal_settled (s := { s1 with justFinishedPlan := none }) asc1 settled answered, again]

/-- Jobs, plans and conflicts are told apart by their ids, and no plan lists its own root as a child. -/
structure Separate (s : TransferStore) : Prop where
  jobs : Ascending (fun job => job.id) s.jobs
  plans : PlansHave (fun plan => plan.rootJobId ∉ plan.childJobs) s.plans
  conflicts : (s.pendingConflicts.map (fun conflict => conflict.id)).Nodup

theorem applyEvent_absorbed (separate : s.Separate) {event : TransferEvent} {now : Timestamp}
    (sorted : StoreOp.Sorted (.applyEvent event now)) : (s.applyEvent event now).1.Absorbs event now := by
  cases event with
  | planStarted snapshot => exact planStarted_absorbed separate.jobs snapshot now
  | planProgress progress => exact planProgress_absorbed separate.jobs separate.plans.ids sorted now
  | planCompleted planId => exact planCompleted_absorbed separate.jobs planId now
  | planCancelled planId => exact planCancelled_absorbed separate.jobs planId now
  | planFailed planId error => exact planFailed_absorbed separate.jobs planId error now
  | conflict prompt => exact conflict_absorbed separate.jobs separate.conflicts prompt now
  | running job => exact running_absorbed separate.jobs job now
  | progress made => exact progress_absorbed separate.jobs made now
  | warning raised => exact warning_absorbed separate.jobs raised now
  | completed transferId => exact outcome_absorbed separate.jobs separate.plans.each rfl now
  | skipped transferId => exact outcome_absorbed separate.jobs separate.plans.each rfl now
  | failed failure => exact outcome_absorbed separate.jobs separate.plans.each rfl now

/-- Batches are sorted, and a plan's own root is never announced as one of its children: ids are allocated once. -/
def OwnRoot (s : TransferStore) : StoreOp → Prop
  | .applyEvent (.planStarted snapshot) _ => snapshot.plan.rootJobId ∉ snapshot.plan.childJobs
  | .applyEvent (.planProgress progress) _ => progress.childJobs.Pairwise (fun a b => a.id < b.id) ∧
      ∀ plan ∈ s.plans, plan.id = progress.planId → ∀ job ∈ progress.childJobs, job.id ≠ plan.rootJobId
  | _ => True

instance (s : TransferStore) (op : StoreOp) : Decidable (s.OwnRoot op) :=
  match op with
  | .applyEvent event _ =>
    match event with
    | .planStarted _ => inferInstanceAs (Decidable (¬ _))
    | .planProgress _ => inferInstanceAs (Decidable (_ ∧ _))
    | .planCompleted _ | .planCancelled _ | .planFailed _ _ | .conflict _ | .running _ | .progress _ | .warning _
    | .completed _ | .skipped _ | .failed _ => isTrue trivial
  | .markCancelling _ | .removeConflict _ | .clearTerminal => isTrue trivial

theorem OwnRoot.sorted {event : TransferEvent} {now : Timestamp} (own : s.OwnRoot (.applyEvent event now)) :
    StoreOp.Sorted (.applyEvent event now) := by
  cases event with
  | planProgress progress => exact own.1
  | planStarted | planCompleted | planCancelled | planFailed | conflict | running | progress | warning | completed
  | skipped | failed => trivial

theorem OwnRoot.brings {event : TransferEvent} {now : Timestamp} (own : s.OwnRoot (.applyEvent event now))
    (roots : ∀ plan ∈ s.plans, plan.rootJobId ∉ plan.childJobs) :
    s.Brings (fun plan => plan.rootJobId ∉ plan.childJobs) event := by
  cases event with
  | planStarted snapshot => exact Or.inr own
  | planProgress progress =>
    intro plan hp named _ listed
    obtain old | ⟨job, hj, root⟩ := (mem_extendChildren plan.childJobs progress.childJobs plan.rootJobId).mp listed
    · exact roots plan hp old
    · exact own.2 plan hp named job hj root
  | planCompleted | planCancelled | planFailed | conflict | running | progress | warning | completed | skipped
  | failed => trivial

theorem apply_separate (separate : s.Separate) {op : StoreOp} (own : s.OwnRoot op) : (s.apply op).1.Separate := by
  have rows : Rows (fun _ => True) (s.apply op).1 := by
    refine Rows.apply (fun _ _ _ => trivial) (fun _ _ _ _ => trivial) ⟨separate.jobs, fun _ _ => trivial⟩ ?_
    rintro event now rfl
    exact ⟨fun _ _ => trivial, announced_sorted own.sorted⟩
  have conflicts := apply_conflicts separate.conflicts op
  refine ⟨rows.ascending, ?_, conflicts⟩
  cases op with
  | applyEvent event now =>
    refine (applyEvent_plansHave_iff ?_ separate.plans event now).mpr (own.brings separate.plans.each)
    intro plan other same apart
    simp only [TransferPlan.shape, Prod.mk.injEq] at same
    rw [← same.2.1, ← same.2.2]
    exact apart
  | markCancelling transferId =>
    rw [show (s.apply (.markCancelling transferId)).1.plans = s.plans from editJob_plans _ _ _]
    exact separate.plans
  | removeConflict requestId => exact separate.plans
  | clearTerminal =>
    exact ⟨separate.plans.ids.sublist (List.filter_sublist.map _),
      fun plan hp => separate.plans.each plan (List.mem_of_mem_filter hp)⟩

theorem reachable_separate {ops : List StoreOp} (own : machine.Admissible OwnRoot {} ops) :
    (machine.run {} ops).Separate := by
  have start : ({} : TransferStore).Separate := ⟨List.Pairwise.nil, ⟨List.nodup_nil, by simp⟩, List.nodup_nil⟩
  exact machine.admissible_invariant (I := Separate) (fun _ _ own separate => apply_separate separate own) start ops own

theorem applyEvent_idempotent (ops : List StoreOp) (own : machine.Admissible OwnRoot {} ops) (event : TransferEvent)
    (now : Timestamp) (sorted : StoreOp.Sorted (.applyEvent event now)) :
    let once := ((machine.run {} ops).applyEvent event now).1
    (once.applyEvent event now).1.plans = once.plans ∧ (once.applyEvent event now).1.jobs = once.jobs ∧
      (once.applyEvent event now).1.pendingConflicts = once.pendingConflicts ∧
      (once.applyEvent event now).2 = false := by
  intro once
  obtain ⟨finished, again⟩ := applyEvent_absorbed (reachable_separate own) sorted
  rw [again]
  exact ⟨rfl, rfl, rfl, rfl⟩

theorem applyEvent_idempotent_interleaved :
    let once := ((machine.run {} (interleavedPlans ++ sampleEvents [.completed ⟨3⟩, .skipped ⟨5⟩,
      .planStarted ⟨samplePlan 2 2 [], sampleJob 2⟩])).applyEvent (.failed ⟨⟨6⟩, finishedWithFailures⟩) ⟨7⟩).1
    (once.applyEvent (.failed ⟨⟨6⟩, finishedWithFailures⟩) ⟨7⟩).1.plans = once.plans ∧
      (once.applyEvent (.failed ⟨⟨6⟩, finishedWithFailures⟩) ⟨7⟩).1.jobs = once.jobs ∧
      (once.applyEvent (.failed ⟨⟨6⟩, finishedWithFailures⟩) ⟨7⟩).1.pendingConflicts = once.pendingConflicts ∧
      (once.applyEvent (.failed ⟨⟨6⟩, finishedWithFailures⟩) ⟨7⟩).2 = false :=
  applyEvent_idempotent _ (by decide) _ _ trivial

end TransferStore

end MacSftp
