import MacSftp.Transfer.Store

namespace MacSftp

open Lib

theorem isChain_succ_mem {first : TransferId} {ids : List TransferId}
    (chain : (first :: ids).IsChain (fun a b => a.raw + 1 = b.raw)) (id : TransferId) :
    id ∈ first :: ids ↔ first.raw ≤ id.raw ∧ id.raw ≤ first.raw + ids.length := by
  induction ids generalizing first with
  | nil =>
    have : id = first ↔ id.raw = first.raw := TransferId.raw_injective.eq_iff.symm
    simp only [List.mem_singleton, this, List.length_nil]
    omega
  | cons next rest ih =>
    obtain ⟨step, chain⟩ := List.isChain_cons_cons.mp chain
    have : id = first ↔ id.raw = first.raw := TransferId.raw_injective.eq_iff.symm
    rw [List.mem_cons, ih chain, this, List.length_cons]
    omega

theorem sorted_of_isChain {ids : List TransferId} (chain : ids.IsChain (· ≤ ·)) :
    ids.Pairwise (fun a b => a ≤ b) := List.isChain_iff_pairwise.mp chain

theorem isChain_of_span {first : TransferId} {ids : List TransferId} {last : TransferId}
    (hl : (first :: ids).getLast? = some last) (span : last.raw - first.raw = (first :: ids).length - 1)
    (le : first.raw ≤ last.raw)
    (short : (first :: ids).length ≤ 2 ∨ (first :: ids).IsChain (fun a b => a.raw + 1 = b.raw)) :
    (first :: ids).IsChain (fun a b => a.raw + 1 = b.raw) ∧ last.raw = first.raw + ids.length := by
  simp only [List.length_cons] at span short
  refine ⟨?_, by omega⟩
  rcases short with short | chain
  · match ids, short with
    | [], _ => exact .singleton first
    | [next], _ =>
      have : next = last := by simpa using hl
      subst this
      simp only [List.length_cons, List.length_nil] at span
      exact List.isChain_cons_cons.mpr ⟨by omega, .singleton next⟩
  · exact chain

theorem IdMatcher.contains_new (ids : List TransferId) (id : TransferId) :
    (IdMatcher.new ids).contains id = true ↔ id ∈ ids := by
  cases ids with
  | nil => simp [IdMatcher.new, IdMatcher.contains]
  | cons first rest =>
    obtain ⟨last, hl⟩ : ∃ last, (first :: rest).getLast? = some last := ⟨_, List.getLast?_eq_some_getLast (by simp)⟩
    simp only [IdMatcher.new, List.head?_cons, hl]
    split_ifs with contiguous sorted
    · obtain ⟨chain, end_⟩ := isChain_of_span hl contiguous.2.1 contiguous.1 contiguous.2.2
      rw [isChain_succ_mem chain]
      simp only [IdMatcher.contains, decide_eq_true_eq]
      omega
    · rw [IdMatcher.contains, binarySearch_isOk (sorted_of_isChain sorted)]
      simp
    · simp [IdMatcher.contains]

theorem planHasChild_iff (plan : TransferPlan) (transferId : TransferId) :
    planHasChild plan transferId = true ↔ transferId ∈ plan.childJobs := by
  unfold planHasChild
  cases hc : plan.childJobs with
  | nil => simp
  | cons first rest =>
    obtain ⟨last, hl⟩ : ∃ last, (first :: rest).getLast? = some last := ⟨_, List.getLast?_eq_some_getLast (by simp)⟩
    simp only [List.head?_cons, hl]
    split_ifs with found
    · obtain ⟨i, hi⟩ : ∃ i, binarySearchByKey (fun id => id) transferId (first :: rest) = .ok i := by
        cases hb : binarySearchByKey (fun id => id) transferId (first :: rest) with
        | ok i => exact ⟨i, rfl⟩
        | error i => simp [hb, Except.isOk, Except.toBool] at found
      obtain ⟨x, hx, rfl⟩ := binarySearch_ok hi
      simpa using List.mem_of_getElem? hx
    · simp

namespace TransferStore

variable {s : TransferStore}

theorem findJobIndex_some (asc : Ascending (fun job => job.id) s.jobs) {transferId : TransferId} {index : Nat} :
    s.findJobIndex transferId = some index ↔ ∃ job, s.jobs[index]? = some job ∧ job.id = transferId := by
  have unique : ∀ i j : Nat, (∃ job, s.jobs[i]? = some job ∧ job.id = transferId) →
      (∃ job, s.jobs[j]? = some job ∧ job.id = transferId) → i = j := by
    rintro i j ⟨a, ha, hai⟩ ⟨b, hb, hbi⟩
    have hij := (asc.index_le_iff ha hb).mpr (by simp [hai, hbi])
    have hji := (asc.index_le_iff hb ha).mpr (by simp [hai, hbi])
    omega
  unfold findJobIndex
  cases hb : binarySearchByKey (fun job => job.id) transferId s.jobs with
  | ok i =>
    have found := binarySearch_ok hb
    constructor
    · intro h
      cases h
      exact found
    · intro h
      rw [unique i index found h]
  | error i =>
    have absent := (binarySearch_error asc.le hb).2
    constructor
    · intro h
      obtain ⟨hlt, hp, _⟩ := List.findIdx?_eq_some_iff_getElem.mp h
      exact absurd (by simpa using hp) (absent _ (List.getElem_mem hlt))
    · rintro ⟨job, hj, rfl⟩
      exact absurd rfl (absent job (List.mem_of_getElem? hj))

theorem findJobIndex_none (asc : Ascending (fun job => job.id) s.jobs) {transferId : TransferId} :
    s.findJobIndex transferId = none ↔ ∀ job ∈ s.jobs, job.id ≠ transferId := by
  constructor
  · intro h job hj he
    obtain ⟨i, hi⟩ := List.mem_iff_getElem?.mp hj
    rw [(findJobIndex_some asc).mpr ⟨job, hi, he⟩] at h
    cases h
  · intro h
    cases hf : s.findJobIndex transferId with
    | none => rfl
    | some i =>
      obtain ⟨job, hj, he⟩ := (findJobIndex_some asc).mp hf
      exact absurd he (h job (List.mem_of_getElem? hj))

theorem findJob_iff (asc : Ascending (fun job => job.id) s.jobs) {transferId : TransferId} {job : TransferJob} :
    s.findJob transferId = some job ↔ job ∈ s.jobs ∧ job.id = transferId := by
  unfold findJob
  constructor
  · intro h
    obtain ⟨i, hi, hj⟩ := Option.bind_eq_some_iff.mp h
    obtain ⟨other, ho, he⟩ := (findJobIndex_some asc).mp hi
    rw [hj] at ho
    cases ho
    exact ⟨List.mem_of_getElem? hj, he⟩
  · rintro ⟨hm, he⟩
    obtain ⟨i, hi⟩ := List.mem_iff_getElem?.mp hm
    rw [(findJobIndex_some asc).mpr ⟨job, hi, he⟩]
    exact hi

def editOf (transferId : TransferId) (edit : TransferJob → Option TransferJob) (job : TransferJob) : TransferJob :=
  if job.id = transferId then (edit job).getD job else job

theorem editJob_eq (asc : Ascending (fun job => job.id) s.jobs) (transferId : TransferId)
    (edit : TransferJob → Option TransferJob) :
    s.editJob transferId edit =
      ({ s with jobs := s.jobs.map (editOf transferId edit) },
        s.jobs.any (fun job => job.id = transferId && (edit job).isSome)) := by
  unfold editJob
  cases hf : s.findJobIndex transferId with
  | none =>
    have absent := (findJobIndex_none asc).mp hf
    have same : s.jobs.map (editOf transferId edit) = s.jobs := by
      refine (List.map_congr_left ?_).trans (List.map_id s.jobs)
      intro job hj
      rw [editOf, if_neg (absent job hj)]
      rfl
    have quiet : s.jobs.any (fun job => job.id = transferId && (edit job).isSome) = false := by
      rw [List.any_eq_false]
      intro job hj
      simp [absent job hj]
    rw [same, quiet]
  | some i =>
    obtain ⟨job, hi, he⟩ := (findJobIndex_some asc).mp hf
    have others : ∀ other ∈ s.jobs, other.id = transferId → other = job := fun other ho hoi =>
      key_unique (fun job => job.id) asc.nodup ho (List.mem_of_getElem? hi) (hoi.trans he.symm)
    have any : s.jobs.any (fun job => job.id = transferId && (edit job).isSome) = (edit job).isSome := by
      rw [Bool.eq_iff_iff, List.any_eq_true]
      constructor
      · rintro ⟨other, ho, h⟩
        simp only [Bool.and_eq_true, decide_eq_true_eq] at h
        rw [← others other ho h.1]
        exact h.2
      · intro h
        exact ⟨job, List.mem_of_getElem? hi, by simp [he, h]⟩
    have mapped : s.jobs.map (editOf transferId edit) = s.jobs.set i ((edit job).getD job) := by
      apply List.ext_getElem?
      intro j
      obtain ⟨hlt, hget⟩ := List.getElem?_eq_some_iff.mp hi
      rw [List.getElem?_map, List.getElem?_set]
      split_ifs with hij
      · subst hij
        rw [hi]
        simp [editOf, he]
      · cases hj : s.jobs[j]? with
        | none => rfl
        | some other =>
          have differ : other.id ≠ transferId := by
            intro ho
            have hle := (asc.index_le_iff hi hj).mpr (by simp [he, ho])
            have hge := (asc.index_le_iff hj hi).mpr (by simp [he, ho])
            omega
          simp [editOf, differ]
    rw [any, mapped]
    simp only [hi, Option.bind_some]
    cases hed : edit job with
    | none =>
      have : s.jobs.set i job = s.jobs := by
        obtain ⟨hlt, hget⟩ := List.getElem?_eq_some_iff.mp hi
        rw [← hget, List.set_getElem_self]
      simp [this]
    | some new => simp

theorem editOf_id {transferId : TransferId} {edit : TransferJob → Option TransferJob}
    (keep : ∀ job new, edit job = some new → new.id = job.id) (job : TransferJob) :
    (editOf transferId edit job).id = job.id := by
  unfold editOf
  split_ifs
  · cases h : edit job with
    | none => rfl
    | some new => exact keep job new h
  · rfl

end TransferStore

def TransferPlan.Owns (plan : TransferPlan) (transferId : TransferId) : Prop :=
  transferId = plan.rootJobId ∨ transferId ∈ plan.childJobs

instance (plan : TransferPlan) (transferId : TransferId) : Decidable (plan.Owns transferId) :=
  inferInstanceAs (Decidable (_ ∨ _))

structure PlansApart (plans : List TransferPlan) : Prop where
  ids : (plans.map (fun plan => plan.id)).Nodup
  ascending : ∀ plan ∈ plans, Ascending (fun id => id) plan.childJobs
  root : ∀ plan ∈ plans, plan.rootJobId ∉ plan.childJobs
  apart : ∀ plan ∈ plans, ∀ other ∈ plans, plan.id ≠ other.id → ∀ id, plan.Owns id → ¬ other.Owns id

structure TransferStore.Valid (s : TransferStore) : Prop where
  jobs : Ascending (fun job => job.id) s.jobs
  plans : PlansApart s.plans

def TransferPlan.shape (plan : TransferPlan) : TransferPlanId × TransferId × List TransferId :=
  (plan.id, plan.rootJobId, plan.childJobs)

theorem ids_of_shape {plans plans' : List TransferPlan}
    (same : plans'.map TransferPlan.shape = plans.map TransferPlan.shape) :
    plans'.map (fun plan => plan.id) = plans.map (fun plan => plan.id) := by
  have firsts := congrArg (List.map Prod.fst) same
  simpa [TransferPlan.shape, Function.comp_def] using firsts

theorem mem_of_shape {plans plans' : List TransferPlan}
    (same : plans'.map TransferPlan.shape = plans.map TransferPlan.shape) {plan : TransferPlan} (hp : plan ∈ plans') :
    ∃ before ∈ plans, before.shape = plan.shape := by
  have member : plan.shape ∈ plans'.map TransferPlan.shape := List.mem_map_of_mem hp
  rw [same] at member
  exact List.mem_map.mp member

namespace PlansApart

variable {plans plans' : List TransferPlan}

theorem of_shape (h : PlansApart plans) (same : plans'.map TransferPlan.shape = plans.map TransferPlan.shape) :
    PlansApart plans' := by
  refine ⟨?_, ?_, ?_, ?_⟩
  · rw [ids_of_shape same]
    exact h.ids
  · intro plan hp
    obtain ⟨before, hb, he⟩ := mem_of_shape same hp
    simp only [TransferPlan.shape, Prod.mk.injEq] at he
    rw [← he.2.2]
    exact h.ascending before hb
  · intro plan hp
    obtain ⟨before, hb, he⟩ := mem_of_shape same hp
    simp only [TransferPlan.shape, Prod.mk.injEq] at he
    rw [← he.2.1, ← he.2.2]
    exact h.root before hb
  · intro plan hp other ho
    obtain ⟨before, hb, he⟩ := mem_of_shape same hp
    obtain ⟨before', hb', he'⟩ := mem_of_shape same ho
    simp only [TransferPlan.shape, Prod.mk.injEq] at he he'
    simp only [TransferPlan.Owns, ← he.1, ← he.2.1, ← he.2.2, ← he'.1, ← he'.2.1, ← he'.2.2]
    exact h.apart before hb before' hb'

theorem sublist (h : PlansApart plans) (sub : List.Sublist plans' plans) : PlansApart plans' :=
  ⟨h.ids.sublist (sub.map _), fun plan hp => h.ascending plan (sub.subset hp),
    fun plan hp => h.root plan (sub.subset hp),
    fun plan hp other ho => h.apart plan (sub.subset hp) other (sub.subset ho)⟩

theorem concat (h : PlansApart plans) {plan : TransferPlan} (fresh : ∀ other ∈ plans, other.id ≠ plan.id)
    (empty : plan.childJobs = []) (root : ∀ other ∈ plans, ¬ other.Owns plan.rootJobId) :
    PlansApart (plans ++ [plan]) := by
  have own : ∀ id, plan.Owns id → id = plan.rootJobId := by
    intro id hid
    simpa [TransferPlan.Owns, empty] using hid
  refine ⟨?_, ?_, ?_, ?_⟩
  · rw [List.map_append, List.nodup_append]
    refine ⟨h.ids, by simp, ?_⟩
    intro id hid id' hid'
    obtain ⟨other, ho, rfl⟩ := List.mem_map.mp hid
    simp only [List.map_cons, List.map_nil, List.mem_singleton] at hid'
    rw [hid']
    exact fresh other ho
  · intro other ho
    rcases List.mem_append.mp ho with ho | ho
    · exact h.ascending other ho
    · rw [List.mem_singleton.mp ho, empty]
      exact List.Pairwise.nil
  · intro other ho
    rcases List.mem_append.mp ho with ho | ho
    · exact h.root other ho
    · rw [List.mem_singleton.mp ho, empty]
      exact List.not_mem_nil
  · intro one h1 two h2 hne id own1 own2
    rcases List.mem_append.mp h1 with h1 | h1 <;> rcases List.mem_append.mp h2 with h2 | h2
    · exact h.apart one h1 two h2 hne id own1 own2
    · rw [List.mem_singleton.mp h2] at own2
      exact root one h1 (own id own2 ▸ own1)
    · rw [List.mem_singleton.mp h1] at own1
      exact root two h2 (own id own1 ▸ own2)
    · rw [List.mem_singleton.mp h1, List.mem_singleton.mp h2] at hne
      exact hne rfl

end PlansApart

def TransferStore.Unowned (s : TransferStore) (transferId : TransferId) : Prop :=
  ∀ plan ∈ s.plans, ¬ plan.Owns transferId

instance (s : TransferStore) (transferId : TransferId) : Decidable (s.Unowned transferId) :=
  inferInstanceAs (Decidable (∀ plan ∈ s.plans, ¬ plan.Owns transferId))

/-- What the runtime sends: a plan is announced without children and with a root id of its own, and every
progress batch carries fresh ids that continue the plan's children upwards. Nothing is asked of the other inputs. -/
def StoreOp.Legal (s : TransferStore) : StoreOp → Prop
  | .applyEvent (.planStarted snapshot) _ =>
    (∃ plan ∈ s.plans, plan.id = snapshot.plan.id) ∨
      snapshot.plan.childJobs = [] ∧ s.Unowned snapshot.plan.rootJobId
  | .applyEvent (.planProgress progress) _ =>
    progress.childJobs.Pairwise (fun a b => a.id < b.id) ∧ (∀ job ∈ progress.childJobs, s.Unowned job.id) ∧
      ∀ plan ∈ s.plans, plan.id = progress.planId →
        ∀ id ∈ plan.childJobs, ∀ job ∈ progress.childJobs, id < job.id
  | _ => True

instance (s : TransferStore) (op : StoreOp) : Decidable (op.Legal s) :=
  match op with
  | .applyEvent event _ =>
    match event with
    | .planStarted _ => inferInstanceAs (Decidable (_ ∨ _))
    | .planProgress _ => inferInstanceAs (Decidable (_ ∧ _))
    | .planCompleted _ | .planCancelled _ | .planFailed _ _ | .conflict _ | .running _ | .progress _ | .warning _
    | .completed _ | .skipped _ | .failed _ => isTrue trivial
  | .markCancelling _ | .removeConflict _ | .clearTerminal => isTrue trivial

namespace TransferStore

variable {s s' : TransferStore}

theorem Valid.of_jobs (valid : s.Valid) {jobs : List TransferJob} (asc : Ascending (fun job => job.id) jobs)
    (hj : s'.jobs = jobs) (hp : s'.plans.map TransferPlan.shape = s.plans.map TransferPlan.shape) : s'.Valid :=
  ⟨hj ▸ asc, valid.plans.of_shape hp⟩

theorem editJob_valid (valid : s.Valid) (transferId : TransferId) {edit : TransferJob → Option TransferJob}
    (keep : ∀ job new, edit job = some new → new.id = job.id) : (s.editJob transferId edit).1.Valid := by
  rw [editJob_eq valid.jobs]
  exact valid.of_jobs (valid.jobs.map (editOf_id keep)) rfl rfl

theorem withState_id {state : TransferState} (job new : TransferJob) (h : withState state job = some new) :
    new.id = job.id := by
  unfold withState at h
  split_ifs at h
  cases h
  rfl

theorem setJobState_valid (valid : s.Valid) (transferId : TransferId) (state : TransferState) :
    (s.setJobState transferId state).1.Valid := editJob_valid valid transferId withState_id

theorem markCancelling_valid (valid : s.Valid) (transferId : TransferId) : (s.markCancelling transferId).1.Valid := by
  apply editJob_valid valid
  intro job new h
  split at h <;> cases h <;> rfl

def progressEdit (progress : TransferProgress) (now : Timestamp) (job : TransferJob) : Option TransferJob :=
  match job.state with
  | .cancelling | .completed | .skipped | .failed .. => none
  | .running _ _ startedAt => withState (.running progress.bytesDone progress.bytesTotal startedAt) job
  | _ => withState (.running progress.bytesDone progress.bytesTotal now) job

theorem applyProgress_eq (s : TransferStore) (progress : TransferProgress) (now : Timestamp) :
    s.applyProgress progress now = s.editJob progress.transferId (progressEdit progress now) := rfl

theorem progressEdit_some {progress : TransferProgress} {now : Timestamp} {job new : TransferJob}
    (h : progressEdit progress now job = some new) :
    job.state.isTerminal = false ∧
      ∃ startedAt, new = { job with state := .running progress.bytesDone progress.bytesTotal startedAt } := by
  unfold progressEdit at h
  cases state : job.state with
  | cancelling | completed | skipped | failed =>
    rw [state] at h
    cases h
  | running | planning | queued | waitingForConflictDecision =>
    rw [state] at h
    dsimp only [withState] at h
    split_ifs at h
    cases h
    exact ⟨rfl, _, rfl⟩

theorem applyProgress_valid (valid : s.Valid) (progress : TransferProgress) (now : Timestamp) :
    (s.applyProgress progress now).1.Valid := by
  rw [applyProgress_eq]
  apply editJob_valid valid
  intro job new edited
  obtain ⟨_, _, rfl⟩ := progressEdit_some edited
  rfl

theorem applyWarning_valid (valid : s.Valid) (warning : TransferWarning) : (s.applyWarning warning).1.Valid := by
  apply editJob_valid valid
  intro job new h
  split at h <;> cases h
  rfl

theorem insertJob_ascending (asc : Ascending (fun job => job.id) s.jobs) (job : TransferJob) :
    Ascending (fun job => job.id) (s.insertJob job).1.jobs := by
  unfold insertJob
  split
  · exact asc
  · exact asc.insert ‹_›

theorem insertJob_frame (s : TransferStore) (job : TransferJob) :
    (s.insertJob job).1 = { s with jobs := (s.insertJob job).1.jobs } := by
  unfold TransferStore.insertJob
  split <;> rfl

theorem insertJob_plans (s : TransferStore) (job : TransferJob) : (s.insertJob job).1.plans = s.plans := by
  rw [insertJob_frame]

theorem set_ascending {jobs : List TransferJob} (asc : Ascending (fun job => job.id) jobs) {index : Nat}
    {old new : TransferJob} (hi : jobs[index]? = some old) (he : new.id = old.id) :
    Ascending (fun job => job.id) (jobs.set index new) := by
  have same : (jobs.set index new).map (fun job => job.id) = jobs.map (fun job => job.id) := by
    obtain ⟨hlt, hget⟩ := List.getElem?_eq_some_iff.mp hi
    rw [List.map_set, he, ← hget]
    apply List.ext_getElem (by simp)
    intro i _ _
    simp only [List.getElem_set, List.getElem_map]
    split_ifs with h
    · subst h; rfl
    · rfl
  have ids : (jobs.map (fun job => job.id)).Pairwise (· < ·) := List.pairwise_map.mpr asc
  rw [← same] at ids
  exact List.pairwise_map.mp ids

theorem upsertJob_valid (valid : s.Valid) (job : TransferJob) : (s.upsertJob job).1.Valid := by
  unfold upsertJob
  split
  · rename_i index found
    obtain ⟨old, hi, he⟩ := binarySearch_ok found
    split
    · exact valid
    · exact valid.of_jobs (set_ascending valid.jobs hi he.symm) rfl rfl
  · exact valid.of_jobs (valid.jobs.insert ‹_›) rfl rfl

@[simp] theorem upsertConflict_jobs (s : TransferStore) (conflict : ConflictRequest) :
    (s.upsertConflict conflict).1.jobs = s.jobs := by
  unfold upsertConflict
  split
  · split <;> rfl
  · rfl

@[simp] theorem upsertConflict_plans (s : TransferStore) (conflict : ConflictRequest) :
    (s.upsertConflict conflict).1.plans = s.plans := by
  unfold upsertConflict
  split
  · split <;> rfl
  · rfl

theorem applyConflict_valid (valid : s.Valid) (prompt : TransferConflictPrompt) (now : Timestamp) :
    (s.applyConflict prompt now).1.Valid := by
  have waiting := setJobState_valid valid prompt.transferId
    (.waitingForConflictDecision prompt.planId prompt.requestId)
  exact waiting.of_jobs waiting.jobs (by simp [applyConflict]) (by simp [applyConflict])

theorem insertPlan_valid (valid : s.Valid) {plan : TransferPlan}
    (legal : (∃ other ∈ s.plans, other.id = plan.id) ∨ plan.childJobs = [] ∧ s.Unowned plan.rootJobId) :
    (s.insertPlan plan).1.Valid := by
  unfold insertPlan
  split_ifs with known
  · exact valid
  · simp only [List.any_eq_true, decide_eq_true_eq, not_exists, not_and] at known
    rcases legal with ⟨other, ho, he⟩ | ⟨empty, root⟩
    · exact absurd he (known other ho)
    · exact ⟨valid.jobs, valid.plans.concat known empty root⟩

theorem extendChildren_eq {children : List TransferId} {batch : List TransferJob}
    (above : ∀ id ∈ children, ∀ job ∈ batch, id < job.id) :
    (extendChildren children batch).1 = children ++ batch.map (fun job => job.id) := by
  unfold extendChildren
  cases batch with
  | nil => simp [isMonotonicallyAscending]
  | cons firstNew rest =>
    cases hl : children.getLast? with
    | none => simp [isMonotonicallyAscending]
    | some last =>
      have hlt := above last (List.mem_of_getLast? hl) firstNew (by simp)
      simp [isMonotonicallyAscending, hlt]

theorem extendPlan_children {plan : TransferPlan} {progress : TransferPlanProgress}
    (above : ∀ id ∈ plan.childJobs, ∀ job ∈ progress.childJobs, id < job.id) :
    (extendPlan plan progress).1.childJobs = plan.childJobs ++ progress.childJobs.map (fun job => job.id) :=
  extendChildren_eq above

@[simp] theorem extendPlan_id (plan : TransferPlan) (progress : TransferPlanProgress) :
    (extendPlan plan progress).1.id = plan.id := rfl

@[simp] theorem extendPlan_root (plan : TransferPlan) (progress : TransferPlanProgress) :
    (extendPlan plan progress).1.rootJobId = plan.rootJobId := rfl

theorem extendPlan_owns {plan : TransferPlan} {progress : TransferPlanProgress}
    (above : ∀ id ∈ plan.childJobs, ∀ job ∈ progress.childJobs, id < job.id) (id : TransferId) :
    (extendPlan plan progress).1.Owns id ↔ plan.Owns id ∨ ∃ job ∈ progress.childJobs, job.id = id := by
  simp only [TransferPlan.Owns, extendPlan_root, extendPlan_children above, List.mem_append, List.mem_map, or_assoc]

theorem extendPlan_apart {plans : List TransferPlan} (h : PlansApart plans) {progress : TransferPlanProgress}
    (asc : progress.childJobs.Pairwise (fun a b => a.id < b.id))
    (fresh : ∀ job ∈ progress.childJobs, ∀ plan ∈ plans, ¬ plan.Owns job.id)
    (above : ∀ plan ∈ plans, plan.id = progress.planId →
      ∀ id ∈ plan.childJobs, ∀ job ∈ progress.childJobs, id < job.id) :
    PlansApart (plans.map fun plan => if plan.id = progress.planId then (extendPlan plan progress).1 else plan) := by
  have owns : ∀ plan ∈ plans, ∀ id,
      (if plan.id = progress.planId then (extendPlan plan progress).1 else plan).Owns id →
      plan.Owns id ∨ plan.id = progress.planId ∧ ∃ job ∈ progress.childJobs, job.id = id := by
    intro plan hp id hid
    split_ifs at hid with he
    · exact ((extendPlan_owns (above plan hp he) id).mp hid).imp_right fun h => ⟨he, h⟩
    · exact Or.inl hid
  refine ⟨?_, ?_, ?_, ?_⟩
  · rw [List.map_map, List.map_congr_left (g := fun plan => plan.id)]
    · exact h.ids
    · intro plan _
      simp only [Function.comp_apply]
      split_ifs
      · exact extendPlan_id plan progress
      · rfl
  · intro plan' hp'
    obtain ⟨plan, hp, rfl⟩ := List.mem_map.mp hp'
    split_ifs with he
    · rw [extendPlan_children (above plan hp he)]
      refine (h.ascending plan hp).append (List.pairwise_map.mpr asc) ?_
      intro id hid id' hid'
      obtain ⟨job, hj, rfl⟩ := List.mem_map.mp hid'
      exact above plan hp he id hid job hj
    · exact h.ascending plan hp
  · intro plan' hp'
    obtain ⟨plan, hp, rfl⟩ := List.mem_map.mp hp'
    split_ifs with he
    · rw [extendPlan_children (above plan hp he), extendPlan_root]
      simp only [List.mem_append, List.mem_map, not_or, not_exists, not_and]
      exact ⟨h.root plan hp, fun job hj hr => fresh job hj plan hp (Or.inl hr)⟩
    · exact h.root plan hp
  · intro one' hm1 two' hm2 hne id own1 own2
    obtain ⟨one, h1, rfl⟩ := List.mem_map.mp hm1
    obtain ⟨two, h2, rfl⟩ := List.mem_map.mp hm2
    have ids : ∀ plan : TransferPlan,
        (if plan.id = progress.planId then (extendPlan plan progress).1 else plan).id = plan.id := by
      intro plan
      split_ifs
      · exact extendPlan_id plan progress
      · rfl
    simp only [ids] at hne
    rcases owns one h1 id own1 with own1 | ⟨he1, job1, hj1, rfl⟩
    · rcases owns two h2 id own2 with own2 | ⟨_, job2, hj2, rfl⟩
      · exact h.apart one h1 two h2 hne id own1 own2
      · exact fresh job2 hj2 one h1 own1
    · rcases owns two h2 job1.id own2 with own2 | ⟨he2, _⟩
      · exact fresh job1 hj1 two h2 own2
      · exact hne (he1.trans he2.symm)

theorem insertJob_valid (valid : s.Valid) (job : TransferJob) : (s.insertJob job).1.Valid :=
  valid.of_jobs (insertJob_ascending valid.jobs job) rfl (by rw [insertJob_plans])

theorem insertEach_ascending (asc : Ascending (fun job => job.id) s.jobs) (batch : List TransferJob) :
    Ascending (fun job => job.id) (s.insertEach batch).1.jobs := by
  induction batch generalizing s with
  | nil => exact asc
  | cons job rest ih => exact ih (insertJob_ascending asc job)

theorem append_above (asc : Ascending (fun job => job.id) s.jobs) {batch : List TransferJob}
    (sorted : batch.Pairwise (fun a b => a.id < b.id))
    (ascending : isMonotonicallyAscending (s.jobs.getLast?.map (fun job => job.id))
      (batch.head?.map (fun job => job.id)) = true) {job new : TransferJob} (hj : job ∈ s.jobs) (hn : new ∈ batch) :
    job.id < new.id := by
  obtain ⟨last, hl⟩ : ∃ last, s.jobs.getLast? = some last :=
    ⟨_, List.getLast?_eq_some_getLast (List.ne_nil_of_mem hj)⟩
  obtain ⟨firstNew, hf⟩ : ∃ firstNew, batch.head? = some firstNew :=
    ⟨_, List.head?_eq_some_head (List.ne_nil_of_mem hn)⟩
  simp only [hl, hf, Option.map_some, isMonotonicallyAscending, decide_eq_true_eq] at ascending
  have lower : job.id ≤ last.id := asc.le_getLast hj hl
  have upper : firstNew.id ≤ new.id := Ascending.head_le sorted hn hf
  exact lt_of_le_of_lt lower (lt_of_lt_of_le ascending upper)

theorem insertJobs_ascending (asc : Ascending (fun job => job.id) s.jobs) {batch : List TransferJob}
    (sorted : batch.Pairwise (fun a b => a.id < b.id)) : Ascending (fun job => job.id) (s.insertJobs batch).1.jobs := by
  unfold insertJobs
  split_ifs with ascending
  · exact asc.append sorted fun job hj new hn => append_above asc sorted ascending hj hn
  · exact insertEach_ascending asc batch

theorem insertEach_frame (s : TransferStore) (batch : List TransferJob) :
    (s.insertEach batch).1 = { s with jobs := (s.insertEach batch).1.jobs } := by
  induction batch generalizing s with
  | nil => rfl
  | cons job rest ih =>
    refine (ih (s.insertJob job).1).trans ?_
    show { (s.insertJob job).1 with jobs := ((s.insertJob job).1.insertEach rest).1.jobs } =
      { s with jobs := ((s.insertJob job).1.insertEach rest).1.jobs }
    generalize ((s.insertJob job).1.insertEach rest).1.jobs = jobs
    rw [insertJob_frame]

theorem insertJobs_frame (s : TransferStore) (batch : List TransferJob) :
    (s.insertJobs batch).1 = { s with jobs := (s.insertJobs batch).1.jobs } := by
  unfold TransferStore.insertJobs
  split
  · rfl
  · exact insertEach_frame s batch

theorem insertJobs_valid (valid : s.Valid) {batch : List TransferJob}
    (sorted : batch.Pairwise (fun a b => a.id < b.id)) : (s.insertJobs batch).1.Valid :=
  valid.of_jobs (insertJobs_ascending valid.jobs sorted) rfl (by rw [insertJobs_frame])

theorem applyPlanProgress_valid (valid : s.Valid) {progress : TransferPlanProgress} (now : Timestamp)
    (legal : (StoreOp.applyEvent (.planProgress progress) now).Legal s) :
    (s.applyPlanProgress progress).1.Valid := by
  obtain ⟨asc, fresh, above⟩ := legal
  unfold applyPlanProgress
  split
  · exact insertJobs_valid valid asc
  · rename_i plan found
    obtain ⟨hp, he⟩ := findKey_mem (fun plan : TransferPlan => plan.id) found
    split
    · exact valid
    · apply insertJobs_valid _ asc
      refine ⟨valid.jobs, ?_⟩
      rw [updateKey_eq_map _ _ _ valid.plans.ids]
      have same : s.plans.map (fun other => if other.id = progress.planId then (extendPlan plan progress).1 else other) =
          s.plans.map (fun other => if other.id = progress.planId then (extendPlan other progress).1 else other) := by
        apply List.map_congr_left
        intro other ho
        split_ifs with hid
        · rw [key_unique (fun plan : TransferPlan => plan.id) valid.plans.ids ho hp (hid.trans he.symm)]
        · rfl
      rw [same]
      exact extendPlan_apart valid.plans asc fresh above

theorem modify_shape (plans : List TransferPlan) (planIndex : Nat) (state : TransferPlanState) :
    (plans.modify planIndex (fun plan => { plan with state := state })).map TransferPlan.shape =
      plans.map TransferPlan.shape := by
  apply List.ext_getElem?
  intro i
  rw [List.getElem?_map, List.getElem?_map, List.getElem?_modify]
  cases plans[i]? with
  | none => rfl
  | some plan =>
    simp only [Option.map_some]
    split <;> rfl

theorem setPlanState_valid (valid : s.Valid) (planIndex : Nat) (state : TransferPlanState) :
    (s.setPlanState planIndex state).Valid :=
  valid.of_jobs valid.jobs rfl (modify_shape s.plans planIndex state)

theorem applyPlanCompleted_valid (valid : s.Valid) (planId : TransferPlanId) :
    (s.applyPlanCompleted planId).1.Valid := by
  unfold applyPlanCompleted
  split
  · exact valid
  · split
    · exact valid
    · exact setJobState_valid (setPlanState_valid valid _ _) _ _

def settle (stale : TransferJob → Bool) (state : TransferState) (job : TransferJob) : TransferJob :=
  if stale job then { job with state := state } else job

@[simp] theorem settle_id (stale : TransferJob → Bool) (state : TransferState) (job : TransferJob) :
    (settle stale state job).id = job.id := by
  unfold settle
  split <;> rfl

theorem settle_settle (stale : TransferJob → Bool) (state : TransferState) (job : TransferJob) :
    settle stale state (settle stale state job) = settle stale state job := by
  by_cases h : stale job = true
  · simp only [settle, if_pos h]
    split <;> rfl
  · simp [settle, h]

def span (s : TransferStore) (plan : TransferPlan) : List TransferJob :=
  match plan.childJobs.head?, plan.childJobs.getLast? with
  | some first, some last => s.jobs.filter (fun job => first ≤ job.id ∧ job.id ≤ last)
  | _, _ => []

/-- First and last child are stored, and there are as many jobs from the one to the other as the plan has
children: the reducer takes these jobs to be the children. -/
def Spans (s : TransferStore) (plan : TransferPlan) : Prop :=
  (∃ job ∈ s.jobs, plan.childJobs.head? = some job.id) ∧ (∃ job ∈ s.jobs, plan.childJobs.getLast? = some job.id) ∧
    (s.span plan).length = plan.childJobs.length

instance (s : TransferStore) (plan : TransferPlan) : Decidable (s.Spans plan) :=
  inferInstanceAs (Decidable (_ ∧ _))

theorem slice_eq_filter (asc : Ascending (fun job => job.id) s.jobs) {lo hi : Nat} (hl : lo ≤ hi) {a b : TransferJob}
    (ha : s.jobs[lo]? = some a) (hb : s.jobs[hi]? = some b) :
    slice lo hi s.jobs = s.jobs.filter (fun job => a.id ≤ job.id ∧ job.id ≤ b.id) := by
  apply asc.eq_of_mem_iff (slice_sublist lo hi s.jobs) List.filter_sublist
  intro job
  rw [asc.mem_slice_iff hl ha hb, List.mem_filter, decide_eq_true_eq]

theorem childJobsSliceRange_some (asc : Ascending (fun job => job.id) s.jobs) {plan : TransferPlan} {lo hi : Nat}
    (h : s.childJobsSliceRange plan = some (lo, hi)) :
    ∃ a b, s.jobs[lo]? = some a ∧ s.jobs[hi]? = some b ∧ lo ≤ hi ∧ plan.childJobs.head? = some a.id ∧
      plan.childJobs.getLast? = some b.id ∧ slice lo hi s.jobs = s.span plan ∧ s.Spans plan := by
  unfold childJobsSliceRange at h
  split at h
  · rename_i firstId lastId hf hl
    split at h
    · rename_i firstIdx lastIdx hfi hli
      split_ifs at h with hlen
      cases h
      obtain ⟨a, ha, rfl⟩ := (findJobIndex_some asc).mp hfi
      obtain ⟨b, hb, rfl⟩ := (findJobIndex_some asc).mp hli
      have same : slice lo hi s.jobs = s.span plan := by
        rw [slice_eq_filter asc hlen.1 ha hb]
        simp only [span, hf, hl]
      refine ⟨a, b, ha, hb, hlen.1, hf, hl, same, ⟨a, List.mem_of_getElem? ha, hf⟩,
        ⟨b, List.mem_of_getElem? hb, hl⟩, ?_⟩
      rw [← same, slice_length hlen.1 (List.getElem?_eq_some_iff.mp hb).1]
      exact hlen.2
    · cases h
  · cases h

theorem childJobsSliceRange_isSome (asc : Ascending (fun job => job.id) s.jobs) {plan : TransferPlan}
    (children : Ascending (fun id => id) plan.childJobs) :
    (s.childJobsSliceRange plan).isSome = true ↔ s.Spans plan := by
  constructor
  · intro h
    obtain ⟨⟨lo, hi⟩, hr⟩ := Option.isSome_iff_exists.mp h
    obtain ⟨_, _, _, _, _, _, _, _, spans⟩ := childJobsSliceRange_some asc hr
    exact spans
  · rintro ⟨⟨a, ha, hf⟩, ⟨b, hb, hl⟩, hlen⟩
    obtain ⟨lo, hlo⟩ := List.mem_iff_getElem?.mp ha
    obtain ⟨hi, hhi⟩ := List.mem_iff_getElem?.mp hb
    have hle : lo ≤ hi := (asc.index_le_iff hlo hhi).mpr (children.head_le (List.mem_of_getLast? hl) hf)
    have count : hi - lo + 1 = plan.childJobs.length := by
      rw [← hlen, ← slice_length hle (List.getElem?_eq_some_iff.mp hhi).1, slice_eq_filter asc hle hlo hhi]
      simp only [span, hf, hl]
    unfold childJobsSliceRange
    simp only [hf, hl, (findJobIndex_some asc).mpr ⟨a, hlo, rfl⟩, (findJobIndex_some asc).mpr ⟨b, hhi, rfl⟩]
    rw [if_pos ⟨hle, count⟩]
    rfl

def Reaches (s : TransferStore) (plan : TransferPlan) (job : TransferJob) : Prop :=
  plan.Owns job.id ∨ s.Spans plan ∧ job ∈ s.span plan

instance (s : TransferStore) (plan : TransferPlan) (job : TransferJob) : Decidable (s.Reaches plan job) :=
  inferInstanceAs (Decidable (_ ∨ _))

theorem mem_span_iff {plan : TransferPlan} {first last : TransferId} (hf : plan.childJobs.head? = some first)
    (hl : plan.childJobs.getLast? = some last) {job : TransferJob} :
    job ∈ s.span plan ↔ job ∈ s.jobs ∧ first ≤ job.id ∧ job.id ≤ last := by
  simp only [span, hf, hl, List.mem_filter, decide_eq_true_eq]

theorem mem_span_of_child {plan : TransferPlan} (children : Ascending (fun id => id) plan.childJobs)
    {job : TransferJob} (hj : job ∈ s.jobs) (hc : job.id ∈ plan.childJobs) : job ∈ s.span plan := by
  obtain ⟨first, hf⟩ : ∃ first, plan.childJobs.head? = some first := ⟨_, List.head?_eq_some_head (List.ne_nil_of_mem hc)⟩
  obtain ⟨last, hl⟩ : ∃ last, plan.childJobs.getLast? = some last :=
    ⟨_, List.getLast?_eq_some_getLast (List.ne_nil_of_mem hc)⟩
  exact (mem_span_iff hf hl).mpr ⟨hj, children.head_le hc hf, children.le_getLast hc hl⟩

theorem settleRoot_eq (asc : Ascending (fun job => job.id) s.jobs) (root : TransferId)
    (stale : TransferJob → Bool) (state : TransferState) :
    s.editJob root (fun job => if stale job then some { job with state := state } else none) =
      ({ s with jobs := s.jobs.map (fun job => if job.id = root then settle stale state job else job) },
        s.jobs.any (fun job => job.id = root && stale job)) := by
  rw [editJob_eq asc]
  refine Prod.ext ?_ ?_
  · simp only [mk.injEq, true_and, and_true]
    apply List.map_congr_left
    intro job _
    unfold editOf settle
    by_cases h : stale job = true <;> simp [h]
  · apply congrArg (fun p => s.jobs.any p)
    funext job
    by_cases h : stale job = true <;> simp [h]

def targets (s : TransferStore) (plan : TransferPlan) : List TransferId :=
  match s.childJobsSliceRange plan with
  | some (lo, hi) => (slice lo hi s.jobs).map (fun job => job.id)
  | none => plan.childJobs

def Touches (s : TransferStore) (plan : TransferPlan) (transferId : TransferId) : Prop :=
  transferId = plan.rootJobId ∨ transferId ∈ s.targets plan

instance (s : TransferStore) (plan : TransferPlan) (transferId : TransferId) : Decidable (s.Touches plan transferId) :=
  inferInstanceAs (Decidable (_ ∨ _))

theorem mem_of_id_mem (asc : Ascending (fun job => job.id) s.jobs) {jobs : List TransferJob} (sub : jobs ⊆ s.jobs)
    {job : TransferJob} (hj : job ∈ s.jobs) : job.id ∈ jobs.map (fun job => job.id) ↔ job ∈ jobs := by
  rw [List.mem_map]
  constructor
  · rintro ⟨other, ho, he⟩
    rwa [← key_unique (fun job => job.id) asc.nodup (sub ho) hj he]
  · exact fun hm => ⟨job, hm, rfl⟩

theorem settleJobs_touches (asc : Ascending (fun job => job.id) s.jobs) (plan : TransferPlan)
    (stale : TransferJob → Bool) (state : TransferState) :
    s.settleJobs plan stale state =
      ({ s with jobs := s.jobs.map (fun job => if s.Touches plan job.id then settle stale state job else job) },
        s.jobs.any (fun job => s.Touches plan job.id && stale job)) := by
  unfold settleJobs
  simp only [settleRoot_eq asc]
  split_ifs with empty
  · have touch : ∀ transferId, s.Touches plan transferId ↔ transferId = plan.rootJobId := by
      intro transferId
      simp [Touches, targets, childJobsSliceRange, empty]
    simp only [touch]
  · split
    · rename_i lo hi range
      obtain ⟨a, b, ha, hb, hle, _⟩ := childJobsSliceRange_some asc range
      have touch : ∀ job ∈ s.jobs, s.Touches plan job.id ↔ job.id = plan.rootJobId ∨ job ∈ slice lo hi s.jobs := by
        intro job hj
        simp only [Touches, targets, range, mem_of_id_mem asc (slice_sublist lo hi s.jobs).subset hj]
      set f := fun job : TransferJob => if job.id = plan.rootJobId then settle stale state job else job with hfdef
      have fid : ∀ job, (f job).id = job.id := by
        intro job
        simp only [hfdef]
        split_ifs
        · exact settle_id stale state job
        · rfl
      have fa : (s.jobs.map f)[lo]? = some (f a) := by simp [ha]
      have fb : (s.jobs.map f)[hi]? = some (f b) := by simp [hb]
      have jobs : modifyRange lo hi (settle stale state) (s.jobs.map f) =
          s.jobs.map (fun job => if s.Touches plan job.id then settle stale state job else job) := by
        rw [(asc.map fid).modifyRange_eq_map fa fb, List.map_map]
        apply List.map_congr_left
        intro job hj
        have inside : job ∈ slice lo hi s.jobs ↔ a.id ≤ job.id ∧ job.id ≤ b.id := by
          rw [asc.mem_slice_iff hle ha hb]
          exact and_iff_right hj
        change (if (f a).id ≤ (f job).id ∧ (f job).id ≤ (f b).id then settle stale state (f job) else f job) = _
        rw [fid, fid, fid]
        by_cases root : job.id = plan.rootJobId
        · have fjob : f job = settle stale state job := if_pos root
          rw [fjob, settle_settle, ite_self, if_pos ((touch job hj).mpr (Or.inl root))]
        · have fjob : f job = job := if_neg root
          simp only [fjob, touch job hj, inside, root, false_or]
      have changed : (s.jobs.any (fun job => job.id = plan.rootJobId && stale job) ||
          (slice lo hi (s.jobs.map f)).any stale) = s.jobs.any (fun job => s.Touches plan job.id && stale job) := by
        rw [Bool.eq_iff_iff]
        simp only [slice, ← List.map_drop, ← List.map_take, Bool.or_eq_true, List.any_eq_true, List.mem_map,
          Bool.and_eq_true, decide_eq_true_eq]
        constructor
        · rintro (⟨job, hj, hr, hs⟩ | ⟨job', ⟨job, hj, rfl⟩, hs⟩)
          · exact ⟨job, hj, (touch job hj).mpr (Or.inl hr), hs⟩
          · have hm : job ∈ s.jobs := (slice_sublist lo hi s.jobs).subset hj
            refine ⟨job, hm, (touch job hm).mpr (Or.inr hj), ?_⟩
            by_cases h : stale job = true
            · exact h
            · simp only [hfdef, settle, h, Bool.false_eq_true, ↓reduceIte, ite_self] at hs
        · rintro ⟨job, hj, hr, hs⟩
          by_cases root : job.id = plan.rootJobId
          · exact Or.inl ⟨job, hj, root, hs⟩
          · have hm := ((touch job hj).mp hr).resolve_left root
            exact Or.inr ⟨job, ⟨job, hm, if_neg root⟩, hs⟩
      exact Prod.ext (congrArg (fun jobs => { s with jobs := jobs }) jobs) changed
    · rename_i range
      have touch : ∀ transferId, s.Touches plan transferId ↔
          (decide (transferId = plan.rootJobId) || (IdMatcher.new plan.childJobs).contains transferId) = true := by
        intro transferId
        simp only [Touches, targets, range, Bool.or_eq_true, decide_eq_true_eq, IdMatcher.contains_new]
      refine Prod.ext (congrArg (fun jobs => { s with jobs := jobs }) ?_) ?_
      · apply List.map_congr_left
        intro job _
        by_cases h : (decide (job.id = plan.rootJobId) || (IdMatcher.new plan.childJobs).contains job.id) = true
        · simp only [if_pos ((touch job.id).mpr h), h, Bool.true_and]
          rfl
        · simp only [if_neg (fun ht => h ((touch job.id).mp ht)), h, Bool.false_and, Bool.false_eq_true, ↓reduceIte]
      · apply congrArg (fun p => s.jobs.any p)
        funext job
        rw [Bool.eq_iff_iff, Bool.and_eq_true, Bool.and_eq_true, decide_eq_true_eq, touch]

theorem touches_iff_reaches (asc : Ascending (fun job => job.id) s.jobs) {plan : TransferPlan}
    (children : Ascending (fun id => id) plan.childJobs) {job : TransferJob} (hj : job ∈ s.jobs) :
    s.Touches plan job.id ↔ s.Reaches plan job := by
  cases range : s.childJobsSliceRange plan with
  | some bounds =>
    obtain ⟨lo, hi⟩ := bounds
    obtain ⟨a, b, _, _, _, _, _, same, spans⟩ := childJobsSliceRange_some asc range
    have child := mem_span_of_child (s := s) children hj
    have listed := mem_of_id_mem asc (slice_sublist lo hi s.jobs).subset hj
    rw [same] at listed
    simp only [Touches, targets, range, same, listed, Reaches, TransferPlan.Owns, spans, true_and]
    tauto
  | none =>
    have noSpan : ¬ s.Spans plan := by
      rw [← childJobsSliceRange_isSome asc children, range]
      simp
    simp only [Touches, targets, range, Reaches, TransferPlan.Owns, noSpan, false_and, or_false]

theorem settleJobs_jobs (asc : Ascending (fun job => job.id) s.jobs) {plan : TransferPlan}
    (children : Ascending (fun id => id) plan.childJobs) (stale : TransferJob → Bool) (state : TransferState) :
    (s.settleJobs plan stale state).1.jobs =
      s.jobs.map (fun job => if s.Reaches plan job then settle stale state job else job) := by
  rw [settleJobs_touches asc]
  apply List.map_congr_left
  intro job hj
  simp only [touches_iff_reaches asc children hj]

theorem settleJobs_changed (asc : Ascending (fun job => job.id) s.jobs) {plan : TransferPlan}
    (children : Ascending (fun id => id) plan.childJobs) (stale : TransferJob → Bool) (state : TransferState) :
    (s.settleJobs plan stale state).2 = true ↔ ∃ job ∈ s.jobs, s.Reaches plan job ∧ stale job = true := by
  rw [settleJobs_touches asc, List.any_eq_true]
  constructor
  · rintro ⟨job, hj, h⟩
    obtain ⟨touched, hs⟩ := Bool.and_eq_true_iff.mp h
    exact ⟨job, hj, (touches_iff_reaches asc children hj).mp (of_decide_eq_true touched), hs⟩
  · rintro ⟨job, hj, reached, hs⟩
    exact ⟨job, hj, Bool.and_eq_true_iff.mpr ⟨decide_eq_true ((touches_iff_reaches asc children hj).mpr reached), hs⟩⟩

@[simp] theorem editJob_plans (s : TransferStore) (transferId : TransferId)
    (edit : TransferJob → Option TransferJob) : (s.editJob transferId edit).1.plans = s.plans := by
  unfold editJob
  split
  · rfl
  · split <;> rfl

@[simp] theorem settleJobs_plans (s : TransferStore) (plan : TransferPlan) (stale : TransferJob → Bool)
    (state : TransferState) : (s.settleJobs plan stale state).1.plans = s.plans := by
  unfold settleJobs
  split
  · exact editJob_plans _ _ _
  · split
    · exact editJob_plans _ _ _
    · rfl

theorem planIndexOf_some {planId : TransferPlanId} {planIndex : Nat} {plan : TransferPlan}
    (h : s.planIndexOf planId = some (planIndex, plan)) :
    s.plans[planIndex]? = some plan ∧ plan.id = planId ∧ plan ∈ s.plans := by
  obtain ⟨i, hi, hm⟩ := Option.bind_eq_some_iff.mp h
  obtain ⟨found, hf, he⟩ := Option.map_eq_some_iff.mp hm
  cases he
  obtain ⟨hlt, hp, _⟩ := List.findIdx?_eq_some_iff_getElem.mp hi
  obtain ⟨_, hget⟩ := List.getElem?_eq_some_iff.mp hf
  rw [hget] at hp
  exact ⟨hf, by simpa using hp, List.mem_of_getElem? hf⟩

theorem settleJobs_valid (valid : s.Valid) {plan : TransferPlan}
    (children : Ascending (fun id => id) plan.childJobs) (stale : TransferJob → Bool) (state : TransferState) :
    (s.settleJobs plan stale state).1.Valid := by
  refine valid.of_jobs (valid.jobs.map ?_) (settleJobs_jobs valid.jobs children stale state) (by simp)
  intro job
  split_ifs
  · exact settle_id stale state job
  · rfl

theorem setPlanTerminalState_valid (valid : s.Valid) (planId : TransferPlanId) (planState : TransferPlanState)
    (jobState : TransferState) : (s.setPlanTerminalState planId planState jobState).1.Valid := by
  unfold setPlanTerminalState
  split
  · exact valid
  · rename_i planIndex plan found
    obtain ⟨_, _, hp⟩ := planIndexOf_some found
    have settled := settleJobs_valid (setPlanState_valid valid planIndex planState)
      (valid.plans.ascending plan hp) (fun job => decide (job.state ≠ jobState)) jobState
    exact ⟨settled.jobs, settled.plans⟩

theorem setPlanCancelled_valid (valid : s.Valid) (planId : TransferPlanId) : (s.setPlanCancelled planId).1.Valid := by
  unfold setPlanCancelled
  split
  · exact valid
  · rename_i planIndex plan found
    obtain ⟨_, _, hp⟩ := planIndexOf_some found
    split
    · exact valid
    · exact valid
    · have settled := settleJobs_valid valid (valid.plans.ascending plan hp) (fun job => !job.state.isTerminal) .skipped
      dsimp only
      split_ifs
      · have marked := setPlanState_valid settled planIndex .cancelled
        exact ⟨marked.jobs, marked.plans⟩
      · exact settled

@[simp] theorem removeConflicts_jobs (s : TransferStore) (ids : List ConflictRequestId) :
    (s.removeConflicts ids).1.jobs = s.jobs := by
  induction ids generalizing s with
  | nil => rfl
  | cons id rest ih => exact ih (s.removeConflict id).1

@[simp] theorem removeConflicts_plans (s : TransferStore) (ids : List ConflictRequestId) :
    (s.removeConflicts ids).1.plans = s.plans := by
  induction ids generalizing s with
  | nil => rfl
  | cons id rest ih => exact ih (s.removeConflict id).1

theorem finishPlan_jobs (valid : s.Valid) (planIndex : Nat) (plan : TransferPlan) (anyFailed : Bool) :
    (s.finishPlan planIndex plan anyFailed).jobs = s.jobs.map (fun job => if job.id = plan.rootJobId then
      { job with state := if anyFailed then .failed finishedWithFailures true else .completed } else job) :=
  updateKey_eq_map _ _ _ valid.jobs.nodup

theorem finalizePlan_valid (valid : s.Valid) (planIndex : Nat) (plan : TransferPlan) :
    (s.finalizePlan planIndex plan).1.Valid := by
  unfold finalizePlan
  split
  · exact valid
  · split
    · exact valid
    · split
      · exact valid
      · refine valid.of_jobs (valid.jobs.map ?_) (finishPlan_jobs valid planIndex plan _) (modify_shape _ _ _)
        intro job
        split <;> rfl

theorem finalizePlanForJob_valid (valid : s.Valid) (transferId : TransferId) :
    (s.finalizePlanForJob transferId).1.Valid := by
  unfold finalizePlanForJob
  split
  · exact finalizePlan_valid valid _ _
  · split
    · exact ⟨valid.jobs, valid.plans⟩
    · exact valid

theorem setTransferTerminal_valid (valid : s.Valid) (transferId : TransferId) (state : TransferState) :
    (s.setTransferTerminal transferId state).1.Valid := by
  have settled := setJobState_valid valid transferId state
  unfold setTransferTerminal
  apply finalizePlanForJob_valid
  exact settled.of_jobs settled.jobs (by simp) (by simp)

theorem clearTerminal_valid (valid : s.Valid) : s.clearTerminal.1.Valid :=
  ⟨valid.jobs.sublist List.filter_sublist, valid.plans.sublist List.filter_sublist⟩

theorem applyEvent_valid (valid : s.Valid) {event : TransferEvent} {now : Timestamp}
    (legal : (StoreOp.applyEvent event now).Legal s) : (s.applyEvent event now).1.Valid := by
  have valid0 : { s with justFinishedPlan := none }.Valid := ⟨valid.jobs, valid.plans⟩
  cases event with
  | planStarted snapshot => exact insertJob_valid (insertPlan_valid valid0 legal) snapshot.rootJob
  | planProgress progress => exact applyPlanProgress_valid valid0 now legal
  | planCompleted planId => exact applyPlanCompleted_valid valid0 planId
  | planCancelled planId => exact setPlanCancelled_valid valid0 planId
  | planFailed planId error => exact setPlanTerminalState_valid valid0 planId _ _
  | conflict prompt => exact applyConflict_valid valid0 prompt now
  | running job => exact upsertJob_valid valid0 job
  | progress progress => exact applyProgress_valid valid0 progress now
  | warning warning => exact applyWarning_valid valid0 warning
  | completed transferId => exact setTransferTerminal_valid valid0 transferId _
  | skipped transferId => exact setTransferTerminal_valid valid0 transferId _
  | failed failure => exact setTransferTerminal_valid valid0 failure.transferId _

theorem apply_valid (valid : s.Valid) {op : StoreOp} (legal : op.Legal s) : (s.apply op).1.Valid := by
  cases op with
  | applyEvent event now => exact applyEvent_valid valid legal
  | markCancelling transferId => exact markCancelling_valid valid transferId
  | removeConflict requestId => exact ⟨valid.jobs, valid.plans⟩
  | clearTerminal => exact clearTerminal_valid valid

theorem empty_valid : ({} : TransferStore).Valid :=
  ⟨List.Pairwise.nil, List.nodup_nil, by simp, by simp, by simp⟩

theorem reachable_valid {ops : List StoreOp} (legal : machine.Admissible (fun s op => op.Legal s) {} ops) :
    (machine.run {} ops).Valid :=
  machine.admissible_invariant (I := Valid) (fun _ _ legal valid => apply_valid valid legal) empty_valid ops legal

end TransferStore

end MacSftp
