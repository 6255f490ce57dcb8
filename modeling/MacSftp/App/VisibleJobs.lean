import MacSftp.Transfer.PlanOutcome

namespace MacSftp

open Lib

namespace TransferStore

def childrenAreTerminal (s : TransferStore) (plan : TransferPlan) : Bool :=
  match s.childJobsSliceRange plan with
  | some (lo, hi) => (slice lo hi s.jobs).all (fun job => job.state.isTerminal)
  | none => plan.childJobs.all (fun childId => (s.findJob childId).any (fun job => job.state.isTerminal))

def showRoot (s : TransferStore) (plan : TransferPlan) : Bool :=
  if plan.childJobs = [] then true
  else
    match plan.state with
    | .planning | .cancelled => true
    | .failed _ => !s.childrenAreTerminal plan
    | .queued | .completed => false

def hiddenRoots (s : TransferStore) : List TransferId :=
  (s.plans.filter (fun plan => !s.showRoot plan)).map (fun plan => plan.rootJobId)

def hiddenMatchers (s : TransferStore) : List IdMatcher :=
  (s.plans.filter (fun plan => s.showRoot plan)).map (fun plan => IdMatcher.new plan.childJobs)

def visibleTransferJobs (s : TransferStore) : List TransferJob :=
  s.jobs.filter fun job =>
    !s.hiddenRoots.contains job.id && !s.hiddenMatchers.any (fun matcher => matcher.contains job.id)

end TransferStore

def TransferState.cancellable : TransferState → Bool
  | .queued | .running .. | .planning | .waitingForConflictDecision .. => true
  | _ => false

/-- The jobs that are cancelled, one after the other. -/
def TransferStore.cancelAllTransfers (s : TransferStore) : List TransferId :=
  (s.visibleTransferJobs.filter (fun job => job.state.cancellable)).map (fun job => job.id)

def TransferState.isLive : TransferState → Bool
  | .queued | .running .. | .waitingForConflictDecision .. => true
  | _ => false

theorem TransferState.isLive_open {state : TransferState} (live : state.isLive = true) : state.isTerminal = false := by
  cases state <;> simp_all [isLive, isTerminal]

theorem TransferState.isLive_cancellable {state : TransferState} (live : state.isLive = true) : state.cancellable = true := by
  cases state <;> simp_all [isLive, cancellable]

theorem TransferState.open_cancellable {state : TransferState} (awake : state.isTerminal = false) :
    state.cancellable = true ∨ state = .cancelling := by
  cases state <;> simp_all [isTerminal, cancellable]

/-- A plan whose children are not shown, unless it has failed and they are all finished. -/
def TransferPlanState.byRoot : TransferPlanState → Bool
  | .planning | .cancelled | .failed _ => true
  | .queued | .completed => false

namespace TransferStore

variable {s : TransferStore}

theorem mem_visible {job : TransferJob} : job ∈ s.visibleTransferJobs ↔ job ∈ s.jobs ∧
    ∀ plan ∈ s.plans, if s.showRoot plan then job.id ∉ plan.childJobs else job.id ≠ plan.rootJobId := by
  have roots : s.hiddenRoots.contains job.id = true ↔ ∃ plan ∈ s.plans, s.showRoot plan = false ∧ plan.rootJobId = job.id := by
    simp [hiddenRoots, and_assoc]
  have matchers : s.hiddenMatchers.any (fun matcher => matcher.contains job.id) = true ↔
      ∃ plan ∈ s.plans, s.showRoot plan = true ∧ job.id ∈ plan.childJobs := by
    simp only [hiddenMatchers, List.any_map, List.any_eq_true, List.mem_filter, Function.comp_apply,
      IdMatcher.contains_new, and_assoc]
  unfold visibleTransferJobs
  rw [List.mem_filter, Bool.and_eq_true, Bool.not_eq_true', Bool.not_eq_true', ← Bool.not_eq_true, ← Bool.not_eq_true,
    roots, matchers]
  refine and_congr_right fun _ => ?_
  constructor
  · rintro ⟨noRoot, noChild⟩ plan hp
    split
    · rename_i shown
      exact fun child => noChild ⟨plan, hp, shown, child⟩
    · rename_i hidden
      exact fun root => noRoot ⟨plan, hp, by simpa using hidden, root.symm⟩
  · intro each
    constructor
    · rintro ⟨plan, hp, hidden, root⟩
      have here := each plan hp
      rw [hidden] at here
      exact here root.symm
    · rintro ⟨plan, hp, shown, child⟩
      have here := each plan hp
      rw [if_pos shown] at here
      exact here child

theorem mem_cancelAll {transferId : TransferId} :
    transferId ∈ s.cancelAllTransfers ↔ ∃ job ∈ s.visibleTransferJobs, job.state.cancellable = true ∧ job.id = transferId := by
  simp [cancelAllTransfers, and_assoc]

/-- Of its own plan a job is either the root or a child. -/
theorem visible_root (valid : s.Valid) {plan : TransferPlan} (hp : plan ∈ s.plans) {job : TransferJob}
    (root : job.id = plan.rootJobId) : job ∈ s.visibleTransferJobs ↔ job ∈ s.jobs ∧ s.showRoot plan = true := by
  rw [mem_visible]
  refine and_congr_right fun _ => ⟨fun each => ?_, fun shown other ho => ?_⟩
  · by_contra hidden
    have here := each plan hp
    rw [if_neg hidden] at here
    exact here root
  · by_cases same : plan.id = other.id
    · cases key_unique (fun plan => plan.id) valid.plans.ids hp ho same
      rw [if_pos shown, root]
      exact valid.plans.root plan hp
    · have apart := valid.plans.apart plan hp other ho same job.id (Or.inl root)
      split
      · exact fun child => apart (Or.inr child)
      · exact fun own => apart (Or.inl own)

theorem visible_child (valid : s.Valid) {plan : TransferPlan} (hp : plan ∈ s.plans) {job : TransferJob}
    (child : job.id ∈ plan.childJobs) : job ∈ s.visibleTransferJobs ↔ job ∈ s.jobs ∧ s.showRoot plan = false := by
  rw [mem_visible]
  refine and_congr_right fun _ => ⟨fun each => ?_, fun hidden other ho => ?_⟩
  · by_contra shown
    have here := each plan hp
    rw [if_pos (by simpa using shown)] at here
    exact here child
  · by_cases same : plan.id = other.id
    · cases key_unique (fun plan => plan.id) valid.plans.ids hp ho same
      rw [if_neg (by simp [hidden])]
      exact fun root => valid.plans.root plan hp (root ▸ child)
    · have apart := valid.plans.apart plan hp other ho same job.id (Or.inr child)
      split
      · exact fun child => apart (Or.inr child)
      · exact fun own => apart (Or.inl own)

theorem visible_unowned {job : TransferJob} (hj : job ∈ s.jobs) (unowned : s.Unowned job.id) :
    job ∈ s.visibleTransferJobs := by
  refine mem_visible.mpr ⟨hj, fun plan hp => ?_⟩
  split
  · exact fun child => unowned plan hp (Or.inr child)
  · exact fun root => unowned plan hp (Or.inl root)

def stateOf (s : TransferStore) (transferId : TransferId) : Option TransferState :=
  (s.findJob transferId).map (fun job => job.state)

theorem stateOf_some (asc : Ascending (fun job => job.id) s.jobs) {transferId : TransferId} {state : TransferState} :
    s.stateOf transferId = some state ↔ ∃ job ∈ s.jobs, job.id = transferId ∧ job.state = state := by
  unfold stateOf
  rw [Option.map_eq_some_iff]
  constructor
  · rintro ⟨job, found, same⟩
    exact ⟨job, ((findJob_iff asc).mp found).1, ((findJob_iff asc).mp found).2, same⟩
  · rintro ⟨job, hj, id_, same⟩
    exact ⟨job, (findJob_iff asc).mpr ⟨hj, id_⟩, same⟩

theorem stateOf_mem (asc : Ascending (fun job => job.id) s.jobs) {job : TransferJob} (hj : job ∈ s.jobs) :
    s.stateOf job.id = some job.state := (stateOf_some asc).mpr ⟨job, hj, rfl, rfl⟩

/-- A shown child of a failed plan stands for finished children only. -/
theorem childrenAreTerminal_rows (valid : s.Valid) {plan : TransferPlan} (hp : plan ∈ s.plans)
    (terminal : s.childrenAreTerminal plan = true) : ∀ job ∈ s.jobs, job.id ∈ plan.childJobs → job.state.isTerminal = true := by
  intro job hj child
  unfold childrenAreTerminal at terminal
  split at terminal
  · rename_i lo hi range
    obtain ⟨a, b, _, _, _, _, _, same, _⟩ := childJobsSliceRange_some valid.jobs range
    refine List.all_eq_true.mp terminal job ?_
    rw [same]
    exact mem_span_of_child (valid.plans.ascending plan hp) hj child
  · have found := List.all_eq_true.mp terminal job.id child
    rw [(findJob_iff valid.jobs).mpr ⟨hj, rfl⟩] at found
    exact found

theorem childrenAreTerminal_some (valid : s.Valid) {plan : TransferPlan} (children : plan.childJobs ≠ [])
    (terminal : s.childrenAreTerminal plan = true) : ∃ job ∈ s.jobs, job.id ∈ plan.childJobs := by
  unfold childrenAreTerminal at terminal
  split at terminal
  · rename_i lo hi range
    obtain ⟨a, b, ha, _, _, first, _⟩ := childJobsSliceRange_some valid.jobs range
    exact ⟨a, List.mem_of_getElem? ha, List.mem_of_head? first⟩
  · obtain ⟨childId, child⟩ := List.exists_mem_of_ne_nil _ children
    have found := List.all_eq_true.mp terminal childId child
    cases there : s.findJob childId with
    | none =>
      rw [there] at found
      cases found
    | some job =>
      obtain ⟨hj, rfl⟩ := (findJob_iff valid.jobs).mp there
      exact ⟨job, hj, child⟩

theorem showRoot_byRoot {plan : TransferPlan} (children : plan.childJobs ≠ []) (shown : s.showRoot plan = true) :
    plan.state.byRoot = true := by
  unfold showRoot at shown
  rw [if_neg children] at shown
  cases state : plan.state <;> simp_all [TransferPlanState.byRoot]

theorem hidden_children {plan : TransferPlan} (hidden : s.showRoot plan = false) : plan.childJobs ≠ [] := by
  intro empty
  unfold showRoot at hidden
  rw [if_pos empty] at hidden
  cases hidden

theorem hidden_byRoot {plan : TransferPlan} (hidden : s.showRoot plan = false) (byRoot : plan.state.byRoot = true) :
    s.childrenAreTerminal plan = true := by
  have children := hidden_children hidden
  unfold showRoot at hidden
  rw [if_neg children] at hidden
  cases state : plan.state <;> simp_all [TransferPlanState.byRoot]

theorem byChildren_hidden {plan : TransferPlan} (children : plan.childJobs ≠ []) (byChildren : plan.state.byRoot = false) :
    s.showRoot plan = false := by
  unfold showRoot
  rw [if_neg children]
  cases state : plan.state <;> simp_all [TransferPlanState.byRoot]

end TransferStore

end MacSftp
