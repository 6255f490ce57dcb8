import MacSftp.Manager.Bookkeeping
import MacSftp.Transfer.PlanOutcome

namespace MacSftp

open Lib

namespace TransferManager

def RootsKept (m m' : TransferManager) : Prop :=
  ∀ planId root, m'.planRootJobs.lookup planId = some root → planId ∉ m'.planChildrenStarted →
    m.planRootJobs.lookup planId = some root ∧ planId ∉ m.planChildrenStarted

variable {m m' : TransferManager}

theorem rootsKept_of_eq (roots : m'.planRootJobs = m.planRootJobs)
    (children : m'.planChildrenStarted = m.planChildrenStarted) : RootsKept m m' := by
  intro planId root found unused
  rw [roots] at found
  rw [children] at unused
  exact ⟨found, unused⟩

theorem RootsKept.trans {m₁ m₂ m₃ : TransferManager} (h₁ : RootsKept m₁ m₂) (h₂ : RootsKept m₂ m₃) :
    RootsKept m₁ m₃ := by
  intro planId root found unused
  obtain ⟨found, unused⟩ := h₂ planId root found unused
  exact h₁ planId root found unused

theorem rootsKept_of_erase {planId : TransferPlanId} (roots : m'.planRootJobs = m.planRootJobs.erase planId)
    (children : m'.planChildrenStarted = m.planChildrenStarted.erase planId) : RootsKept m m' := by
  intro plan root found unused
  rw [roots] at found
  obtain ⟨differ, found⟩ := Table.lookup_erase_some found
  refine ⟨found, fun started => unused ?_⟩
  rw [children]
  exact Finset.mem_erase_of_ne_of_mem differ started

theorem cleanupPlanIfIdle_roots (m : TransferManager) (planId : TransferPlanId) :
    RootsKept m (m.cleanupPlanIfIdle planId) := by
  unfold cleanupPlanIfIdle
  split
  · exact rootsKept_of_erase rfl rfl
  · exact rootsKept_of_eq rfl rfl

theorem cancelPlan_roots (m : TransferManager) (planId : TransferPlanId) : RootsKept m (m.cancelPlan planId).1 := by
  unfold cancelPlan
  dsimp only
  split
  · exact rootsKept_of_eq rfl rfl
  · refine RootsKept.trans ?_ (cleanupPlanIfIdle_roots _ _)
    exact rootsKept_of_erase rfl rfl

theorem enqueue_roots (m : TransferManager) (connection : ConnectionId) (planId : TransferPlanId)
    (jobs : List TransferJob) (recordRoot : Bool) (plan : TransferPlanId) (other : recordRoot = true → plan ≠ planId)
    (root : TransferId)
    (found : (m.enqueue connection planId jobs recordRoot).1.planRootJobs.lookup plan = some root)
    (unused : plan ∉ (m.enqueue connection planId jobs recordRoot).1.planChildrenStarted) :
    m.planRootJobs.lookup plan = some root ∧ plan ∉ m.planChildrenStarted := by
  unfold enqueue at found unused
  split at found
  · rename_i cancelled
    rw [if_pos cancelled] at unused
    exact ⟨found, unused⟩
  · rename_i admitted
    rw [if_neg admitted] at unused
    have queued : RootsKept (m.adopt planId jobs recordRoot)
        ((queueJobs connection planId (m.adopt planId jobs recordRoot) jobs).1.forgetCancellationsForPlan planId) := by
      rw [queueJobs_frame]
      exact rootsKept_of_eq rfl rfl
    have kept : (m.adopt planId jobs recordRoot).planRootJobs.lookup plan = some root ∧
        plan ∉ (m.adopt planId jobs recordRoot).planChildrenStarted := by
      dsimp only at found unused
      split at found
      · rename_i skipped
        rw [if_pos skipped] at unused
        exact (queued.trans (cleanupPlanIfIdle_roots _ _)) plan root found unused
      · rename_i none_
        rw [if_neg none_] at unused
        exact queued plan root found unused
    obtain old | ⟨record, same, _⟩ := m.adopt_roots kept.1
    · refine ⟨old, ?_⟩
      have unused' := kept.2
      rw [adopt_frame] at unused'
      exact unused'
    · exact absurd same (other record)

theorem cancel_roots (m : TransferManager) (transferId : TransferId) (planId : Option TransferPlanId) :
    RootsKept m (m.cancel transferId planId).1 := by
  obtain ⟨plan, _, step⟩ | ⟨position, queued, _, _, step⟩ | ⟨_, step⟩ | ⟨_, _, _, step⟩ :=
    m.cancel_cases transferId planId
  · rw [step]
    exact cancelPlan_roots _ _
  · rw [step]
    refine RootsKept.trans ?_ (cleanupPlanIfIdle_roots _ _)
    exact rootsKept_of_eq rfl rfl
  · rw [step]
    exact rootsKept_of_eq rfl rfl
  · rw [step]
    exact rootsKept_of_eq rfl rfl

theorem retry_roots (m : TransferManager) (transferId : TransferId) (connected : Option ConnectionId) :
    RootsKept m (m.retry transferId connected).1 := by
  have taken : RootsKept m
      ({ m with retryRoutes := m.retryRoutes.erase transferId }.takePendingCancel transferId).1 := by
    rw [takePendingCancel_frame]
    exact rootsKept_of_eq rfl rfl
  unfold retry
  cases m.retryRoutes.lookup transferId with
  | none => exact rootsKept_of_eq rfl rfl
  | some route =>
    cases connected with
    | none => exact taken
    | some connection =>
      refine taken.trans ?_
      intro planId root
      exact enqueue_roots _ connection route.planId [route.job] false planId (by simp) root

theorem handleRequest_roots (m : TransferManager) (request : TransferManagerRequest) (plan : TransferPlanId)
    (other : ∀ connection jobs, request ≠ .enqueue connection plan jobs) (root : TransferId)
    (found : (m.handleRequest request).1.planRootJobs.lookup plan = some root)
    (unused : plan ∉ (m.handleRequest request).1.planChildrenStarted) :
    m.planRootJobs.lookup plan = some root ∧ plan ∉ m.planChildrenStarted := by
  cases request with
  | enqueue connection planId jobs =>
    refine enqueue_roots m connection planId jobs true plan ?_ root found unused
    rintro _ rfl
    exact other connection jobs rfl
  | cancel transferId planId => exact cancel_roots m transferId planId plan root found unused
  | cancelPlan planId => exact cancelPlan_roots m planId plan root found unused
  | forgetPlan planId => exact ⟨found, unused⟩
  | retry transferId connected => exact retry_roots m transferId connected plan root found unused

theorem handleCompleted_roots (m : TransferManager) (completed : CompletedTransfer) :
    RootsKept m (m.handleCompleted completed) := by
  unfold handleCompleted
  cases m.running.lookup completed.transferId with
  | none => cases completed.retryRoute <;> exact rootsKept_of_eq rfl rfl
  | some running =>
    refine RootsKept.trans ?_ (cleanupPlanIfIdle_roots _ _)
    cases completed.retryRoute <;> cases completed.reusableSession <;> exact rootsKept_of_eq rfl rfl

theorem isEligible_download {activeChannels : ConnectionId → Nat} {queued : QueuedTransfer}
    (eligible : m.isEligible activeChannels queued = true) (download : queued.job.direction = .download) :
    (∀ root, m.planRootJobs.lookup queued.planId = some root → queued.job.id ≠ root →
      root ∉ m.pendingRoots ∧ root ∉ m.running) ∧
    ((∀ root, m.planRootJobs.lookup queued.planId = some root → queued.job.id = root) →
      m.runningOf queued.planId = 0) := by
  unfold isEligible at eligible
  simp only [download, ne_eq, not_true_eq_false, if_false] at eligible
  split_ifs at eligible
  cases found : m.planRootJobs.lookup queued.planId with
  | none =>
    simp only [found, decide_eq_true_eq] at eligible
    exact ⟨by simp, fun _ => eligible⟩
  | some rootId =>
    simp only [found] at eligible
    by_cases same : queued.job.id = rootId
    · simp only [same, if_true, decide_eq_true_eq] at eligible
      exact ⟨fun root h differ => absurd (same.trans (Option.some.inj h)) differ, fun _ => eligible⟩
    · simp only [same, if_false, Bool.and_eq_true, decide_eq_true_eq] at eligible
      refine ⟨?_, fun h => absurd (h rootId rfl) same⟩
      rintro root ⟨⟩ _
      exact eligible

theorem Booked.idle_plan {home : TransferPlanId → TransferId → Prop} {tasks : List TransferTask}
    (h : Booked home m tasks) {planId : TransferPlanId} (none_ : m.runningOf planId = 0) {transferId : TransferId}
    {running : RunningTransfer} (found : m.running.lookup transferId = some running) : running.planId ≠ planId := by
  rintro rfl
  have count : runningCount m.running running.planId = 0 := (h.counted.getD running.planId).symm.trans none_
  rw [runningCount, Table.total_erase _ found, if_pos rfl] at count
  omega

theorem Booked.root_not_queued {home : TransferPlanId → TransferId → Prop} {tasks : List TransferTask}
    (h : Booked home m tasks) (unique : ∀ p p' t, home p t → home p' t → p = p') {planId : TransferPlanId}
    {root : TransferId} (recorded : m.planRootJobs.lookup planId = some root) (free : root ∉ m.pendingRoots) :
    ∀ queued ∈ m.pending, queued.job.id ≠ root := by
  rintro queued member rfl
  have plan := unique _ _ _ (h.queued queued member) (h.roots planId _ recorded)
  exact free (h.rootQueued queued member (plan ▸ recorded))

end TransferManager

/-- Every plan is enqueued once, and every enqueued job has an id of its own. -/
def FreshEnqueues (ops : List TransferOp) : Prop :=
  ((ops.filterMap TransferOp.enqueues).map Prod.fst).Nodup ∧
    ((ops.filterMap TransferOp.enqueues).flatMap Prod.snd).Nodup

instance (ops : List TransferOp) : Decidable (FreshEnqueues ops) := inferInstanceAs (Decidable (_ ∧ _))

theorem FreshEnqueues.of_concat {ops : List TransferOp} {op : TransferOp} (fresh : FreshEnqueues (ops ++ [op])) :
    FreshEnqueues ops := by
  refine ⟨?_, FreshJobs.of_concat fresh.2⟩
  have plans := fresh.1
  rw [List.filterMap_append, List.map_append] at plans
  exact plans.of_append_left

theorem FreshEnqueues.plan_new {ops : List TransferOp} {connection : ConnectionId} {planId : TransferPlanId}
    {jobs : List TransferJob} (fresh : FreshEnqueues (ops ++ [.receive (.enqueue connection planId jobs)]))
    (transferId : TransferId) : ¬ EnqueuedFor ops planId transferId := by
  rintro ⟨old, member, _⟩
  obtain ⟨plans, _⟩ := fresh
  rw [List.filterMap_append, List.map_append] at plans
  refine List.disjoint_of_nodup_append plans (List.mem_map_of_mem member) ?_
  simp [TransferOp.enqueues]

theorem FreshEnqueues.plan_apart {before after : List TransferOp} {connection connection' : ConnectionId}
    {planId planId' : TransferPlanId} {jobs jobs' : List TransferJob}
    (fresh : FreshEnqueues (before ++ .receive (.enqueue connection planId jobs) :: after))
    (other : .receive (.enqueue connection' planId' jobs') ∈ before) : planId' ≠ planId := by
  obtain ⟨plans, _⟩ := fresh
  rw [List.filterMap_append, List.map_append] at plans
  rintro rfl
  refine List.disjoint_of_nodup_append plans (a := planId') ?_ ?_
  · exact List.mem_map.mpr ⟨(planId', jobs'.map (fun job => job.id)), List.mem_filterMap.mpr ⟨_, other, rfl⟩, rfl⟩
  · simp [TransferOp.enqueues]

theorem FreshEnqueues.jobs {ops : List TransferOp} (fresh : FreshEnqueues ops) : FreshJobs ops := fresh.2

namespace TransferSystem

open TransferManager

def StartedIn (past : List (TransferOp × List TransferOutput)) (task : TransferTask) : Prop :=
  ∃ entry ∈ past, .started task ∈ entry.2

/-- What a run has done so far: the books are kept, what was started had been enqueued, and a plan
whose root still counts as untouched has started nothing but its root. -/
structure Accounted (past : List (TransferOp × List TransferOutput)) (s : TransferSystem) : Prop where
  booked : Booked (EnqueuedFor (past.map Prod.fst)) s.manager s.tasks
  started : ∀ task, StartedIn past task → EnqueuedFor (past.map Prod.fst) task.planId task.job.id
  alone : ∀ planId root, s.manager.planRootJobs.lookup planId = some root →
    planId ∉ s.manager.planChildrenStarted → ∀ task, StartedIn past task → task.planId = planId → task.job.id = root

theorem startedIn_concat {past : List (TransferOp × List TransferOutput)} {op : TransferOp}
    {outputs : List TransferOutput} {task : TransferTask} :
    StartedIn (past ++ [(op, outputs)]) task ↔ StartedIn past task ∨ .started task ∈ outputs := by
  simp only [StartedIn, List.mem_append, List.mem_singleton, or_and_right, exists_or, exists_eq_left]

theorem launched_roots {s : TransferSystem} {position : Nat} {queued : QueuedTransfer} {plan : TransferPlanId}
    {root : TransferId} (found : (s.launched position queued).manager.planRootJobs.lookup plan = some root)
    (unused : plan ∉ (s.launched position queued).manager.planChildrenStarted) :
    (s.manager.planRootJobs.lookup plan = some root ∧ plan ∉ s.manager.planChildrenStarted) ∧
      (queued.planId = plan → queued.job.id = root) := by
  have children : (s.launched position queued).manager.planChildrenStarted =
      if s.manager.planRootJobs.lookup queued.planId = some queued.job.id then
        s.manager.planChildrenStarted else insert queued.planId s.manager.planChildrenStarted := rfl
  have found' : s.manager.planRootJobs.lookup plan = some root := found
  rw [children] at unused
  split at unused
  · rename_i isRoot
    refine ⟨⟨found', unused⟩, ?_⟩
    rintro rfl
    exact Option.some.inj (isRoot.symm.trans found')
  · rw [Finset.mem_insert, not_or] at unused
    exact ⟨⟨found', unused.2⟩, fun same => absurd same.symm unused.1⟩

theorem next_roots {s : TransferSystem} {op : TransferOp} {plan : TransferPlanId}
    (other : ∀ connection jobs, op ≠ .receive (.enqueue connection plan jobs)) {root : TransferId}
    (found : (machine.next s op).manager.planRootJobs.lookup plan = some root)
    (unused : plan ∉ (machine.next s op).manager.planChildrenStarted) :
    s.manager.planRootJobs.lookup plan = some root ∧ plan ∉ s.manager.planChildrenStarted := by
  have kept : RootsKept s.manager (machine.next s op).manager → _ := fun kept => kept plan root found unused
  cases s.next_moves op with
  | stays manager _ =>
    rw [manager] at kept
    exact kept (rootsKept_of_eq rfl rfl)
  | handles request is _ manager _ =>
    rw [manager] at found unused
    refine handleRequest_roots s.manager request plan ?_ root found unused
    rintro connection jobs rfl
    exact other connection jobs is
  | starts position queued _ _ _ step =>
    rw [step] at found unused
    exact (launched_roots found unused).1
  | restages index task stage _ manager _ =>
    rw [manager] at kept
    exact kept (rootsKept_of_eq rfl rfl)
  | completes index task result _ _ manager _ =>
    rw [manager] at kept
    exact kept (handleCompleted_roots _ _)
  | decides policies manager _ =>
    rw [manager] at kept
    exact kept (rootsKept_of_eq rfl rfl)

theorem accounted_next {past : List (TransferOp × List TransferOutput)} {s : TransferSystem} {op : TransferOp}
    (fresh : FreshEnqueues (past.map Prod.fst ++ [op])) (h : Accounted past s) :
    Accounted (past ++ [(op, machine.out s op)]) (machine.next s op) := by
  have ops : (past ++ [(op, machine.out s op)]).map Prod.fst = past.map Prod.fst ++ [op] := by simp
  have booked := h.booked.mono (fun _ _ old => old.concat op)
  refine ⟨?_, ?_, ?_⟩
  · rw [ops]
    exact next_booked booked fresh.jobs.unique op (newJobs_of_fresh fresh.jobs h.booked)
  · rw [ops]
    intro task started
    obtain old | new := startedIn_concat.mp started
    · exact (h.started task old).concat op
    · obtain ⟨_, position, queued, get, _, _, rfl⟩ := started_at new
      exact booked.queued queued (List.mem_of_getElem? get)
  · rintro planId root found unused task started rfl
    obtain old | new := startedIn_concat.mp started
    · by_cases enqueue : ∃ connection jobs, op = .receive (.enqueue connection task.planId jobs)
      · obtain ⟨connection, jobs, rfl⟩ := enqueue
        exact absurd (h.started task old) (fresh.plan_new _)
      · push Not at enqueue
        obtain ⟨found, unused⟩ := next_roots enqueue found unused
        exact h.alone _ root found unused task old rfl
    · obtain ⟨rfl, position, queued, _, _, step, rfl⟩ := started_at new
      have step' : machine.next s .startNext = s.launched position queued := step
      rw [step'] at found unused
      exact (launched_roots found unused).2 rfl

theorem accounted (ops : List TransferOp) (fresh : FreshEnqueues ops) :
    Accounted (machine.log {} ops) (machine.run {} ops) := by
  have step : ∀ past s op, (FreshEnqueues (past.map Prod.fst) → Accounted past s) →
      FreshEnqueues ((past ++ [(op, machine.out s op)]).map Prod.fst) →
        Accounted (past ++ [(op, machine.out s op)]) (machine.next s op) := by
    intro past s op h fresh
    rw [List.map_append] at fresh
    exact accounted_next fresh (h fresh.of_concat)
  have start : FreshEnqueues [] → Accounted [] {} := by
    intro _
    exact ⟨.empty, fun _ ⟨_, member, _⟩ => (List.not_mem_nil member).elim, fun _ _ found => by cases found⟩
  refine machine.log_invariant step start ops ?_
  rw [machine.log_inputs]
  exact fresh

/-- The job starts in the order its plan asks for: a download waits for the root, and the root, or any
download once no root is on record, for every running job of the plan. -/
def StartsInOrder (s : TransferSystem) (task : TransferTask) : Prop :=
  task.job.direction = .download →
    (∀ root, s.manager.planRootJobs.lookup task.planId = some root → task.job.id ≠ root →
      (∀ queued ∈ s.manager.pending, queued.job.id ≠ root) ∧ root ∉ s.manager.running) ∧
    ((∀ root, s.manager.planRootJobs.lookup task.planId = some root → task.job.id = root) →
      ∀ transferId running, s.manager.running.lookup transferId = some running → running.planId ≠ task.planId)

/-- Only the recorded root of a plan may clear the destination, and only as long as no other job of
the plan has been started. -/
def ClearsOnlyUntouched (past : List (TransferOp × List TransferOutput)) (s : TransferSystem) (task : TransferTask) :
    Prop :=
  task.mayClearDestination = true →
    s.manager.planRootJobs.lookup task.planId = some task.job.id ∧
      ∀ earlier, StartedIn past earlier → earlier.planId = task.planId → earlier.job.id = task.job.id

theorem downloads_keep_their_output (ops : List TransferOp) (fresh : FreshEnqueues ops) (op : TransferOp)
    (task : TransferTask) (started : .started task ∈ machine.out (machine.run {} ops) op) :
    ClearsOnlyUntouched (machine.log {} ops) (machine.run {} ops) task ∧
      StartsInOrder (machine.run {} ops) task := by
  have h := accounted ops fresh
  obtain ⟨_, position, queued, get, eligible, _, rfl⟩ := started_at started
  constructor
  · intro mayClear
    have permission : (decide ((machine.run {} ops).manager.planRootJobs.lookup queued.planId = some queued.job.id) &&
      decide (queued.planId ∉ (machine.run {} ops).manager.planChildrenStarted)) = true := mayClear
    obtain ⟨root, unused⟩ := Bool.and_eq_true_iff.mp permission
    have root := of_decide_eq_true root
    exact ⟨root, h.alone _ _ root (of_decide_eq_true unused)⟩
  · intro download
    obtain ⟨child, alone⟩ := isEligible_download eligible download
    constructor
    · intro root recorded differ
      obtain ⟨free, idle⟩ := child root recorded differ
      rw [← machine.log_inputs {} ops] at fresh
      exact ⟨h.booked.root_not_queued fresh.jobs.unique recorded free, idle⟩
    · intro isRoot transferId running found
      exact h.booked.idle_plan (alone isRoot) found

def sampleDownload (id : Nat) : TransferJob :=
  { TransferStore.sampleJob id with
    direction := .download
    source := .remote (.new "/b")
    destination := .local (.new "/a") }

/-- A folder download: its root runs alone, fails and may be retried. -/
def failedRootRun : List TransferOp :=
  [.receive (.enqueue ⟨1⟩ ⟨1⟩ [sampleDownload 1, sampleDownload 2]), .startNext, .startNext,
    .report 0 (.stopped reconnectBeforeRetrying false), .release 0, .complete 0]

def startedTask (id : Nat) (mayClear : Bool) : TransferTask where
  connection := ⟨1⟩
  planId := ⟨1⟩
  job := sampleDownload id
  session := ⟨⟨1⟩, .download⟩
  reusesSession := false
  mayClearDestination := mayClear

theorem downloads_keep_their_output_folder :
    (ClearsOnlyUntouched (machine.log {} (failedRootRun.take 1)) (machine.run {} (failedRootRun.take 1))
        (startedTask 1 true) ∧
      StartsInOrder (machine.run {} (failedRootRun.take 1)) (startedTask 1 true)) ∧
    ClearsOnlyUntouched (machine.log {} failedRootRun) (machine.run {} failedRootRun) (startedTask 2 false) ∧
      StartsInOrder (machine.run {} failedRootRun) (startedTask 2 false) :=
  ⟨downloads_keep_their_output (failedRootRun.take 1) (by decide) .startNext (startedTask 1 true) (by decide),
    downloads_keep_their_output failedRootRun (by decide) .startNext (startedTask 2 false) (by decide)⟩

end TransferSystem

end MacSftp
