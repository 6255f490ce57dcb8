import MacSftp.Manager.System

namespace MacSftp

open Lib

theorem TransferTask.completedWith_route (task : TransferTask) {result : TransferResult} {route : RetryRoute}
    (h : (task.completedWith result).retryRoute = some route) :
    route = ⟨task.connection, task.planId, task.job⟩ := by
  unfold completedWith at h
  dsimp only at h
  split at h
  · exact (Option.some.inj h).symm
  · cases h

namespace TransferManager

variable (m : TransferManager)

theorem queueJobs_frame (target : ConnectionId) (planId : TransferPlanId) (jobs : List TransferJob) :
    (queueJobs target planId m jobs).1 = { m with
      pending := (queueJobs target planId m jobs).1.pending
      pendingPerPlan := (queueJobs target planId m jobs).1.pendingPerPlan
      pendingRoots := (queueJobs target planId m jobs).1.pendingRoots
      cancelledBeforeEnqueue := (queueJobs target planId m jobs).1.cancelledBeforeEnqueue
      pendingCancelOrder := (queueJobs target planId m jobs).1.pendingCancelOrder } := by
  induction jobs generalizing m with
  | nil => rfl
  | cons job jobs ih =>
    by_cases recorded : job.id ∈ m.cancelledBeforeEnqueue
    · simp only [queueJobs, takePendingCancel, recorded, if_true]
      exact ih _
    · simp only [queueJobs, takePendingCancel, recorded, if_false]
      exact ih _

theorem adopt_frame (planId : TransferPlanId) (jobs : List TransferJob) (recordRoot : Bool) :
    m.adopt planId jobs recordRoot = { m with
      planPolicies := (m.adopt planId jobs recordRoot).planPolicies
      planRootJobs := (m.adopt planId jobs recordRoot).planRootJobs } := by
  unfold adopt adoptPolicy adoptRoot
  cases jobs.head? <;> cases recordRoot <;> rfl

theorem adopt_roots {planId : TransferPlanId} {jobs : List TransferJob} {recordRoot : Bool} {plan : TransferPlanId}
    {root : TransferId} (h : (m.adopt planId jobs recordRoot).planRootJobs.lookup plan = some root) :
    m.planRootJobs.lookup plan = some root ∨
      recordRoot = true ∧ plan = planId ∧ ∃ job ∈ jobs.head?, job.id = root := by
  unfold adopt adoptPolicy adoptRoot at h
  cases recordRoot with
  | false => cases first : jobs.head? <;> exact Or.inl (by simpa [first] using h)
  | true =>
    cases first : jobs.head? with
    | none => exact Or.inl (by simpa [first] using h)
    | some job =>
      simp only [first, if_true, Table.orInsert] at h
      split at h
      · exact Or.inl h
      · by_cases same : plan = planId
        · subst same
          rw [AList.lookup_insert] at h
          exact Or.inr ⟨rfl, rfl, job, rfl, Option.some.inj h⟩
        · rw [AList.lookup_insert_ne same] at h
          exact Or.inl h

theorem takePendingCancel_frame (transferId : TransferId) :
    (m.takePendingCancel transferId).1 = { m with
      cancelledBeforeEnqueue := (m.takePendingCancel transferId).1.cancelledBeforeEnqueue
      pendingCancelOrder := (m.takePendingCancel transferId).1.pendingCancelOrder } := by
  unfold takePendingCancel
  split <;> rfl

theorem cleanupPlanIfIdle_frame (planId : TransferPlanId) :
    m.cleanupPlanIfIdle planId = { m with
      planPolicies := (m.cleanupPlanIfIdle planId).planPolicies
      planRootJobs := (m.cleanupPlanIfIdle planId).planRootJobs
      planChildrenStarted := (m.cleanupPlanIfIdle planId).planChildrenStarted
      idleSessions := (m.cleanupPlanIfIdle planId).idleSessions
      cancelledBeforeEnqueue := (m.cleanupPlanIfIdle planId).cancelledBeforeEnqueue
      pendingCancelOrder := (m.cleanupPlanIfIdle planId).pendingCancelOrder } := by
  unfold cleanupPlanIfIdle
  split <;> rfl

theorem cancelPlan_pending (planId : TransferPlanId) :
    (m.cancelPlan planId).1.pending = m.pending.filter (fun queued => queued.planId ≠ planId) := by
  unfold cancelPlan
  dsimp only
  split
  · rfl
  · rw [cleanupPlanIfIdle_frame]
    rfl

theorem cancelPlan_routes (planId : TransferPlanId) : (m.cancelPlan planId).1.retryRoutes = m.retryRoutes := by
  unfold cancelPlan
  dsimp only
  split
  · rfl
  · rw [cleanupPlanIfIdle_frame]
    rfl

theorem cancelPlan_events {planId : TransferPlanId} (interrupts : m.interrupted planId ≠ []) :
    (m.cancelPlan planId).2 = [.planCancelled planId] := by
  unfold cancelPlan
  exact congrArg Prod.snd (if_neg interrupts)

theorem handleCompleted_pending (completed : CompletedTransfer) : (m.handleCompleted completed).pending = m.pending := by
  unfold handleCompleted
  cases m.running.lookup completed.transferId with
  | none => cases completed.retryRoute <;> rfl
  | some running =>
    dsimp only [Option.map_some]
    rw [cleanupPlanIfIdle_frame]
    cases completed.retryRoute <;> cases completed.reusableSession <;> rfl

theorem handleCompleted_retryRoutes (completed : CompletedTransfer) :
    (m.handleCompleted completed).retryRoutes = match completed.retryRoute with
      | some route => m.retryRoutes.insert completed.transferId route
      | none => m.retryRoutes.erase completed.transferId := by
  unfold handleCompleted
  cases m.running.lookup completed.transferId with
  | none => cases completed.retryRoute <;> rfl
  | some running =>
    dsimp only [Option.map_some]
    rw [cleanupPlanIfIdle_frame]
    cases completed.retryRoute <;> cases completed.reusableSession <;> rfl

theorem handleCompleted_routes {task : TransferTask} {result : TransferResult} {transferId : TransferId}
    {route : RetryRoute}
    (h : (m.handleCompleted (task.completedWith result)).retryRoutes.lookup transferId = some route) :
    m.retryRoutes.lookup transferId = some route ∨
      transferId = task.job.id ∧ route = ⟨task.connection, task.planId, task.job⟩ := by
  rw [handleCompleted_retryRoutes] at h
  cases retry : (task.completedWith result).retryRoute with
  | none =>
    rw [retry] at h
    exact Or.inl (Table.lookup_erase_some h).2
  | some kept =>
    rw [retry] at h
    by_cases same : transferId = task.job.id
    · subst same
      have eq : some kept = some route := (AList.lookup_insert m.retryRoutes).symm.trans h
      cases eq
      exact Or.inr ⟨rfl, task.completedWith_route retry⟩
    · exact Or.inl ((AList.lookup_insert_ne same).symm.trans h)

def withoutPending (position : Nat) (queued : QueuedTransfer) : TransferManager :=
  { m with
    pending := m.pending.eraseIdx position
    pendingPerPlan := Table.countDown queued.planId m.pendingPerPlan
    pendingRoots := m.pendingRoots.erase queued.job.id }

variable {m}

theorem removePending_some {position : Nat} {queued : QueuedTransfer} {m' : TransferManager} :
    m.removePending position = some (queued, m') ↔
      m.pending[position]? = some queued ∧ m' = m.withoutPending position queued := by
  unfold removePending
  rw [Option.map_eq_some_iff]
  constructor
  · rintro ⟨found, get, he⟩
    obtain ⟨rfl, rfl⟩ := Prod.mk.inj he
    exact ⟨get, rfl⟩
  · rintro ⟨get, rfl⟩
    exact ⟨queued, get, rfl⟩

theorem findIdx?_getElem? {α : Type} {p : α → Bool} {xs : List α} {i : Nat} (h : xs.findIdx? p = some i) :
    ∃ x, xs[i]? = some x ∧ p x = true := by
  obtain ⟨hlt, hp, _⟩ := List.findIdx?_eq_some_iff_getElem.mp h
  exact ⟨xs[i], List.getElem?_eq_getElem hlt, hp⟩

variable (m) in
theorem cancel_cases (transferId : TransferId) (planId : Option TransferPlanId) :
    (∃ plan, m.planOfRoot transferId = some plan ∧ m.cancel transferId planId = m.cancelPlan plan) ∨
    (∃ position queued, m.pending[position]? = some queued ∧ queued.job.id = transferId ∧
      m.cancel transferId planId =
        ((m.withoutPending position queued).cleanupPlanIfIdle queued.planId, [.skipped transferId])) ∨
    (transferId ∈ m.running ∧ m.cancel transferId planId =
      ({ m with running := m.running.modify transferId (fun running => { running with cancel := true }) }, [])) ∨
    (m.planOfRoot transferId = none ∧ (∀ queued ∈ m.pending, queued.job.id ≠ transferId) ∧ transferId ∉ m.running ∧
      m.cancel transferId planId = (m.recordPendingCancel transferId planId, [])) := by
  unfold cancel
  cases root : m.planOfRoot transferId with
  | some plan => exact Or.inl ⟨plan, rfl, rfl⟩
  | none =>
    refine Or.inr ?_
    cases search : m.pending.findIdx? (fun queued => queued.job.id = transferId) with
    | some position =>
      obtain ⟨queued, get, is⟩ := findIdx?_getElem? search
      have removed : m.removePending position = some (queued, m.withoutPending position queued) :=
        removePending_some.mpr ⟨get, rfl⟩
      refine Or.inl ⟨position, queued, get, by simpa using is, ?_⟩
      simp only [Option.bind_some, removed]
    | none =>
      have notQueued : ∀ queued ∈ m.pending, queued.job.id ≠ transferId := by
        simpa using List.findIdx?_eq_none_iff.mp search
      simp only [Option.bind_none]
      split
      · rename_i running
        exact Or.inr (Or.inl ⟨running, rfl⟩)
      · rename_i idle
        exact Or.inr (Or.inr ⟨trivial, notQueued, idle, rfl⟩)

theorem nextQueuedPosition_eligible {activeChannels : ConnectionId → Nat} {position : Nat}
    (h : m.nextQueuedPosition activeChannels = some position) :
    ∃ queued, m.pending[position]? = some queued ∧ m.isEligible activeChannels queued = true := by
  have eligible : ∀ p : QueuedTransfer → Bool,
      m.pending.findIdx? (fun queued => p queued && m.isEligible activeChannels queued) = some position →
        ∃ queued, m.pending[position]? = some queued ∧ m.isEligible activeChannels queued = true := by
    intro p found
    obtain ⟨queued, get, both⟩ := findIdx?_getElem? found
    exact ⟨queued, get, (Bool.and_eq_true_iff.mp both).2⟩
  simp only [nextQueuedPosition] at h
  split_ifs at h
  · rcases Option.or_eq_some_iff.mp h with found | ⟨_, found⟩
    · exact eligible _ found
    · exact eligible _ found
  · exact eligible _ h

theorem pick_some {activeChannels : ConnectionId → Nat} {queued : QueuedTransfer} {m' : TransferManager}
    (h : m.pick activeChannels = some (queued, m')) :
    m.running.size < maxConcurrentTransfers ∧ ∃ position, m.pending[position]? = some queued ∧
      m.isEligible activeChannels queued = true ∧ m' = m.withoutPending position queued := by
  unfold pick at h
  split at h
  · rename_i room
    obtain ⟨position, found, removed⟩ := Option.bind_eq_some_iff.mp h
    obtain ⟨get, rfl⟩ := removePending_some.mp removed
    obtain ⟨other, get', eligible⟩ := nextQueuedPosition_eligible found
    rw [get] at get'
    cases get'
    exact ⟨room, position, get, eligible, rfl⟩
  · cases h

end TransferManager

namespace TransferSystem

variable (s : TransferSystem)

def launched (position : Nat) (queued : QueuedTransfer) : TransferSystem :=
  let launched := (s.manager.withoutPending position queued).launch queued
  { s with
    manager := launched.2
    tasks := s.tasks ++ [launched.1]
    activeChannels := Function.update s.activeChannels queued.connection (s.activeChannels queued.connection + 1) }

theorem startNext_cases :
    (∃ position queued, s.phase = .busy [] ∧
      s.manager.pick s.activeChannels = some (queued, s.manager.withoutPending position queued) ∧
      s.manager.running.size < maxConcurrentTransfers ∧ s.manager.pending[position]? = some queued ∧
      s.manager.isEligible s.activeChannels queued = true ∧
      s.startNext = (s.launched position queued,
        [.started ((s.manager.withoutPending position queued).launch queued).1])) ∨
    (∃ phase, s.startNext = ({ s with phase := phase }, [])) ∧
      (s.phase = .busy [] → s.manager.pick s.activeChannels = none) := by
  unfold startNext
  split
  · rename_i busy
    cases picked : s.manager.pick s.activeChannels with
    | none => exact Or.inr ⟨⟨.ready, rfl⟩, fun _ => rfl⟩
    | some pair =>
      obtain ⟨queued, m⟩ := pair
      obtain ⟨room, position, get, eligible, rfl⟩ := TransferManager.pick_some picked
      exact Or.inl ⟨position, queued, busy, rfl, room, get, eligible, rfl⟩
  · rename_i notBusy
    exact Or.inr ⟨⟨s.phase, rfl⟩, fun busy => absurd busy notBusy⟩

variable {s} in
theorem started_at {op : TransferOp} {task : TransferTask}
    (h : .started task ∈ machine.out s op) : op = .startNext ∧ ∃ position queued,
      s.manager.pending[position]? = some queued ∧ s.manager.isEligible s.activeChannels queued = true ∧
      s.startNext.1 = s.launched position queued ∧
      task = ((s.manager.withoutPending position queued).launch queued).1 := by
  cases op with
  | receive request => cases h
  | send =>
    have h' : .started task ∈ s.send.2 := h
    unfold send at h'
    split at h' <;> simp at h'
  | startNext =>
    have h' : .started task ∈ s.startNext.2 := h
    obtain ⟨position, queued, _, _, _, get, eligible, step⟩ | ⟨⟨phase, step⟩, _⟩ := s.startNext_cases
    · rw [step] at h'
      refine ⟨rfl, position, queued, get, eligible, by rw [step], ?_⟩
      simpa using h'
    · rw [step] at h'
      cases h'
  | report index result =>
    have h' : .started task ∈ (s.report index result).2 := h
    unfold report at h'
    cases get : s.tasks[index]? with
    | none => simp [get] at h'
    | some found =>
      simp only [get] at h'
      split at h' <;> simp at h'
  | release index => cases h
  | complete index => cases h
  | setPolicy index policy => cases h

inductive Moves (s : TransferSystem) (op : TransferOp) (s' : TransferSystem) : Prop
  | stays (manager : s'.manager = s.manager) (tasks : s'.tasks = s.tasks)
  | handles (request : TransferManagerRequest) (is : op = .receive request) (ready : s.phase = .ready)
      (manager : s'.manager = (s.manager.handleRequest request).1) (tasks : s'.tasks = s.tasks)
  | starts (position : Nat) (queued : QueuedTransfer) (is : op = .startNext)
      (get : s.manager.pending[position]? = some queued)
      (eligible : s.manager.isEligible s.activeChannels queued = true) (step : s' = s.launched position queued)
  | restages (index : Nat) (task : TransferTask) (stage : TaskStage) (get : s.tasks[index]? = some task)
      (manager : s'.manager = s.manager) (tasks : s'.tasks = s.tasks.set index { task with stage := stage })
  | completes (index : Nat) (task : TransferTask) (result : TransferResult) (get : s.tasks[index]? = some task)
      (stage : task.stage = .released result)
      (manager : s'.manager = s.manager.handleCompleted (task.completedWith result))
      (tasks : s'.tasks = s.tasks.eraseIdx index)
  | decides (policies : Table TransferPlanId ConflictPolicy)
      (manager : s'.manager = { s.manager with planPolicies := policies }) (tasks : s'.tasks = s.tasks)

theorem next_moves (op : TransferOp) : Moves s op (machine.next s op) := by
  cases op with
  | receive request =>
    show Moves s _ (s.receive request)
    unfold receive
    split
    · rename_i ready
      exact .handles request rfl ready rfl rfl
    · exact .stays rfl rfl
  | send =>
    show Moves s _ s.send.1
    unfold send
    split <;> exact .stays rfl rfl
  | startNext =>
    show Moves s _ s.startNext.1
    obtain ⟨position, queued, _, _, _, get, eligible, step⟩ | ⟨⟨phase, step⟩, _⟩ := s.startNext_cases
    · exact .starts position queued rfl get eligible (by rw [step])
    · rw [step]
      exact .stays rfl rfl
  | report index result =>
    show Moves s _ (s.report index result).1
    unfold report
    cases get : s.tasks[index]? with
    | none => exact .stays rfl rfl
    | some task =>
      dsimp only
      split
      · exact .restages index task _ get rfl rfl
      · exact .stays rfl rfl
  | release index =>
    show Moves s _ (s.release index)
    unfold release
    cases get : s.tasks[index]? with
    | none => exact .stays rfl rfl
    | some task =>
      dsimp only
      split
      · exact .restages index task _ get rfl rfl
      · exact .stays rfl rfl
  | complete index =>
    show Moves s _ (s.complete index)
    unfold complete
    split
    · rename_i task _ get
      split
      · rename_i result stage
        exact .completes index task result get stage rfl rfl
      · exact .stays rfl rfl
    · exact .stays rfl rfl
  | setPolicy index policy =>
    show Moves s _ (s.setPolicy index policy)
    unfold setPolicy
    cases s.tasks[index]? with
    | none => exact .stays rfl rfl
    | some task =>
      dsimp only
      split
      · exact .decides _ rfl rfl
      · exact .stays rfl rfl

theorem next_outbox {event : TransferEvent} (phase : s.phase = .busy [event]) (op : TransferOp) :
    .sent event ∈ machine.out s op ∨ (machine.next s op).phase = .busy [event] := by
  cases op with
  | receive request => exact Or.inr (by simp [Machine.next, machine, apply, receive, phase])
  | send => exact Or.inl (by simp [Machine.out, machine, apply, send, phase])
  | startNext => exact Or.inr (by simp [Machine.next, machine, apply, startNext, phase])
  | complete index => exact Or.inr (by simp [Machine.next, machine, apply, complete, phase])
  | report index result =>
    refine Or.inr (Eq.trans ?_ phase)
    show (s.report index result).1.phase = s.phase
    unfold report
    split
    · rfl
    · split <;> rfl
  | release index =>
    refine Or.inr (Eq.trans ?_ phase)
    show (s.release index).phase = s.phase
    unfold release
    split
    · rfl
    · split <;> rfl
  | setPolicy index policy =>
    refine Or.inr (Eq.trans ?_ phase)
    show (s.setPolicy index policy).phase = s.phase
    unfold setPolicy
    split
    · rfl
    · split <;> rfl

def sentEvents (log : List (TransferOp × List TransferOutput)) : List TransferEvent :=
  log.flatMap (fun entry => entry.2.filterMap (fun output =>
    match output with
    | .sent event => some event
    | .started _ => none))

@[simp] theorem sentEvents_cons (entry : TransferOp × List TransferOutput) (log : List (TransferOp × List TransferOutput)) :
    sentEvents (entry :: log) = sentEvents [entry] ++ sentEvents log := by
  simp [sentEvents]

end TransferSystem

end MacSftp
