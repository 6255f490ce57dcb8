import MacSftp.Manager.Steps

namespace MacSftp

open Lib

namespace TransferManager

def routeCount (routes : Table TransferId RetryRoute) (transferId : TransferId) : Nat :=
  if transferId ∈ routes then 1 else 0

def occurrences (m : TransferManager) (tasks : List TransferTask) (transferId : TransferId) : Nat :=
  m.pending.countP (fun queued => queued.job.id = transferId) +
    tasks.countP (fun task => task.job.id = transferId) + routeCount m.retryRoutes transferId

def runningCount (running : Table TransferId RunningTransfer) (planId : TransferPlanId) : Nat :=
  Table.total (fun transfer => if transfer.planId = planId then 1 else 0) running

theorem not_queued_of_occurrences {m : TransferManager} {tasks : List TransferTask} {transferId : TransferId}
    (h : m.occurrences tasks transferId = 0) : ∀ queued ∈ m.pending, queued.job.id ≠ transferId := by
  have none_ : m.pending.countP (fun queued => queued.job.id = transferId) = 0 := by
    simp only [occurrences] at h
    omega
  simpa using List.countP_eq_zero.mp none_

/-- The manager's tables fit its tasks, and every job is in one place only. `home` says which plan a
job was enqueued for. -/
structure Booked (home : TransferPlanId → TransferId → Prop) (m : TransferManager) (tasks : List TransferTask) :
    Prop where
  once : ∀ transferId, m.occurrences tasks transferId ≤ 1
  queued : ∀ queued ∈ m.pending, home queued.planId queued.job.id
  tasked : ∀ task ∈ tasks, home task.planId task.job.id
  routed : ∀ transferId route, m.retryRoutes.lookup transferId = some route →
    route.job.id = transferId ∧ home route.planId transferId
  runningTask : ∀ transferId running, m.running.lookup transferId = some running →
    ∃ task ∈ tasks, task.job.id = transferId ∧ task.planId = running.planId
  taskRunning : ∀ task ∈ tasks, ∃ running, m.running.lookup task.job.id = some running ∧ running.planId = task.planId
  counted : Table.Counts m.runningPerPlan (runningCount m.running)
  roots : ∀ planId root, m.planRootJobs.lookup planId = some root → home planId root
  rootQueued : ∀ queued ∈ m.pending, m.planRootJobs.lookup queued.planId = some queued.job.id →
    queued.job.id ∈ m.pendingRoots

namespace Booked

variable {home : TransferPlanId → TransferId → Prop} {m m' : TransferManager} {tasks : List TransferTask}

theorem empty : Booked home {} [] where
  once _ := Nat.zero_le _
  queued _ member := by cases member
  tasked _ member := by cases member
  routed _ _ found := by cases found
  runningTask _ _ found := by cases found
  taskRunning _ member := by cases member
  counted _ := rfl
  roots _ _ found := by cases found
  rootQueued _ member := by cases member

theorem silent (h : Booked home m tasks) (pending : m'.pending = m.pending)
    (pendingRoots : m'.pendingRoots = m.pendingRoots) (running : m'.running = m.running)
    (runningPerPlan : m'.runningPerPlan = m.runningPerPlan) (retryRoutes : m'.retryRoutes = m.retryRoutes)
    (planRootJobs : ∀ planId root, m'.planRootJobs.lookup planId = some root →
      m.planRootJobs.lookup planId = some root) : Booked home m' tasks where
  once transferId := by
    rw [occurrences, pending, retryRoutes]
    exact h.once transferId
  queued := pending ▸ h.queued
  tasked := h.tasked
  routed := retryRoutes ▸ h.routed
  runningTask := running ▸ h.runningTask
  taskRunning := running ▸ h.taskRunning
  counted := by
    rw [running, runningPerPlan]
    exact h.counted
  roots planId root found := h.roots planId root (planRootJobs planId root found)
  rootQueued queued member root := by
    rw [pending] at member
    rw [pendingRoots]
    exact h.rootQueued queued member (planRootJobs _ _ root)

theorem forget (h : Booked home m tasks) (planId : TransferPlanId) :
    Booked home (m.forgetCancellationsForPlan planId) tasks :=
  h.silent rfl rfl rfl rfl rfl (fun _ _ found => found)

theorem cleanup (h : Booked home m tasks) (planId : TransferPlanId) :
    Booked home (m.cleanupPlanIfIdle planId) tasks := by
  unfold cleanupPlanIfIdle
  split
  · exact h.silent rfl rfl rfl rfl rfl (fun _ _ found => (Table.lookup_erase_some found).2)
  · exact h

theorem push (h : Booked home m tasks) {queued : QueuedTransfer} (own : home queued.planId queued.job.id)
    (fresh : m.occurrences tasks queued.job.id = 0) : Booked home (m.pushPending queued) tasks where
  once transferId := by
    have before := h.once transferId
    simp only [occurrences, pushPending, List.countP_append, List.countP_singleton] at before ⊢
    by_cases same : queued.job.id = transferId
    · subst same
      simp only [occurrences] at fresh
      simp only [decide_true, if_true]
      omega
    · simp only [same, decide_false, Bool.false_eq_true, if_false]
      omega
  queued other member := by
    obtain member | rfl := by simpa [pushPending] using member
    · exact h.queued other member
    · exact own
  tasked := h.tasked
  routed := h.routed
  runningTask := h.runningTask
  taskRunning := h.taskRunning
  counted := h.counted
  roots := h.roots
  rootQueued other member root := by
    have root' : m.planRootJobs.lookup other.planId = some other.job.id := root
    simp only [pushPending]
    obtain member | rfl := by simpa [pushPending] using member
    · have known := h.rootQueued other member root
      split
      · exact Finset.mem_insert_of_mem known
      · exact known
    · rw [if_pos root']
      exact Finset.mem_insert_self _ _

theorem shrink (h : Booked home m tasks) {pending : List QueuedTransfer} {pendingPerPlan : Table TransferPlanId Nat}
    {pendingRoots : Finset TransferId} (sub : List.Sublist pending m.pending)
    (roots : ∀ queued ∈ pending, m.planRootJobs.lookup queued.planId = some queued.job.id →
      queued.job.id ∈ pendingRoots) :
    Booked home { m with pending := pending, pendingPerPlan := pendingPerPlan, pendingRoots := pendingRoots } tasks where
  once transferId := by
    have before := h.once transferId
    have fewer := sub.countP_le (p := fun queued => queued.job.id = transferId)
    simp only [occurrences] at before ⊢
    omega
  queued queued member := h.queued queued (sub.subset member)
  tasked := h.tasked
  routed := h.routed
  runningTask := h.runningTask
  taskRunning := h.taskRunning
  counted := h.counted
  roots := h.roots
  rootQueued := roots

theorem absent_of_removed (h : Booked home m tasks) {position : Nat} {queued : QueuedTransfer}
    (get : m.pending[position]? = some queued) :
    (∀ other ∈ m.pending.eraseIdx position, other.job.id ≠ queued.job.id) ∧
      (∀ task ∈ tasks, task.job.id ≠ queued.job.id) ∧ queued.job.id ∉ m.retryRoutes := by
  have bound := h.once queued.job.id
  have split_ := countP_of_getElem? (fun other => decide (other.job.id = queued.job.id)) get
  simp only [decide_true, if_true] at split_
  simp only [occurrences, routeCount] at bound
  refine ⟨?_, ?_, ?_⟩
  · have none_ : (m.pending.eraseIdx position).countP (fun other => other.job.id = queued.job.id) = 0 := by omega
    simpa using List.countP_eq_zero.mp none_
  · have none_ : tasks.countP (fun task => task.job.id = queued.job.id) = 0 := by omega
    simpa using List.countP_eq_zero.mp none_
  · intro member
    rw [if_pos member] at bound
    omega

theorem remove (h : Booked home m tasks) {position : Nat} {queued : QueuedTransfer}
    (get : m.pending[position]? = some queued) : Booked home (m.withoutPending position queued) tasks := by
  apply h.shrink (List.eraseIdx_sublist _ _)
  intro other member root
  have differ := (h.absent_of_removed get).1 other member
  exact Finset.mem_erase_of_ne_of_mem differ (h.rootQueued other (List.eraseIdx_subset member) root)

theorem retain (h : Booked home m tasks) (unique : ∀ p p' t, home p t → home p' t → p = p') (planId : TransferPlanId) :
    Booked home (m.retainPendingNotPlan planId) tasks := by
  apply h.shrink List.filter_sublist
  intro other member root
  obtain ⟨member, elsewhere⟩ := List.mem_filter.mp member
  have known := h.rootQueued other member root
  cases found : m.planRootJobs.lookup planId with
  | none => exact known
  | some rootId =>
    refine Finset.mem_erase_of_ne_of_mem ?_ known
    rintro same
    have home' := h.roots planId rootId found
    rw [← same] at home'
    exact absurd (unique _ _ _ (h.queued other member) home') (by simpa using elsewhere)

theorem withRunning (h : Booked home m tasks) {f : RunningTransfer → RunningTransfer}
    (same : ∀ transfer, (f transfer).planId = transfer.planId) {running : Table TransferId RunningTransfer}
    (lookup : ∀ transferId, running.lookup transferId = m.running.lookup transferId ∨
      running.lookup transferId = (m.running.lookup transferId).map f)
    (count : ∀ planId, runningCount running planId = runningCount m.running planId) :
    Booked home { m with running := running } tasks where
  once := h.once
  queued := h.queued
  tasked := h.tasked
  routed := h.routed
  runningTask transferId transfer found := by
    obtain eq | eq := lookup transferId
    · exact h.runningTask transferId transfer (eq ▸ found)
    · obtain ⟨old, present, rfl⟩ := Option.map_eq_some_iff.mp (eq.symm.trans found)
      rw [same]
      exact h.runningTask transferId old present
  taskRunning task member := by
    obtain ⟨old, present, plan⟩ := h.taskRunning task member
    obtain eq | eq := lookup task.job.id
    · exact ⟨old, eq.trans present, plan⟩
    · exact ⟨f old, by rw [eq, present]; rfl, by rw [same, plan]⟩
  counted := h.counted.congr count
  roots := h.roots
  rootQueued := h.rootQueued

theorem cancelTokens (h : Booked home m tasks) (planId : TransferPlanId) :
    Booked home { m with running := TransferManager.cancelTokens planId m.running } tasks := by
  have same : ∀ transfer : RunningTransfer,
      (if transfer.planId = planId then { transfer with cancel := true } else transfer).planId = transfer.planId := by
    intro transfer
    split <;> rfl
  refine h.withRunning same (fun transferId => Or.inr (Table.lookup_mapValues _ _ _)) ?_
  intro other
  refine Table.total_mapValues (fun transfer => ?_) _
  rw [same]

theorem cancelToken (h : Booked home m tasks) (transferId : TransferId) :
    Booked home { m with running := m.running.modify transferId (fun transfer => { transfer with cancel := true }) }
      tasks := by
  refine h.withRunning (f := fun transfer => { transfer with cancel := true }) (fun _ => rfl) (fun other => ?_) ?_
  · rw [Table.lookup_modify]
    split
    · exact Or.inr rfl
    · exact Or.inl rfl
  · intro planId
    exact Table.total_modify (fun transfer => by rfl) transferId m.running

theorem takePendingCancel (h : Booked home m tasks) (transferId : TransferId) :
    Booked home (m.takePendingCancel transferId).1 tasks := by
  rw [takePendingCancel_frame]
  exact h.silent rfl rfl rfl rfl rfl (fun _ _ found => found)

theorem dropRoute (h : Booked home m tasks) (transferId : TransferId) :
    Booked home { m with retryRoutes := m.retryRoutes.erase transferId } tasks where
  once other := by
    have bound := h.once other
    have fewer : routeCount (m.retryRoutes.erase transferId) other ≤ routeCount m.retryRoutes other := by
      simp only [routeCount, AList.mem_erase]
      split_ifs <;> simp_all
    simp only [occurrences] at bound ⊢
    omega
  queued := h.queued
  tasked := h.tasked
  routed other route found := h.routed other route (Table.lookup_erase_some found).2
  runningTask := h.runningTask
  taskRunning := h.taskRunning
  counted := h.counted
  roots := h.roots
  rootQueued := h.rootQueued

theorem addRoute (h : Booked home m tasks) {transferId : TransferId} {route : RetryRoute}
    (fresh : m.occurrences tasks transferId = 0) (id : route.job.id = transferId) (own : home route.planId transferId) :
    Booked home { m with retryRoutes := m.retryRoutes.insert transferId route } tasks where
  once other := by
    have bound := h.once other
    by_cases same : other = transferId
    · subst same
      have at_most : routeCount (m.retryRoutes.insert other route) other ≤ 1 := by
        unfold routeCount
        split <;> omega
      simp only [occurrences] at fresh ⊢
      omega
    · have kept : routeCount (m.retryRoutes.insert transferId route) other = routeCount m.retryRoutes other := by
        simp [routeCount, AList.mem_insert, same]
      simp only [occurrences, kept] at bound ⊢
      exact bound
  queued := h.queued
  tasked := h.tasked
  routed other found present := by
    by_cases same : other = transferId
    · subst same
      have eq : some route = some found := (AList.lookup_insert m.retryRoutes).symm.trans present
      cases eq
      exact ⟨id, own⟩
    · have present' : (m.retryRoutes.insert transferId route).lookup other = some found := present
      rw [AList.lookup_insert_ne same] at present'
      exact h.routed other found present'
  runningTask := h.runningTask
  taskRunning := h.taskRunning
  counted := h.counted
  roots := h.roots
  rootQueued := h.rootQueued

theorem occurrences_unknown (h : Booked home m tasks) {transferId : TransferId}
    (unknown : ∀ planId, ¬ home planId transferId) : m.occurrences tasks transferId = 0 := by
  have queued : m.pending.countP (fun queued => queued.job.id = transferId) = 0 := by
    rw [List.countP_eq_zero]
    intro queued member
    simp only [decide_eq_true_eq]
    rintro rfl
    exact unknown _ (h.queued queued member)
  have tasked : tasks.countP (fun task => task.job.id = transferId) = 0 := by
    rw [List.countP_eq_zero]
    intro task member
    simp only [decide_eq_true_eq]
    rintro rfl
    exact unknown _ (h.tasked task member)
  have routed : routeCount m.retryRoutes transferId = 0 := by
    unfold routeCount
    split
    · rename_i member
      obtain ⟨route, found⟩ := Option.isSome_iff_exists.mp (AList.lookup_isSome.mpr member)
      exact absurd (h.routed _ _ found).2 (unknown _)
    · rfl
  rw [occurrences, queued, tasked, routed]

theorem cancelPlan (h : Booked home m tasks) (unique : ∀ p p' t, home p t → home p' t → p = p')
    (planId : TransferPlanId) : Booked home (m.cancelPlan planId).1 tasks := by
  have stopped := ((h.forget planId).retain unique planId).cancelTokens planId
  unfold TransferManager.cancelPlan
  dsimp only
  split
  · exact stopped
  · apply cleanup
    exact stopped.silent rfl rfl rfl rfl rfl (fun _ _ found => (Table.lookup_erase_some found).2)

theorem queueJobs (connection : ConnectionId) (planId : TransferPlanId) (jobs : List TransferJob)
    (h : Booked home m tasks) (own : ∀ job ∈ jobs, home planId job.id)
    (fresh : ∀ job ∈ jobs, m.occurrences tasks job.id = 0) (distinct : (jobs.map (fun job => job.id)).Nodup) :
    Booked home (TransferManager.queueJobs connection planId m jobs).1 tasks := by
  induction jobs generalizing m with
  | nil => exact h
  | cons job jobs ih =>
    obtain ⟨first, distinct⟩ := List.nodup_cons.mp distinct
    have own' : ∀ other ∈ jobs, home planId other.id := fun other member => own other (List.mem_cons_of_mem _ member)
    by_cases recorded : job.id ∈ m.cancelledBeforeEnqueue
    · simp only [TransferManager.queueJobs, TransferManager.takePendingCancel, recorded, if_true]
      apply ih _ own' _ distinct
      · exact h.silent rfl rfl rfl rfl rfl (fun _ _ found => found)
      · exact fun other member => fresh other (List.mem_cons_of_mem _ member)
    · simp only [TransferManager.queueJobs, TransferManager.takePendingCancel, recorded, if_false]
      apply ih _ own' _ distinct
      · exact h.push (own job List.mem_cons_self) (fresh job List.mem_cons_self)
      · intro other member
        have differ : job.id ≠ other.id := fun same => first (List.mem_map.mpr ⟨other, member, same.symm⟩)
        have free := fresh other (List.mem_cons_of_mem _ member)
        simpa [occurrences, pushPending, List.countP_append, List.countP_singleton, differ] using free

theorem adopt (h : Booked home m tasks) {planId : TransferPlanId} {jobs : List TransferJob}
    (own : ∀ job ∈ jobs, home planId job.id) (fresh : ∀ job ∈ jobs, m.occurrences tasks job.id = 0) (recordRoot : Bool) :
    Booked home (m.adopt planId jobs recordRoot) tasks := by
  have roots : ∀ plan root, (m.adopt planId jobs recordRoot).planRootJobs.lookup plan = some root → _ :=
    fun _ _ found => m.adopt_roots found
  rw [adopt_frame] at roots ⊢
  refine ⟨h.once, h.queued, h.tasked, h.routed, h.runningTask, h.taskRunning, h.counted, ?_, ?_⟩
  · intro plan root found
    obtain old | ⟨_, rfl, job, first, rfl⟩ := roots plan root found
    · exact h.roots plan root old
    · exact own job (List.mem_of_mem_head? first)
  · intro queued member found
    obtain old | ⟨_, _, job, first, same⟩ := roots _ _ found
    · exact h.rootQueued queued member old
    · exact absurd same.symm (not_queued_of_occurrences (fresh job (List.mem_of_mem_head? first)) queued member)

theorem enqueue (h : Booked home m tasks) (connection : ConnectionId) {planId : TransferPlanId}
    {jobs : List TransferJob} {recordRoot : Bool} (own : ∀ job ∈ jobs, home planId job.id)
    (fresh : ∀ job ∈ jobs, m.occurrences tasks job.id = 0) (distinct : (jobs.map (fun job => job.id)).Nodup) :
    Booked home (m.enqueue connection planId jobs recordRoot).1 tasks := by
  unfold TransferManager.enqueue
  split
  · exact h.forget planId
  · have adopted := h.adopt own fresh recordRoot
    have still : ∀ job ∈ jobs, (m.adopt planId jobs recordRoot).occurrences tasks job.id = 0 := by
      rw [adopt_frame]
      exact fresh
    have queued := (adopted.queueJobs connection planId jobs own still distinct).forget planId
    dsimp only
    split
    · exact queued.cleanup planId
    · exact queued

theorem cancel (h : Booked home m tasks) (unique : ∀ p p' t, home p t → home p' t → p = p')
    (transferId : TransferId) (planId : Option TransferPlanId) : Booked home (m.cancel transferId planId).1 tasks := by
  obtain ⟨plan, _, step⟩ | ⟨position, queued, get, _, step⟩ | ⟨_, step⟩ | ⟨_, _, _, step⟩ :=
    m.cancel_cases transferId planId
  · rw [step]
    exact h.cancelPlan unique plan
  · rw [step]
    exact (h.remove get).cleanup _
  · rw [step]
    exact h.cancelToken transferId
  · rw [step]
    exact h.silent rfl rfl rfl rfl rfl (fun _ _ found => found)

theorem retry (h : Booked home m tasks) (transferId : TransferId) (connected : Option ConnectionId) :
    Booked home (m.retry transferId connected).1 tasks := by
  unfold TransferManager.retry
  cases found : m.retryRoutes.lookup transferId with
  | none => exact h
  | some route =>
    obtain ⟨id, own⟩ := h.routed transferId route found
    have dropped := (h.dropRoute transferId).takePendingCancel transferId
    have free : ({ m with retryRoutes := m.retryRoutes.erase transferId }.takePendingCancel transferId).1.occurrences
        tasks transferId = 0 := by
      have bound := h.once transferId
      have member : transferId ∈ m.retryRoutes := AList.lookup_isSome.mp (by simp [found])
      have held : routeCount m.retryRoutes transferId = 1 := if_pos member
      have gone : routeCount (m.retryRoutes.erase transferId) transferId = 0 := by simp [routeCount, AList.mem_erase]
      rw [takePendingCancel_frame]
      simp only [occurrences] at bound ⊢
      omega
    dsimp only
    cases connected with
    | none => exact dropped.addRoute free id own
    | some connection =>
      refine dropped.enqueue connection ?_ ?_ (List.nodup_singleton _)
      · simp [id, own]
      · simpa [id] using free

theorem start (h : Booked home m tasks) {position : Nat} {queued : QueuedTransfer}
    (get : m.pending[position]? = some queued) :
    Booked home ((m.withoutPending position queued).launch queued).2
      (tasks ++ [((m.withoutPending position queued).launch queued).1]) := by
  obtain ⟨_, noTask, _⟩ := h.absent_of_removed get
  have idle : m.running.lookup queued.job.id = none := by
    cases found : m.running.lookup queued.job.id with
    | none => rfl
    | some running =>
      obtain ⟨task, member, id, _⟩ := h.runningTask _ _ found
      exact absurd id (noTask task member)
  have removed := h.remove get
  refine ⟨?_, removed.queued, ?_, removed.routed, ?_, ?_, ?_, removed.roots, removed.rootQueued⟩
  · intro transferId
    have bound := h.once transferId
    have split_ := countP_of_getElem? (fun other => decide (other.job.id = transferId)) get
    have same : ((m.withoutPending position queued).launch queued).2.occurrences
        (tasks ++ [((m.withoutPending position queued).launch queued).1]) transferId =
        (m.pending.eraseIdx position).countP (fun other => other.job.id = transferId) +
          (tasks.countP (fun task => task.job.id = transferId) +
            if decide (queued.job.id = transferId) = true then 1 else 0) +
          routeCount m.retryRoutes transferId := by
      simp only [occurrences, List.countP_append, List.countP_singleton]
      rfl
    rw [same]
    simp only [occurrences] at bound
    omega
  · intro task member
    obtain member | rfl := by simpa using member
    · exact h.tasked task member
    · exact h.queued queued (List.mem_of_getElem? get)
  · intro transferId running found
    have found' : (m.running.insert queued.job.id { planId := queued.planId }).lookup transferId = some running := found
    by_cases same : transferId = queued.job.id
    · subst same
      rw [AList.lookup_insert] at found'
      cases found'
      exact ⟨_, List.mem_append_right _ (List.mem_singleton_self _), rfl, rfl⟩
    · rw [AList.lookup_insert_ne same] at found'
      obtain ⟨task, member, rest⟩ := h.runningTask transferId running found'
      exact ⟨task, List.mem_append_left _ member, rest⟩
  · intro task member
    obtain member | rfl := by simpa using member
    · obtain ⟨running, found, plan⟩ := h.taskRunning task member
      exact ⟨running, (AList.lookup_insert_ne (noTask task member)).trans found, plan⟩
    · exact ⟨{ planId := queued.planId }, AList.lookup_insert m.running, rfl⟩
  · apply h.counted.up
    intro planId
    have inserted : runningCount (m.running.insert queued.job.id { planId := queued.planId }) planId =
        (if queued.planId = planId then 1 else 0) + runningCount m.running planId := by
      rw [runningCount, Table.total_insert, Table.erase_of_lookup_none idle]
      rfl
    refine Eq.trans inserted ?_
    by_cases same : planId = queued.planId
    · rw [if_pos same, if_pos same.symm, Nat.add_comm]
    · rw [if_neg same, if_neg (Ne.symm same), Nat.zero_add]

theorem finishTask (h : Booked home m tasks) {index : Nat} {task : TransferTask} (get : tasks[index]? = some task) :
    Booked home { m with
      running := m.running.erase task.job.id
      runningPerPlan := Table.countDown task.planId m.runningPerPlan } (tasks.eraseIdx index) ∧
    { m with
      running := m.running.erase task.job.id
      runningPerPlan := Table.countDown task.planId m.runningPerPlan }.occurrences (tasks.eraseIdx index)
        task.job.id = 0 := by
  have member : task ∈ tasks := List.mem_of_getElem? get
  obtain ⟨running, found, plan⟩ := h.taskRunning task member
  have split_ := fun transferId => countP_of_getElem? (fun other : TransferTask => decide (other.job.id = transferId)) get
  have gone : (tasks.eraseIdx index).countP (fun other => other.job.id = task.job.id) = 0 := by
    have bound := h.once task.job.id
    have here := split_ task.job.id
    simp only [decide_true, if_true] at here
    simp only [occurrences] at bound
    omega
  have others : ∀ other ∈ tasks.eraseIdx index, other.job.id ≠ task.job.id := by
    simpa using List.countP_eq_zero.mp gone
  have count : ∀ planId, runningCount m.running planId =
      (if task.planId = planId then 1 else 0) + runningCount (m.running.erase task.job.id) planId := by
    intro planId
    rw [runningCount, Table.total_erase _ found, plan]
    rfl
  refine ⟨⟨?_, h.queued, fun other there => h.tasked other (List.eraseIdx_subset there), h.routed, ?_, ?_, ?_, h.roots,
    h.rootQueued⟩, ?_⟩
  · intro transferId
    have bound := h.once transferId
    have here := split_ transferId
    simp only [occurrences] at bound ⊢
    omega
  · intro transferId transfer there
    obtain ⟨differ, there⟩ := Table.lookup_erase_some there
    obtain ⟨other, mem, id, samePlan⟩ := h.runningTask transferId transfer there
    obtain ⟨i, hget⟩ := List.mem_iff_getElem?.mp mem
    have apart : i ≠ index := by
      rintro rfl
      rw [get] at hget
      cases hget
      exact differ id.symm
    exact ⟨other, List.mem_eraseIdx_iff_getElem?.mpr ⟨i, apart, hget⟩, id, samePlan⟩
  · intro other there
    obtain ⟨transfer, there', samePlan⟩ := h.taskRunning other (List.eraseIdx_subset there)
    exact ⟨transfer, (AList.lookup_erase_ne (others other there)).trans there', samePlan⟩
  · apply h.counted.down
    · rw [count, if_pos rfl]
      omega
    · intro planId
      have here := count planId
      by_cases same : planId = task.planId
      · rw [if_pos same.symm] at here
        rw [if_pos same]
        exact Nat.eq_sub_of_add_eq' here.symm
      · rw [if_neg (Ne.symm same), Nat.zero_add] at here
        rw [if_neg same]
        exact here.symm
  · have bound := h.once task.job.id
    have here := split_ task.job.id
    simp only [decide_true, if_true] at here
    simp only [occurrences] at bound ⊢
    omega

theorem returnSession (h : Booked home m tasks) (planId : TransferPlanId) (session : Option TransferSessionSlot) :
    Booked home (match session with | some session => m.returnIdleSession planId session | none => m) tasks := by
  cases session with
  | none => exact h
  | some session => exact h.silent rfl rfl rfl rfl rfl (fun _ _ found => found)

theorem complete (h : Booked home m tasks) {index : Nat} {task : TransferTask} (get : tasks[index]? = some task)
    (result : TransferResult) : Booked home (m.handleCompleted (task.completedWith result)) (tasks.eraseIdx index) := by
  obtain ⟨running, found, plan⟩ := h.taskRunning task (List.mem_of_getElem? get)
  obtain ⟨finished, free⟩ := h.finishTask get
  have own := h.tasked task (List.mem_of_getElem? get)
  have found' : (m.running.lookup (task.completedWith result).transferId).map (fun running => running.planId) =
      some task.planId := by
    rw [← plan]
    exact congrArg (Option.map _) found
  unfold handleCompleted
  simp only [found']
  apply cleanup
  apply returnSession
  cases retry : (task.completedWith result).retryRoute with
  | none => exact finished.dropRoute task.job.id
  | some route =>
    cases task.completedWith_route retry
    exact finished.addRoute free rfl own

theorem mono {home' : TransferPlanId → TransferId → Prop} (h : Booked home m tasks)
    (more : ∀ planId transferId, home planId transferId → home' planId transferId) : Booked home' m tasks :=
  ⟨h.once, fun queued member => more _ _ (h.queued queued member), fun task member => more _ _ (h.tasked task member),
    fun transferId route found => ⟨(h.routed transferId route found).1, more _ _ (h.routed transferId route found).2⟩,
    h.runningTask, h.taskRunning, h.counted, fun planId root found => more _ _ (h.roots planId root found), h.rootQueued⟩

theorem restage (h : Booked home m tasks) {index : Nat} {task : TransferTask} (get : tasks[index]? = some task)
    (stage : TaskStage) : Booked home m (tasks.set index { task with stage := stage }) := by
  have back : ∀ new ∈ tasks.set index { task with stage := stage },
      ∃ old ∈ tasks, new.job = old.job ∧ new.planId = old.planId := by
    intro new member
    obtain old | rfl := List.mem_or_eq_of_mem_set member
    · exact ⟨new, old, rfl, rfl⟩
    · exact ⟨task, List.mem_of_getElem? get, rfl, rfl⟩
  refine ⟨?_, h.queued, ?_, h.routed, ?_, ?_, h.counted, h.roots, h.rootQueued⟩
  · intro transferId
    have same : (tasks.set index { task with stage := stage }).countP (fun task => task.job.id = transferId) =
        tasks.countP (fun task => task.job.id = transferId) := by
      rw [countP_set_of_getElem? _ get, countP_of_getElem? _ get]
    rw [occurrences, same]
    exact h.once transferId
  · intro new member
    obtain ⟨old, there, job, plan⟩ := back new member
    rw [job, plan]
    exact h.tasked old there
  · intro transferId running found
    obtain ⟨old, there, id, plan⟩ := h.runningTask transferId running found
    obtain ⟨i, hget⟩ := List.mem_iff_getElem?.mp there
    by_cases same : i = index
    · subst same
      rw [get] at hget
      cases hget
      have bound := (List.getElem?_eq_some_iff.mp get).1
      exact ⟨_, List.mem_set bound _, id, plan⟩
    · refine ⟨old, List.mem_iff_getElem?.mpr ⟨i, ?_⟩, id, plan⟩
      rw [List.getElem?_set_ne (Ne.symm same)]
      exact hget
  · intro new member
    obtain ⟨old, there, job, plan⟩ := back new member
    rw [job, plan]
    exact h.taskRunning old there

theorem handleRequest (h : Booked home m tasks) (unique : ∀ p p' t, home p t → home p' t → p = p')
    (request : TransferManagerRequest)
    (fresh : ∀ connection planId jobs, request = .enqueue connection planId jobs →
      (∀ job ∈ jobs, home planId job.id) ∧ (∀ job ∈ jobs, m.occurrences tasks job.id = 0) ∧
        (jobs.map (fun job => job.id)).Nodup) :
    Booked home (m.handleRequest request).1 tasks := by
  cases request with
  | enqueue connection planId jobs =>
    obtain ⟨own, free, distinct⟩ := fresh connection planId jobs rfl
    exact h.enqueue connection own free distinct
  | cancel transferId planId => exact h.cancel unique transferId planId
  | cancelPlan planId => exact h.cancelPlan unique planId
  | forgetPlan planId => exact h.forget planId
  | retry transferId connected => exact h.retry transferId connected

end Booked

end TransferManager

def TransferOp.enqueues : TransferOp → Option (TransferPlanId × List TransferId)
  | .receive (.enqueue _ planId jobs) => some (planId, jobs.map (fun job => job.id))
  | _ => none

def FreshJobs (ops : List TransferOp) : Prop := ((ops.filterMap TransferOp.enqueues).flatMap Prod.snd).Nodup

instance (ops : List TransferOp) : Decidable (FreshJobs ops) := inferInstanceAs (Decidable (List.Nodup _))

def EnqueuedFor (ops : List TransferOp) (planId : TransferPlanId) (transferId : TransferId) : Prop :=
  ∃ ids, (planId, ids) ∈ ops.filterMap TransferOp.enqueues ∧ transferId ∈ ids

namespace FreshJobs

variable {ops : List TransferOp}

theorem of_append {more : List TransferOp} (fresh : FreshJobs (ops ++ more)) : FreshJobs ops := by
  unfold FreshJobs at fresh
  rw [List.filterMap_append, List.flatMap_append] at fresh
  exact fresh.of_append_left

theorem of_concat {op : TransferOp} (fresh : FreshJobs (ops ++ [op])) : FreshJobs ops := fresh.of_append

theorem unique (fresh : FreshJobs ops) (p p' : TransferPlanId) (t : TransferId) (h : EnqueuedFor ops p t)
    (h' : EnqueuedFor ops p' t) : p = p' := by
  obtain ⟨ids, member, inside⟩ := h
  obtain ⟨ids', member', inside'⟩ := h'
  by_contra differ
  have : Std.Symm (Function.onFun List.Disjoint (Prod.snd : TransferPlanId × List TransferId → _)) :=
    ⟨fun _ _ apart => apart.symm⟩
  have apart := (List.nodup_flatMap.mp fresh).2.forall member member' (fun same => differ (congrArg Prod.fst same))
  exact apart inside inside'

theorem job_new {connection : ConnectionId} {planId : TransferPlanId} {jobs : List TransferJob}
    (fresh : FreshJobs (ops ++ [.receive (.enqueue connection planId jobs)])) {job : TransferJob} (inside : job ∈ jobs)
    (plan : TransferPlanId) : ¬ EnqueuedFor ops plan job.id := by
  rintro ⟨old, member, there⟩
  unfold FreshJobs at fresh
  rw [List.filterMap_append, List.flatMap_append] at fresh
  refine List.disjoint_of_nodup_append fresh (List.mem_flatMap.mpr ⟨_, member, there⟩) ?_
  simpa [TransferOp.enqueues] using ⟨job, inside, rfl⟩

theorem jobs_nodup {connection : ConnectionId} {planId : TransferPlanId} {jobs : List TransferJob}
    (fresh : FreshJobs (ops ++ [.receive (.enqueue connection planId jobs)])) :
    (jobs.map (fun job => job.id)).Nodup := by
  unfold FreshJobs at fresh
  rw [List.filterMap_append, List.flatMap_append] at fresh
  simpa [TransferOp.enqueues] using fresh.of_append_right

theorem apart {before after : List TransferOp} {connection : ConnectionId} {planId : TransferPlanId}
    {jobs : List TransferJob} (fresh : FreshJobs (before ++ .receive (.enqueue connection planId jobs) :: after))
    {connection' : ConnectionId} {planId' : TransferPlanId} {jobs' : List TransferJob}
    (other : .receive (.enqueue connection' planId' jobs') ∈ before ∨ .receive (.enqueue connection' planId' jobs') ∈ after)
    {job job' : TransferJob} (inside : job ∈ jobs) (inside' : job' ∈ jobs') : job'.id ≠ job.id := by
  have listed : ∀ ops : List TransferOp, .receive (.enqueue connection' planId' jobs') ∈ ops →
      job'.id ∈ (ops.filterMap TransferOp.enqueues).flatMap Prod.snd := by
    intro ops member
    refine List.mem_flatMap.mpr ⟨(planId', jobs'.map (fun job => job.id)), ?_, List.mem_map_of_mem inside'⟩
    exact List.mem_filterMap.mpr ⟨_, member, rfl⟩
  have own : job.id ∈ jobs.map (fun job => job.id) := List.mem_map_of_mem inside
  have brings : TransferOp.enqueues (.receive (.enqueue connection planId jobs)) =
      some (planId, jobs.map (fun job => job.id)) := rfl
  unfold FreshJobs at fresh
  rw [List.filterMap_append, List.flatMap_append, List.filterMap_cons_some brings, List.flatMap_cons,
    List.nodup_append'] at fresh
  obtain ⟨_, rest, early⟩ := fresh
  obtain ⟨_, _, late⟩ := List.nodup_append'.mp rest
  intro same
  obtain member | member := other
  · exact early (listed before member) (same ▸ List.mem_append_left _ own)
  · exact late own (same ▸ listed after member)

end FreshJobs

theorem EnqueuedFor.mem {ops : List TransferOp} {planId : TransferPlanId} {transferId : TransferId}
    (h : EnqueuedFor ops planId transferId) :
    ∃ connection jobs, .receive (.enqueue connection planId jobs) ∈ ops ∧ ∃ job ∈ jobs, job.id = transferId := by
  obtain ⟨ids, member, inside⟩ := h
  obtain ⟨op, there, brings⟩ := List.mem_filterMap.mp member
  unfold TransferOp.enqueues at brings
  split at brings
  · cases brings
    obtain ⟨job, inside, is⟩ := List.mem_map.mp inside
    exact ⟨_, _, there, job, inside, is⟩
  · cases brings

theorem EnqueuedFor.concat {ops : List TransferOp} {planId : TransferPlanId} {transferId : TransferId}
    (h : EnqueuedFor ops planId transferId) (op : TransferOp) : EnqueuedFor (ops ++ [op]) planId transferId := by
  obtain ⟨ids, member, inside⟩ := h
  exact ⟨ids, by rw [List.filterMap_append]; exact List.mem_append_left _ member, inside⟩

namespace TransferSystem

open TransferManager

variable {home : TransferPlanId → TransferId → Prop} {s : TransferSystem}

/-- What the environment promises about a request: an enqueue brings new jobs. -/
def NewJobs (home : TransferPlanId → TransferId → Prop) (s : TransferSystem) (op : TransferOp) : Prop :=
  ∀ connection planId jobs, op = .receive (.enqueue connection planId jobs) →
    (∀ job ∈ jobs, home planId job.id) ∧ (∀ job ∈ jobs, s.manager.occurrences s.tasks job.id = 0) ∧
      (jobs.map (fun job => job.id)).Nodup

theorem next_booked (h : Booked home s.manager s.tasks) (unique : ∀ p p' t, home p t → home p' t → p = p')
    (op : TransferOp) (fresh : NewJobs home s op) :
    Booked home (machine.next s op).manager (machine.next s op).tasks := by
  cases s.next_moves op with
  | stays manager tasks =>
    rw [manager, tasks]
    exact h
  | handles request is _ manager tasks =>
    rw [manager, tasks]
    refine h.handleRequest unique request ?_
    rintro connection planId jobs rfl
    exact fresh connection planId jobs is
  | starts position queued _ get _ step =>
    rw [step]
    exact h.start get
  | restages index task stage get manager tasks =>
    rw [manager, tasks]
    exact h.restage get stage
  | completes index task result get _ manager tasks =>
    rw [manager, tasks]
    exact h.complete get result
  | decides policies manager tasks =>
    rw [manager, tasks]
    exact h.silent rfl rfl rfl rfl rfl (fun _ _ found => found)

theorem newJobs_of_fresh {ops : List TransferOp} {op : TransferOp} (fresh : FreshJobs (ops ++ [op]))
    (h : Booked (EnqueuedFor ops) s.manager s.tasks) : NewJobs (EnqueuedFor (ops ++ [op])) s op := by
  rintro connection planId jobs rfl
  refine ⟨?_, ?_, fresh.jobs_nodup⟩
  · intro job inside
    refine ⟨jobs.map (fun job => job.id), ?_, List.mem_map_of_mem inside⟩
    rw [List.filterMap_append]
    exact List.mem_append_right _ (by simp [TransferOp.enqueues])
  · intro job inside
    exact h.occurrences_unknown (fresh.job_new inside)

theorem reachable_booked (ops : List TransferOp) (fresh : FreshJobs ops) :
    Booked (EnqueuedFor ops) (machine.run {} ops).manager (machine.run {} ops).tasks := by
  induction ops using List.reverseRecOn with
  | nil => exact .empty
  | append_singleton ops op ih =>
    have booked := ih fresh.of_concat
    rw [machine.run_concat]
    exact next_booked (booked.mono (fun _ _ old => old.concat op)) fresh.unique op (newJobs_of_fresh fresh booked)

end TransferSystem

end MacSftp
