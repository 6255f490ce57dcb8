import MacSftp.Manager.Steps

namespace MacSftp

open Lib

namespace TransferManager

/-- Every queued job has one property, every job that runs or may be retried has another. -/
structure Homed (queued ran : TransferPlanId → TransferId → Prop) (m : TransferManager) (tasks : List TransferTask) :
    Prop where
  pending : ∀ other ∈ m.pending, queued other.planId other.job.id
  tasks : ∀ task ∈ tasks, ran task.planId task.job.id
  routes : ∀ transferId route, m.retryRoutes.lookup transferId = some route → ran route.planId route.job.id

theorem queueJobs_pending (connection : ConnectionId) (planId : TransferPlanId) (jobs : List TransferJob)
    (m : TransferManager) : ∀ queued ∈ (queueJobs connection planId m jobs).1.pending,
      queued ∈ m.pending ∨ queued.planId = planId ∧ queued.job ∈ jobs := by
  induction jobs generalizing m with
  | nil => exact fun queued member => Or.inl member
  | cons job jobs ih =>
    intro queued member
    by_cases recorded : job.id ∈ m.cancelledBeforeEnqueue
    · simp only [queueJobs, takePendingCancel, recorded, if_true] at member
      obtain old | ⟨same, inside⟩ := ih _ queued member
      · exact Or.inl old
      · exact Or.inr ⟨same, List.mem_cons_of_mem _ inside⟩
    · simp only [queueJobs, takePendingCancel, recorded, if_false] at member
      obtain old | ⟨same, inside⟩ := ih _ queued member
      · obtain old | new := List.mem_append.mp old
        · exact Or.inl old
        · cases List.mem_singleton.mp new
          exact Or.inr ⟨rfl, List.mem_cons_self⟩
      · exact Or.inr ⟨same, List.mem_cons_of_mem _ inside⟩

theorem enqueue_pending (m : TransferManager) (connection : ConnectionId) (planId : TransferPlanId)
    (jobs : List TransferJob) (recordRoot : Bool) :
    ∀ queued ∈ (m.enqueue connection planId jobs recordRoot).1.pending,
      queued ∈ m.pending ∨ queued.planId = planId ∧ queued.job ∈ jobs := by
  have spec := queueJobs_pending connection planId jobs (m.adopt planId jobs recordRoot)
  rw [show (m.adopt planId jobs recordRoot).pending = m.pending by rw [adopt_frame]] at spec
  unfold enqueue
  split
  · exact fun queued member => Or.inl member
  · dsimp only
    split
    · rw [cleanupPlanIfIdle_frame]
      exact spec
    · exact spec

theorem enqueue_routes (m : TransferManager) (connection : ConnectionId) (planId : TransferPlanId)
    (jobs : List TransferJob) (recordRoot : Bool) :
    (m.enqueue connection planId jobs recordRoot).1.retryRoutes = m.retryRoutes := by
  unfold enqueue
  split
  · rfl
  · dsimp only
    split
    · rw [cleanupPlanIfIdle_frame, queueJobs_frame, adopt_frame]
      rfl
    · rw [queueJobs_frame, adopt_frame]
      rfl

namespace Homed

variable {queued ran : TransferPlanId → TransferId → Prop} {m m' : TransferManager} {tasks : List TransferTask}

theorem empty : Homed queued ran {} [] where
  pending _ member := by cases member
  tasks _ member := by cases member
  routes _ _ found := by cases found

theorem congr (h : Homed queued ran m tasks) (pending : m'.pending = m.pending) (routes : m'.retryRoutes = m.retryRoutes) :
    Homed queued ran m' tasks where
  pending := pending ▸ h.pending
  tasks := h.tasks
  routes := routes ▸ h.routes

theorem mono {queued' ran' : TransferPlanId → TransferId → Prop} (h : Homed queued ran m tasks)
    (more : ∀ planId transferId, queued planId transferId → queued' planId transferId)
    (more' : ∀ planId transferId, ran planId transferId → ran' planId transferId) : Homed queued' ran' m tasks where
  pending other member := more _ _ (h.pending other member)
  tasks task member := more' _ _ (h.tasks task member)
  routes transferId route found := more' _ _ (h.routes transferId route found)

theorem cleanup (h : Homed queued ran m tasks) (planId : TransferPlanId) :
    Homed queued ran (m.cleanupPlanIfIdle planId) tasks := by
  rw [cleanupPlanIfIdle_frame]
  exact h.congr rfl rfl

theorem enqueue (h : Homed queued ran m tasks) (connection : ConnectionId) {planId : TransferPlanId}
    {jobs : List TransferJob} (recordRoot : Bool) (own : ∀ job ∈ jobs, queued planId job.id) :
    Homed queued ran (m.enqueue connection planId jobs recordRoot).1 tasks where
  pending other member := by
    obtain old | ⟨same, inside⟩ := m.enqueue_pending connection planId jobs recordRoot other member
    · exact h.pending other old
    · rw [same]
      exact own other.job inside
  tasks := h.tasks
  routes := by
    rw [enqueue_routes]
    exact h.routes

theorem cancelPlan (h : Homed queued ran m tasks) (planId : TransferPlanId) :
    Homed queued ran (m.cancelPlan planId).1 tasks where
  pending other member := by
    rw [cancelPlan_pending] at member
    exact h.pending other (List.mem_of_mem_filter member)
  tasks := h.tasks
  routes := by
    rw [cancelPlan_routes]
    exact h.routes

theorem remove (h : Homed queued ran m tasks) (position : Nat) (other : QueuedTransfer) :
    Homed queued ran (m.withoutPending position other) tasks where
  pending := fun other member => h.pending other (List.mem_of_mem_eraseIdx member)
  tasks := h.tasks
  routes := h.routes

theorem cancel (h : Homed queued ran m tasks) (transferId : TransferId) (planId : Option TransferPlanId) :
    Homed queued ran (m.cancel transferId planId).1 tasks := by
  obtain ⟨plan, _, step⟩ | ⟨position, other, _, _, step⟩ | ⟨_, step⟩ | ⟨_, _, _, step⟩ :=
    m.cancel_cases transferId planId
  · rw [step]
    exact h.cancelPlan plan
  · rw [step]
    exact (h.remove position other).cleanup _
  · rw [step]
    exact h.congr rfl rfl
  · rw [step]
    exact h.congr rfl rfl

theorem retry (h : Homed queued ran m tasks) (again : ∀ planId transferId, ran planId transferId → queued planId transferId)
    (transferId : TransferId) (connected : Option ConnectionId) : Homed queued ran (m.retry transferId connected).1 tasks := by
  unfold TransferManager.retry
  cases found : m.retryRoutes.lookup transferId with
  | none => exact h
  | some route =>
    have own := h.routes transferId route found
    have dropped : Homed queued ran
        ({ m with retryRoutes := m.retryRoutes.erase transferId }.takePendingCancel transferId).1 tasks := by
      rw [takePendingCancel_frame]
      refine ⟨h.pending, h.tasks, ?_⟩
      intro other kept lookup
      exact h.routes other kept (Table.lookup_erase_some lookup).2
    dsimp only
    cases connected with
    | some connection =>
      refine dropped.enqueue connection false ?_
      intro job member
      cases List.mem_singleton.mp member
      exact again _ _ own
    | none =>
      refine ⟨dropped.pending, dropped.tasks, ?_⟩
      intro other kept lookup
      by_cases same : other = transferId
      · subst same
        rw [AList.lookup_insert] at lookup
        cases lookup
        exact own
      · rw [AList.lookup_insert_ne same] at lookup
        exact dropped.routes other kept lookup

theorem handleRequest (h : Homed queued ran m tasks)
    (again : ∀ planId transferId, ran planId transferId → queued planId transferId) (request : TransferManagerRequest)
    (own : ∀ connection planId jobs, request = .enqueue connection planId jobs → ∀ job ∈ jobs, queued planId job.id) :
    Homed queued ran (m.handleRequest request).1 tasks := by
  cases request with
  | enqueue connection planId jobs => exact h.enqueue connection true (own connection planId jobs rfl)
  | cancel transferId planId => exact h.cancel transferId planId
  | cancelPlan planId => exact h.cancelPlan planId
  | forgetPlan planId => exact h.congr rfl rfl
  | retry transferId connected => exact h.retry again transferId connected

theorem complete (h : Homed queued ran m tasks) {index : Nat} {task : TransferTask} (get : tasks[index]? = some task)
    (result : TransferResult) :
    Homed queued ran (m.handleCompleted (task.completedWith result)) (tasks.eraseIdx index) where
  pending := by
    rw [handleCompleted_pending]
    exact h.pending
  tasks := fun other member => h.tasks other (List.mem_of_mem_eraseIdx member)
  routes transferId route found := by
    obtain old | ⟨rfl, rfl⟩ := m.handleCompleted_routes found
    · exact h.routes transferId route old
    · exact h.tasks task (List.mem_of_getElem? get)

end Homed

end TransferManager

namespace TransferSystem

open TransferManager

variable {queued ran : TransferPlanId → TransferId → Prop} {s : TransferSystem}

theorem started_homed (h : Homed queued ran s.manager s.tasks) {op : TransferOp} {task : TransferTask}
    (started : .started task ∈ machine.out s op) : queued task.planId task.job.id := by
  obtain ⟨_, position, other, get, _, _, rfl⟩ := started_at started
  exact h.pending other (List.mem_of_getElem? get)

theorem next_homed (h : Homed queued ran s.manager s.tasks)
    (again : ∀ planId transferId, ran planId transferId → queued planId transferId) (op : TransferOp)
    (starts : ∀ task, .started task ∈ machine.out s op → ran task.planId task.job.id)
    (own : ∀ connection planId jobs, op = .receive (.enqueue connection planId jobs) →
      ∀ job ∈ jobs, queued planId job.id) :
    Homed queued ran (machine.next s op).manager (machine.next s op).tasks := by
  by_cases turn : op = .startNext
  · subst turn
    rw [show machine.out s .startNext = s.startNext.2 from rfl] at starts
    rw [show machine.next s .startNext = s.startNext.1 from rfl]
    obtain ⟨position, other, _, _, _, get, _, step⟩ | ⟨⟨phase, step⟩, _⟩ := s.startNext_cases
    · rw [step] at starts ⊢
      refine ⟨(h.remove position other).pending, ?_, h.routes⟩
      intro task member
      obtain old | new := List.mem_append.mp member
      · exact h.tasks task old
      · exact starts task (List.mem_singleton.mpr (congrArg _ (List.mem_singleton.mp new)))
    · rw [step]
      exact h
  · cases s.next_moves op with
    | stays manager tasks =>
      rw [manager, tasks]
      exact h
    | handles request is _ manager tasks =>
      rw [manager, tasks]
      refine h.handleRequest again request ?_
      rintro connection planId jobs rfl
      exact own connection planId jobs is
    | starts _ _ is _ _ _ => exact absurd is turn
    | restages index task stage get manager tasks =>
      rw [manager, tasks]
      refine ⟨h.pending, ?_, h.routes⟩
      intro other member
      obtain old | rfl := List.mem_or_eq_of_mem_set member
      · exact h.tasks other old
      · exact h.tasks task (List.mem_of_getElem? get)
    | completes index task result get _ manager tasks =>
      rw [manager, tasks]
      exact h.complete get result
    | decides policies manager tasks =>
      rw [manager, tasks]
      exact h.congr rfl rfl

end TransferSystem

end MacSftp
