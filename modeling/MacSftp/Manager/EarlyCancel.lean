import MacSftp.Manager.Homes
import MacSftp.Manager.Cancellation

namespace MacSftp

open Lib

def TransferEvent.transfer : TransferEvent → Option TransferId
  | .conflict prompt => some prompt.transferId
  | .running job => some job.id
  | .progress made => some made.transferId
  | .warning raised => some raised.transferId
  | .completed transferId | .skipped transferId => some transferId
  | .failed failure => some failure.transferId
  | _ => none

def ManagerPhase.outbox : ManagerPhase → List TransferEvent
  | .ready => []
  | .busy outbox => outbox

theorem TransferResult.terminalEvent_transfer (transferId : TransferId) (result : TransferResult) :
    (result.terminalEvent transferId).transfer = some transferId := by
  cases result with
  | openFailed error => rfl
  | finished => rfl
  | stopped error duringConflict =>
    unfold terminalEvent
    dsimp only
    split <;> rfl

namespace TransferManager

/-- The job is neither queued nor run, and only a retry of its own can bring it back. -/
structure Absent (routed : Prop) (t : TransferId) (m : TransferManager) (tasks : List TransferTask) : Prop where
  pending : ∀ queued ∈ m.pending, queued.job.id ≠ t
  tasks : ∀ task ∈ tasks, task.job.id ≠ t
  routes : ∀ transferId route, m.retryRoutes.lookup transferId = some route →
    transferId = t ∧ routed ∨ transferId ≠ t ∧ route.job.id ≠ t

theorem queueJobs_skipped (connection : ConnectionId) (planId : TransferPlanId) (jobs : List TransferJob)
    (m : TransferManager) : ∀ transferId ∈ (queueJobs connection planId m jobs).2, ∃ job ∈ jobs, job.id = transferId := by
  induction jobs generalizing m with
  | nil => exact fun _ member => absurd member List.not_mem_nil
  | cons job jobs ih =>
    intro transferId member
    by_cases recorded : job.id ∈ m.cancelledBeforeEnqueue
    · simp only [queueJobs, takePendingCancel, recorded, if_true] at member
      obtain rfl | member := List.mem_cons.mp member
      · exact ⟨job, List.mem_cons_self, rfl⟩
      · obtain ⟨other, inside, is⟩ := ih _ transferId member
        exact ⟨other, List.mem_cons_of_mem _ inside, is⟩
    · simp only [queueJobs, takePendingCancel, recorded, if_false] at member
      obtain ⟨other, inside, is⟩ := ih _ transferId member
      exact ⟨other, List.mem_cons_of_mem _ inside, is⟩

theorem enqueue_events (m : TransferManager) (connection : ConnectionId) (planId : TransferPlanId)
    (jobs : List TransferJob) (recordRoot : Bool) :
    ∀ event ∈ (m.enqueue connection planId jobs recordRoot).2, ∀ transferId, event.transfer = some transferId →
      ∃ job ∈ jobs, job.id = transferId := by
  intro event member transferId about
  unfold enqueue at member
  split at member
  · cases List.mem_singleton.mp member
    cases about
  · obtain ⟨skipped, inside, rfl⟩ := List.mem_map.mp member
    cases about
    exact queueJobs_skipped connection planId jobs _ _ inside

theorem cancelPlan_about (m : TransferManager) (planId : TransferPlanId) :
    ∀ event ∈ (m.cancelPlan planId).2, event.transfer = none := by
  intro event member
  unfold cancelPlan at member
  dsimp only at member
  split at member
  · cases member
  · cases List.mem_singleton.mp member
    rfl

namespace Absent

variable {routed : Prop} {t : TransferId} {m m' : TransferManager} {tasks : List TransferTask}

theorem congr (h : Absent routed t m tasks) (pending : m'.pending = m.pending)
    (routes : m'.retryRoutes = m.retryRoutes) : Absent routed t m' tasks where
  pending := pending ▸ h.pending
  tasks := h.tasks
  routes := routes ▸ h.routes

theorem cleanup (h : Absent routed t m tasks) (planId : TransferPlanId) :
    Absent routed t (m.cleanupPlanIfIdle planId) tasks := by
  rw [cleanupPlanIfIdle_frame]
  exact h.congr rfl rfl

theorem enqueue (h : Absent routed t m tasks) (connection : ConnectionId) (planId : TransferPlanId)
    {jobs : List TransferJob} (recordRoot : Bool) (others : ∀ job ∈ jobs, job.id ≠ t) :
    Absent routed t (m.enqueue connection planId jobs recordRoot).1 tasks ∧
      ∀ event ∈ (m.enqueue connection planId jobs recordRoot).2, event.transfer ≠ some t := by
  refine ⟨⟨?_, h.tasks, ?_⟩, ?_⟩
  · intro queued member
    obtain old | ⟨_, inside⟩ := m.enqueue_pending connection planId jobs recordRoot queued member
    · exact h.pending queued old
    · exact others queued.job inside
  · rw [enqueue_routes]
    exact h.routes
  · intro event member about
    obtain ⟨job, inside, is⟩ := m.enqueue_events connection planId jobs recordRoot event member t about
    exact others job inside is

theorem cancelPlan (h : Absent routed t m tasks) (planId : TransferPlanId) :
    Absent routed t (m.cancelPlan planId).1 tasks ∧
      ∀ event ∈ (m.cancelPlan planId).2, event.transfer ≠ some t := by
  refine ⟨⟨?_, h.tasks, ?_⟩, ?_⟩
  · intro queued member
    rw [cancelPlan_pending] at member
    exact h.pending queued (List.mem_of_mem_filter member)
  · rw [cancelPlan_routes]
    exact h.routes
  · intro event member
    rw [cancelPlan_about m planId event member]
    simp

theorem cancel (h : Absent routed t m tasks) (transferId : TransferId) (planId : Option TransferPlanId) :
    Absent routed t (m.cancel transferId planId).1 tasks ∧
      ∀ event ∈ (m.cancel transferId planId).2, event.transfer ≠ some t := by
  obtain ⟨plan, _, step⟩ | ⟨position, queued, get, is, step⟩ | ⟨_, step⟩ | ⟨_, _, _, step⟩ :=
    m.cancel_cases transferId planId
  · rw [step]
    exact h.cancelPlan plan
  · rw [step]
    constructor
    · apply cleanup
      exact ⟨fun other member => h.pending other (List.mem_of_mem_eraseIdx member), h.tasks, h.routes⟩
    · intro event member about
      cases List.mem_singleton.mp member
      exact h.pending queued (List.mem_of_getElem? get) (is.trans (Option.some.inj about))
  · rw [step]
    exact ⟨h.congr rfl rfl, fun _ member => absurd member List.not_mem_nil⟩
  · rw [step]
    exact ⟨h.congr rfl rfl, fun _ member => absurd member List.not_mem_nil⟩

theorem retry (h : Absent routed t m tasks) (transferId : TransferId) (connected : Option ConnectionId)
    (other : transferId = t → ¬ routed) :
    Absent routed t (m.retry transferId connected).1 tasks ∧
      ∀ event ∈ (m.retry transferId connected).2, event.transfer ≠ some t := by
  unfold TransferManager.retry
  cases found : m.retryRoutes.lookup transferId with
  | none => exact ⟨h, fun _ member => absurd member List.not_mem_nil⟩
  | some route =>
    obtain ⟨same, retried⟩ | ⟨differ, apart⟩ := h.routes transferId route found
    · exact absurd retried (other same)
    · have dropped : Absent routed t
          ({ m with retryRoutes := m.retryRoutes.erase transferId }.takePendingCancel transferId).1 tasks := by
        rw [takePendingCancel_frame]
        exact ⟨h.pending, h.tasks, fun other kept lookup => h.routes other kept (Table.lookup_erase_some lookup).2⟩
      cases connected with
      | some connection =>
        apply dropped.enqueue connection route.planId false
        intro job member
        cases List.mem_singleton.mp member
        exact apart
      | none =>
        refine ⟨⟨dropped.pending, dropped.tasks, ?_⟩, ?_⟩
        · intro other kept lookup
          by_cases same : other = transferId
          · subst same
            rw [AList.lookup_insert] at lookup
            cases lookup
            exact Or.inr ⟨differ, apart⟩
          · rw [AList.lookup_insert_ne same] at lookup
            exact dropped.routes other kept lookup
        · intro event member about
          cases List.mem_singleton.mp member
          exact differ (Option.some.inj about)

theorem handleRequest (h : Absent routed t m tasks) (request : TransferManagerRequest)
    (retried : ∀ connected, request = .retry t connected → ¬ routed)
    (others : ∀ connection planId jobs, request = .enqueue connection planId jobs → ∀ job ∈ jobs, job.id ≠ t) :
    Absent routed t (m.handleRequest request).1 tasks ∧
      ∀ event ∈ (m.handleRequest request).2, event.transfer ≠ some t := by
  cases request with
  | enqueue connection planId jobs => exact h.enqueue connection planId true (others connection planId jobs rfl)
  | cancel transferId planId => exact h.cancel transferId planId
  | cancelPlan planId => exact h.cancelPlan planId
  | forgetPlan planId => exact ⟨h.congr rfl rfl, fun _ member => absurd member List.not_mem_nil⟩
  | retry transferId connected =>
    apply h.retry transferId connected
    rintro rfl
    exact retried connected rfl

theorem complete (h : Absent routed t m tasks) {index : Nat} {task : TransferTask} (get : tasks[index]? = some task)
    (result : TransferResult) :
    Absent routed t (m.handleCompleted (task.completedWith result)) (tasks.eraseIdx index) where
  pending := by
    rw [handleCompleted_pending]
    exact h.pending
  tasks := fun rest member => h.tasks rest (List.mem_of_mem_eraseIdx member)
  routes transferId route found := by
    obtain old | ⟨rfl, rfl⟩ := m.handleCompleted_routes found
    · exact h.routes transferId route old
    · have other := h.tasks task (List.mem_of_getElem? get)
      exact Or.inr ⟨other, other⟩

end Absent

/-- A cancel of the job is on record, for no plan or for the plan `p`. -/
def Marked (t : TransferId) (p : TransferPlanId) (m : TransferManager) : Prop :=
  ∃ recorded, m.cancelledBeforeEnqueue.lookup t = some recorded ∧ (recorded = none ∨ recorded = some p)

namespace Marked

variable {home : TransferPlanId → TransferId → Prop} {t : TransferId} {p planId : TransferPlanId}
  {m m' : TransferManager} {tasks : List TransferTask}

theorem mem (h : Marked t p m) : t ∈ m.cancelledBeforeEnqueue := by
  obtain ⟨recorded, found, _⟩ := h
  exact Table.mem_iff_lookup.mpr ⟨recorded, found⟩

theorem congr (h : Marked t p m) (records : m'.cancelledBeforeEnqueue = m.cancelledBeforeEnqueue) : Marked t p m' := by
  unfold Marked
  rw [records]
  exact h

theorem forget (h : Marked t p m) (other : planId ≠ p) : Marked t p (m.forgetCancellationsForPlan planId) := by
  obtain ⟨recorded, found, own⟩ := h
  refine ⟨recorded, ?_, own⟩
  show (m.cancelledBeforeEnqueue.retain _).lookup t = _
  rw [Table.lookup_retain, found, Option.filter_some, if_pos]
  obtain rfl | rfl := own
  · simp
  · simpa using Ne.symm other

theorem cleanup (h : Marked t p m) (other : planId ≠ p) : Marked t p (m.cleanupPlanIfIdle planId) := by
  unfold cleanupPlanIfIdle
  split
  · exact (h.forget other).congr rfl
  · exact h

theorem take (h : Marked t p m) {transferId : TransferId} (other : transferId ≠ t) :
    Marked t p (m.takePendingCancel transferId).1 := by
  obtain ⟨recorded, found, own⟩ := h
  unfold takePendingCancel
  split
  · exact ⟨recorded, (AList.lookup_erase_ne (Ne.symm other)).trans found, own⟩
  · exact ⟨recorded, found, own⟩

theorem queueJobs (h : Marked t p m) (connection : ConnectionId) {jobs : List TransferJob}
    (others : ∀ job ∈ jobs, job.id ≠ t) : Marked t p (TransferManager.queueJobs connection planId m jobs).1 := by
  induction jobs generalizing m with
  | nil => exact h
  | cons job jobs ih =>
    have rest : ∀ other ∈ jobs, other.id ≠ t := fun other member => others other (List.mem_cons_of_mem _ member)
    have taken := h.take (others job List.mem_cons_self)
    unfold TransferManager.queueJobs
    split
    · rename_i m' eq
      rw [eq] at taken
      exact ih taken rest
    · rename_i m' eq
      rw [eq] at taken
      exact ih (taken.congr rfl) rest

theorem enqueue (h : Marked t p m) (connection : ConnectionId) (other : planId ≠ p) {jobs : List TransferJob}
    (recordRoot : Bool) (others : ∀ job ∈ jobs, job.id ≠ t) :
    Marked t p (m.enqueue connection planId jobs recordRoot).1 := by
  have adopted : Marked t p (m.adopt planId jobs recordRoot) := by
    rw [adopt_frame]
    exact h.congr rfl
  have queued : Marked t p
      ((TransferManager.queueJobs connection planId (m.adopt planId jobs recordRoot) jobs).1.forgetCancellationsForPlan
        planId) := (adopted.queueJobs connection others).forget other
  unfold TransferManager.enqueue
  split
  · exact h.forget other
  · dsimp only
    split
    · exact queued.cleanup other
    · exact queued

theorem cancelPlan (h : Marked t p m) (other : planId ≠ p) : Marked t p (m.cancelPlan planId).1 := by
  unfold TransferManager.cancelPlan
  dsimp only
  split
  · exact (h.forget other).congr rfl
  · refine cleanup ?_ other
    exact (h.forget other).congr rfl

theorem retry (h : Marked t p m) (booked : Booked home m tasks) (unknown : ∀ transferId, ¬ home p transferId)
    (fresh : ∀ planId, ¬ home planId t) (transferId : TransferId) (connected : Option ConnectionId) :
    Marked t p (m.retry transferId connected).1 := by
  unfold TransferManager.retry
  cases found : m.retryRoutes.lookup transferId with
  | none => exact h
  | some route =>
    obtain ⟨is, own⟩ := booked.routed transferId route found
    have differ : transferId ≠ t := by
      rintro rfl
      exact fresh _ own
    have elsewhere : route.planId ≠ p := by
      rintro rfl
      exact unknown _ own
    have taken : Marked t p ({ m with retryRoutes := m.retryRoutes.erase transferId }.takePendingCancel transferId).1 :=
      take (m := { m with retryRoutes := m.retryRoutes.erase transferId }) h differ
    cases connected with
    | none => exact taken.congr rfl
    | some connection =>
      apply taken.enqueue connection elsewhere
      intro job member
      cases List.mem_singleton.mp member
      exact is ▸ differ

theorem complete (h : Marked t p m) (booked : Booked home m tasks) (unknown : ∀ transferId, ¬ home p transferId)
    (completed : CompletedTransfer) : Marked t p (m.handleCompleted completed) := by
  unfold handleCompleted
  cases found : m.running.lookup completed.transferId with
  | none => cases completed.retryRoute <;> exact h.congr rfl
  | some running =>
    have elsewhere : running.planId ≠ p := by
      obtain ⟨task, member, _, plan⟩ := booked.runningTask _ _ found
      rw [← plan]
      rintro same
      exact unknown _ (same ▸ booked.tasked task member)
    refine cleanup ?_ elsewhere
    cases completed.retryRoute <;> cases completed.reusableSession <;> exact h.congr rfl

end Marked

def NewRecord (m : TransferManager) (transferId : TransferId) : Prop :=
  m.planOfRoot transferId = none ∧ ¬ m.IsQueued transferId ∧ transferId ∉ m.running ∧
    transferId ∉ m.cancelledBeforeEnqueue

theorem recordPendingCancel_records (m : TransferManager) (transferId : TransferId) (planId : Option TransferPlanId)
    (room : transferId ∉ m.cancelledBeforeEnqueue → m.pendingCancelOrder.length < maxPendingCancels)
    (bound : m.pendingCancelOrder.length ≤ maxPendingCancels) :
    (m.recordPendingCancel transferId planId).cancelledBeforeEnqueue =
      m.cancelledBeforeEnqueue.insert transferId planId := by
  have short : ∀ order : List TransferId, order.length ≤ maxPendingCancels → ∀ records,
      dropOldestCancels order records = (order, records) := by
    intro order fits records
    cases order with
    | nil => rfl
    | cons oldest order => rw [dropOldestCancels, if_neg (Nat.not_lt.mpr fits)]
  unfold recordPendingCancel
  dsimp only
  split
  · rw [short _ bound]
  · rename_i unknown
    rw [short]
    rw [List.length_append]
    exact room unknown

theorem Marked.cancel {home : TransferPlanId → TransferId → Prop} {t : TransferId} {p : TransferPlanId}
    {m : TransferManager} {tasks : List TransferTask} (h : Marked t p m) (booked : Booked home m tasks)
    (recorded : Recorded m) (unknown : ∀ transferId, ¬ home p transferId) {transferId : TransferId}
    {planId : Option TransferPlanId} (own : transferId = t → planId = none ∨ planId = some p)
    (room : m.NewRecord transferId → m.pendingCancelOrder.length < maxPendingCancels) :
    Marked t p (m.cancel transferId planId).1 := by
  obtain ⟨plan, root, step⟩ | ⟨position, queued, get, _, step⟩ | ⟨_, step⟩ | ⟨root, notQueued, idle, step⟩ :=
    m.cancel_cases transferId planId
  · rw [step]
    apply h.cancelPlan
    rintro rfl
    exact unknown _ (booked.roots _ _ (planOfRoot_some root))
  · rw [step]
    refine Marked.cleanup (h.congr rfl) ?_
    rintro same
    exact unknown _ (same ▸ booked.queued queued (List.mem_of_getElem? get))
  · rw [step]
    exact h.congr rfl
  · rw [step]
    unfold Marked
    have none_ : ¬ ∃ queued ∈ m.pending, queued.job.id = transferId := fun ⟨queued, member, is⟩ => notQueued queued member is
    rw [m.recordPendingCancel_records transferId planId (fun new => room ⟨root, none_, idle, new⟩) recorded.bound]
    by_cases same : t = transferId
    · subst same
      exact ⟨planId, AList.lookup_insert _, own rfl⟩
    · obtain ⟨old, found, rest⟩ := h
      exact ⟨old, (AList.lookup_insert_ne same).trans found, rest⟩

end TransferManager

namespace TransferSystem

open TransferManager

variable {routed : Prop} {t : TransferId} {s : TransferSystem}

/-- Everything that was sent, and then what the manager is about to send. -/
def emitted (past : List (TransferOp × List TransferOutput)) (s : TransferSystem) : List TransferEvent :=
  sentEvents past ++ s.phase.outbox

theorem emitted_cons (s : TransferSystem) (op : TransferOp) (ops : List TransferOp) :
    emitted (machine.log s (op :: ops)) (machine.run s (op :: ops)) =
      sentEvents [(op, machine.out s op)] ++
        emitted (machine.log (machine.next s op) ops) (machine.run (machine.next s op) ops) := by
  rw [emitted, Machine.log, sentEvents_cons, List.append_assoc]
  rfl

theorem emitted_append (s : TransferSystem) (ops more : List TransferOp) :
    emitted (machine.log s (ops ++ more)) (machine.run s (ops ++ more)) =
      sentEvents (machine.log s ops) ++
        emitted (machine.log (machine.run s ops) more) (machine.run (machine.run s ops) more) := by
  rw [emitted, machine.log_append, machine.run_append, sentEvents, List.flatMap_append, List.append_assoc]
  rfl

def about (t : TransferId) (events : List TransferEvent) : List TransferEvent :=
  events.filter (fun event => event.transfer = some t)

theorem about_append (xs ys : List TransferEvent) : about t (xs ++ ys) = about t xs ++ about t ys := List.filter_append _ _

theorem about_nil {events : List TransferEvent} (others : ∀ event ∈ events, event.transfer ≠ some t) :
    about t events = [] := by
  rw [about, List.filter_eq_nil_iff]
  simpa using others

/-- The requests that could bring a job back. -/
structure Leaves (routed : Prop) (t : TransferId) (op : TransferOp) : Prop where
  retried : ∀ connected, op = .receive (.retry t connected) → ¬ routed
  others : ∀ connection planId jobs, op = .receive (.enqueue connection planId jobs) → ∀ job ∈ jobs, job.id ≠ t

theorem next_about (h : Absent routed t s.manager s.tasks) {op : TransferOp} (leaves : Leaves routed t op) :
    about t (sentEvents [(op, machine.out s op)] ++ (machine.next s op).phase.outbox) =
      about t s.phase.outbox := by
  cases op with
  | receive request =>
    show about t (sentEvents [(_, [])] ++ (s.receive request).phase.outbox) = _
    unfold receive
    split
    · rename_i ready
      rw [ready]
      apply about_nil
      refine (h.handleRequest request ?_ ?_).2
      · rintro connected rfl
        exact leaves.retried connected rfl
      · rintro connection planId jobs rfl
        exact leaves.others connection planId jobs rfl
    · rfl
  | send =>
    show about t (sentEvents [(_, s.send.2)] ++ s.send.1.phase.outbox) = _
    unfold send
    split
    · rename_i event outbox busy
      rw [busy]
      rfl
    · rfl
  | startNext =>
    show about t (sentEvents [(_, s.startNext.2)] ++ s.startNext.1.phase.outbox) = _
    unfold startNext
    split
    · rename_i busy
      rw [busy]
      split <;> rfl
    · rfl
  | report index result =>
    show about t (sentEvents [(_, (s.report index result).2)] ++ (s.report index result).1.phase.outbox) = _
    unfold report
    cases get : s.tasks[index]? with
    | none => rfl
    | some task =>
      dsimp only
      split
      · have other : about t [result.terminalEvent task.job.id] = [] := by
          apply about_nil
          intro event member
          rw [List.mem_singleton.mp member, result.terminalEvent_transfer]
          exact fun same => h.tasks task (List.mem_of_getElem? get) (Option.some.inj same)
        refine (about_append [result.terminalEvent task.job.id] s.phase.outbox).trans ?_
        rw [other, List.nil_append]
      · rfl
  | release index =>
    show about t (sentEvents [(_, [])] ++ (s.release index).phase.outbox) = _
    unfold release
    split
    · rfl
    · split <;> rfl
  | complete index =>
    show about t (sentEvents [(_, [])] ++ (s.complete index).phase.outbox) = _
    unfold complete
    split
    · rename_i ready _
      split
      · rw [ready]
        rfl
      · rfl
    · rfl
  | setPolicy index policy =>
    show about t (sentEvents [(_, [])] ++ (s.setPolicy index policy).phase.outbox) = _
    unfold setPolicy
    split
    · rfl
    · split <;> rfl

theorem next_absent (h : Absent routed t s.manager s.tasks) {op : TransferOp} (leaves : Leaves routed t op) :
    Absent routed t (machine.next s op).manager (machine.next s op).tasks := by
  cases s.next_moves op with
  | stays manager tasks =>
    rw [manager, tasks]
    exact h
  | handles request is _ manager tasks =>
    rw [manager, tasks]
    refine (h.handleRequest request ?_ ?_).1
    · rintro connected rfl
      exact leaves.retried connected is
    · rintro connection planId jobs rfl
      exact leaves.others connection planId jobs is
  | starts position queued _ get _ step =>
    rw [step]
    refine ⟨fun other member => h.pending other (List.mem_of_mem_eraseIdx member), ?_, h.routes⟩
    intro task member
    obtain old | new := List.mem_append.mp member
    · exact h.tasks task old
    · rw [List.mem_singleton.mp new]
      exact h.pending queued (List.mem_of_getElem? get)
  | restages index task stage get manager tasks =>
    rw [manager, tasks]
    refine ⟨h.pending, ?_, h.routes⟩
    intro other member
    obtain old | rfl := List.mem_or_eq_of_mem_set member
    · exact h.tasks other old
    · exact h.tasks task (List.mem_of_getElem? get)
  | completes index task result get _ manager tasks =>
    rw [manager, tasks]
    exact h.complete get result
  | decides policies manager tasks =>
    rw [manager, tasks]
    exact h.congr rfl rfl

theorem run_absent (h : Absent routed t s.manager s.tasks) (ops : List TransferOp)
    (leaves : ∀ op ∈ ops, Leaves routed t op) :
    Absent routed t (machine.run s ops).manager (machine.run s ops).tasks ∧
      about t (emitted (machine.log s ops) (machine.run s ops)) = about t s.phase.outbox ∧
      ∀ task, StartedIn (machine.log s ops) task → task.job.id ≠ t := by
  induction ops generalizing s with
  | nil => exact ⟨h, rfl, fun _ ⟨_, member, _⟩ => absurd member List.not_mem_nil⟩
  | cons op ops ih =>
    have own := leaves op List.mem_cons_self
    obtain ⟨absent, events, started⟩ := ih (next_absent h own) (fun other member => leaves other (List.mem_cons_of_mem _ member))
    refine ⟨absent, ?_, ?_⟩
    · have step := next_about h own
      rw [about_append, ← events, ← about_append] at step
      rw [← step, emitted_cons]
    · rintro task ⟨entry, member, new⟩
      obtain rfl | member := List.mem_cons.mp member
      · obtain ⟨_, position, queued, get, _, _, rfl⟩ := started_at new
        exact h.pending queued (List.mem_of_getElem? get)
      · exact started task ⟨entry, member, new⟩

/-- A cancel that adds a record finds room for it, so that no older record is dropped. -/
def RoomToRecord (s : TransferSystem) : TransferOp → Prop
  | .receive (.cancel transferId _) =>
    s.phase = .ready → s.manager.NewRecord transferId → s.manager.pendingCancelOrder.length < maxPendingCancels
  | _ => True

/-- The requests that leave the record of an early cancel alone. -/
structure Spares (t : TransferId) (p : TransferPlanId) (op : TransferOp) : Prop where
  own : ∀ planId, op = .receive (.cancel t planId) → planId = none ∨ planId = some p
  forget : op ≠ .receive (.forgetPlan p)
  cancelPlan : op ≠ .receive (.cancelPlan p)
  enqueue : ∀ connection planId jobs, op = .receive (.enqueue connection planId jobs) →
    planId ≠ p ∧ ∀ job ∈ jobs, job.id ≠ t

theorem next_marked {home : TransferPlanId → TransferId → Prop} {p : TransferPlanId} (h : Marked t p s.manager)
    (booked : Booked home s.manager s.tasks) (recorded : Recorded s.manager) (unknown : ∀ transferId, ¬ home p transferId)
    (fresh : ∀ planId, ¬ home planId t) {op : TransferOp} (room : RoomToRecord s op) (spares : Spares t p op) :
    Marked t p (machine.next s op).manager := by
  cases s.next_moves op with
  | stays manager _ | restages _ _ _ _ manager _ =>
    rw [manager]
    exact h
  | handles request is ready manager _ =>
    rw [manager]
    subst is
    cases request with
    | enqueue connection planId jobs =>
      obtain ⟨other, others⟩ := spares.enqueue connection planId jobs rfl
      exact h.enqueue connection other true others
    | cancel transferId planId =>
      refine h.cancel booked recorded unknown ?_ (room ready)
      rintro rfl
      exact spares.own planId rfl
    | cancelPlan planId =>
      apply h.cancelPlan
      rintro rfl
      exact spares.cancelPlan rfl
    | forgetPlan planId =>
      apply h.forget
      rintro rfl
      exact spares.forget rfl
    | retry transferId connected => exact h.retry booked unknown fresh transferId connected
  | starts position queued _ _ _ step =>
    rw [step]
    exact h.congr rfl
  | completes index task result _ _ manager _ =>
    rw [manager]
    exact h.complete booked unknown _
  | decides policies manager _ =>
    rw [manager]
    exact h.congr rfl

theorem run_marked {p : TransferPlanId} {before : List TransferOp} (h : Marked t p (machine.run {} before).manager)
    (between : List TransferOp) (fresh : FreshJobs (before ++ between))
    (room : machine.Admissible RoomToRecord {} (before ++ between))
    (others : ∀ connection planId jobs, .receive (.enqueue connection planId jobs) ∈ before ++ between →
      planId ≠ p ∧ ∀ job ∈ jobs, job.id ≠ t)
    (spares : ∀ op ∈ between, Spares t p op) : Marked t p (machine.run {} (before ++ between)).manager := by
  induction between using List.reverseRecOn with
  | nil => rwa [List.append_nil]
  | append_singleton between op ih =>
    rw [← List.append_assoc] at fresh room others ⊢
    obtain ⟨earlier, ⟨here, _⟩⟩ := (machine.admissible_append {} _ _).mp room
    have known : ∀ connection planId jobs, .receive (.enqueue connection planId jobs) ∈ before ++ between → _ :=
      fun connection planId jobs member => others connection planId jobs (List.mem_append_left _ member)
    have marked := ih fresh.of_concat earlier known (fun other member => spares other (List.mem_append_left _ member))
    rw [machine.run_concat]
    refine next_marked marked (reachable_booked _ fresh.of_concat) (reachable_recorded _) ?_ ?_ here
      (spares op (List.mem_append_right _ (List.mem_singleton_self _)))
    · intro transferId enqueued
      obtain ⟨connection, jobs, member, _⟩ := enqueued.mem
      exact (known connection p jobs member).1 rfl
    · intro planId enqueued
      obtain ⟨connection, jobs, member, job, inside, is⟩ := enqueued.mem
      exact (known connection planId jobs member).2 job inside is

theorem run_sends {event : TransferEvent} (phase : s.phase = .busy [event]) (ops : List TransferOp) :
    event ∈ emitted (machine.log s ops) (machine.run s ops) := by
  induction ops generalizing s with
  | nil =>
    rw [emitted, machine.run_nil, phase]
    exact List.mem_append_right _ (List.mem_singleton_self _)
  | cons op ops ih =>
    obtain sent | later := s.next_outbox phase op
    · refine List.mem_append_left _ (List.mem_flatMap.mpr ⟨_, List.mem_cons_self, ?_⟩)
      exact List.mem_filterMap.mpr ⟨.sent event, sent, rfl⟩
    · rw [emitted_cons]
      exact List.mem_append_right _ (ih later)

theorem about_skipped {ids : List TransferId} (nodup : ids.Nodup) (member : t ∈ ids) :
    about t (ids.map .skipped) = [.skipped t] := by
  have only : ids.filter (fun transferId => transferId = t) = [t] := by
    rw [List.filter_eq, List.count_eq_one_of_mem nodup member]
    rfl
  unfold about
  rw [List.filter_map]
  have same : ids.filter ((fun event : TransferEvent => decide (event.transfer = some t)) ∘ TransferEvent.skipped) =
      ids.filter (fun transferId => transferId = t) := by
    apply List.filter_congr
    intro transferId _
    simp [TransferEvent.transfer]
  rw [same, only]
  rfl

theorem enqueue_cancelled {m : TransferManager} (connection : ConnectionId) (planId : TransferPlanId)
    {jobs : List TransferJob} (cancelled : m.rootCancelled jobs = true) :
    m.enqueue connection planId jobs true = (m.forgetCancellationsForPlan planId, [.planCancelled planId]) := by
  unfold enqueue
  simp [cancelled]

theorem enqueue_skips {m : TransferManager} (connection : ConnectionId) (planId : TransferPlanId)
    {jobs : List TransferJob} (distinct : (jobs.map (fun job => job.id)).Nodup) (admitted : m.rootCancelled jobs = false)
    (marked : t ∈ m.cancelledBeforeEnqueue) (inside : ∃ job ∈ jobs, job.id = t) (new : ∀ queued ∈ m.pending, queued.job.id ≠ t) :
    (∀ queued ∈ (m.enqueue connection planId jobs true).1.pending, queued.job.id ≠ t) ∧
      about t (m.enqueue connection planId jobs true).2 = [.skipped t] := by
  obtain ⟨pending, events⟩ := enqueue_spec connection planId distinct admitted
  rw [pending, events]
  constructor
  · intro queued member same
    obtain old | ⟨job, kept, rfl⟩ := (List.mem_append.mp member).imp_right List.mem_map.mp
    · exact new queued old same
    · have free := (List.mem_filter.mp kept).2
      rw [show job.id = t from same] at free
      exact absurd marked (by simpa using free)
  · have ids : (jobs.filter (fun job => job.id ∈ m.cancelledBeforeEnqueue)).map (fun job => TransferEvent.skipped job.id) =
        ((jobs.filter (fun job => job.id ∈ m.cancelledBeforeEnqueue)).map (fun job => job.id)).map .skipped := by
      rw [List.map_map]
      rfl
    rw [ids]
    apply about_skipped
    · exact distinct.sublist (List.filter_sublist.map _)
    · obtain ⟨job, inside, rfl⟩ := inside
      exact List.mem_map.mpr ⟨job, List.mem_filter.mpr ⟨inside, by simpa using marked⟩, rfl⟩

def eventsOf (ops : List TransferOp) : List TransferEvent := emitted (machine.log {} ops) (machine.run {} ops)

def Starts (ops : List TransferOp) (t : TransferId) : Prop :=
  ∃ task, StartedIn (machine.log {} ops) task ∧ task.job.id = t

/-- What happens up to the enqueue of a job that was cancelled early. -/
abbrev upToEnqueue (t : TransferId) (reported : Option TransferPlanId) (before between : List TransferOp) :
    List TransferOp :=
  before ++ .receive (.cancel t reported) :: between

abbrev throughEnqueue (t : TransferId) (reported : Option TransferPlanId) (connection : ConnectionId)
    (planId : TransferPlanId) (jobs : List TransferJob) (before between after : List TransferOp) : List TransferOp :=
  upToEnqueue t reported before between ++ .receive (.enqueue connection planId jobs) :: after

/-- A run in which a cancel of the job `t` is handled before the enqueue that brings `t` as one of the plan's later
jobs, and nothing in between withdraws it. -/
structure CancelledEarly (t : TransferId) (reported : Option TransferPlanId) (connection : ConnectionId)
    (planId : TransferPlanId) (jobs : List TransferJob) (before between after : List TransferOp) : Prop where
  fresh : FreshEnqueues (throughEnqueue t reported connection planId jobs before between after)
  room : machine.Admissible RoomToRecord {} (throughEnqueue t reported connection planId jobs before between after)
  cancelHandled : (machine.run {} before).phase = .ready
  enqueueHandled : (machine.run {} (upToEnqueue t reported before between)).phase = .ready
  child : ∃ job ∈ jobs.tail, job.id = t
  own : ∀ named, .receive (.cancel t named) ∈ .receive (.cancel t reported) :: between → named = none ∨ named = some planId
  notForgotten : .receive (.forgetPlan planId) ∉ between
  notCancelled : .receive (.cancelPlan planId) ∉ between

namespace CancelledEarly

variable {reported : Option TransferPlanId} {connection : ConnectionId} {planId : TransferPlanId}
  {jobs : List TransferJob} {before between after : List TransferOp}

theorem distinct (h : CancelledEarly t reported connection planId jobs before between after) :
    (jobs.map (fun job => job.id)).Nodup := by
  have fresh : FreshJobs (upToEnqueue t reported before between ++
      [.receive (.enqueue connection planId jobs)] ++ after) := by
    rw [List.append_assoc]
    exact h.fresh.jobs
  exact fresh.of_append.jobs_nodup

theorem elsewhere (h : CancelledEarly t reported connection planId jobs before between after) (connection' : ConnectionId)
    (planId' : TransferPlanId) (jobs' : List TransferJob)
    (other : .receive (.enqueue connection' planId' jobs') ∈ upToEnqueue t reported before between) :
    planId' ≠ planId ∧ ∀ job' ∈ jobs', job'.id ≠ t := by
  obtain ⟨job, inside, rfl⟩ := h.child
  exact ⟨h.fresh.plan_apart other,
    fun job' inside' => h.fresh.jobs.apart (Or.inl other) (List.mem_of_mem_tail inside) inside'⟩

theorem cancel_marks (h : CancelledEarly t reported connection planId jobs before between after) :
    Marked t planId (machine.run {} (before ++ [.receive (.cancel t reported)])).manager := by
  have early : FreshJobs before := h.fresh.jobs.of_append.of_append
  have booked := reachable_booked before early
  have unknown : ∀ planId', ¬ EnqueuedFor before planId' t := by
    intro planId' enqueued
    obtain ⟨connection', jobs', member, job', inside, is⟩ := enqueued.mem
    exact (h.elsewhere _ _ _ (List.mem_append_left _ member)).2 job' inside is
  obtain ⟨room, _⟩ := (machine.admissible_append {} _ _).mp h.room
  obtain ⟨_, ⟨room, _⟩⟩ := (machine.admissible_append {} _ _).mp room
  have handled : (machine.next (machine.run {} before) (.receive (.cancel t reported))).manager =
      ((machine.run {} before).manager.cancel t reported).1 := by
    show ((machine.run {} before).receive _).manager = _
    unfold receive
    rw [h.cancelHandled]
    rfl
  rw [machine.run_concat, handled]
  obtain ⟨plan, root, _⟩ | ⟨position, queued, get, is, _⟩ | ⟨running, _⟩ | ⟨root, notQueued, idle, step⟩ :=
    (machine.run {} before).manager.cancel_cases t reported
  · exact absurd (booked.roots _ _ (planOfRoot_some root)) (unknown _)
  · exact absurd (is ▸ booked.queued queued (List.mem_of_getElem? get)) (unknown _)
  · obtain ⟨transfer, found⟩ := Table.mem_iff_lookup.mp running
    obtain ⟨task, member, is, _⟩ := booked.runningTask _ _ found
    exact absurd (is ▸ booked.tasked task member) (unknown _)
  · rw [step]
    have new := fun absent => room h.cancelHandled ⟨root, fun ⟨queued, member, is⟩ => notQueued queued member is, idle, absent⟩
    refine ⟨reported, ?_, h.own reported List.mem_cons_self⟩
    rw [recordPendingCancel_records _ t reported new (reachable_recorded before).bound, AList.lookup_insert]

theorem marked (h : CancelledEarly t reported connection planId jobs before between after) :
    Marked t planId (machine.run {} (upToEnqueue t reported before between)).manager := by
  have split_ : upToEnqueue t reported before between = before ++ [.receive (.cancel t reported)] ++ between := by
    rw [List.append_assoc]
    rfl
  have fresh := h.fresh.jobs.of_append
  obtain ⟨room, _⟩ := (machine.admissible_append {} _ _).mp h.room
  have others := h.elsewhere
  rw [split_] at fresh room others ⊢
  apply run_marked h.cancel_marks between fresh room others
  intro op member
  refine ⟨?_, ?_, ?_, ?_⟩
  · rintro named rfl
    exact h.own named (List.mem_cons_of_mem _ member)
  · rintro rfl
    exact h.notForgotten member
  · rintro rfl
    exact h.notCancelled member
  · rintro connection' planId' jobs' rfl
    exact others connection' planId' jobs' (List.mem_append_right _ member)

theorem leaves (h : CancelledEarly t reported connection planId jobs before between after) {job : TransferJob}
    (inside : job ∈ jobs) {op : TransferOp} (other : op ∈ upToEnqueue t reported before between ∨ op ∈ after) :
    Leaves False job.id op := by
  refine ⟨fun _ _ => not_false, ?_⟩
  rintro connection' planId' jobs' rfl job' inside'
  exact h.fresh.jobs.apart other inside inside'

theorem absent_at_enqueue (h : CancelledEarly t reported connection planId jobs before between after) {job : TransferJob}
    (inside : job ∈ jobs) :
    Absent False job.id (machine.run {} (upToEnqueue t reported before between)).manager
        (machine.run {} (upToEnqueue t reported before between)).tasks ∧
      about job.id (sentEvents (machine.log {} (upToEnqueue t reported before between))) = [] ∧
      ∀ task, StartedIn (machine.log {} (upToEnqueue t reported before between)) task → task.job.id ≠ job.id := by
  have start : Absent False job.id ({} : TransferSystem).manager ({} : TransferSystem).tasks :=
    ⟨by simp, by simp, fun _ _ found => by cases found⟩
  obtain ⟨absent, silent, unstarted⟩ := run_absent start (upToEnqueue t reported before between)
    (fun op member => h.leaves inside (Or.inl member))
  refine ⟨absent, ?_, unstarted⟩
  rw [emitted, about_append] at silent
  exact (List.append_eq_nil_iff.mp silent).1

theorem unqueued (h : CancelledEarly t reported connection planId jobs before between after) {job : TransferJob}
    (inside : job ∈ jobs) {handled : TransferManager × List TransferEvent}
    (enqueue : (machine.run {} (upToEnqueue t reported before between)).manager.enqueue connection planId jobs true = handled)
    (dropped : ∀ queued ∈ handled.1.pending, queued.job.id ≠ job.id) :
    about job.id (eventsOf (throughEnqueue t reported connection planId jobs before between after)) =
      about job.id handled.2 ∧
    ¬ Starts (throughEnqueue t reported connection planId jobs before between after) job.id := by
  obtain ⟨absent, silent, unstarted⟩ := h.absent_at_enqueue inside
  have handles : machine.step (machine.run {} (upToEnqueue t reported before between))
      (.receive (.enqueue connection planId jobs)) =
        ({ machine.run {} (upToEnqueue t reported before between) with manager := handled.1, phase := .busy handled.2 }, []) := by
    show ((machine.run {} (upToEnqueue t reported before between)).receive _, []) = _
    rw [← enqueue]
    unfold receive
    rw [h.enqueueHandled]
    rfl
  have still : Absent False job.id handled.1 (machine.run {} (upToEnqueue t reported before between)).tasks := by
    refine ⟨dropped, absent.tasks, ?_⟩
    rw [← enqueue, enqueue_routes]
    exact absent.routes
  obtain ⟨_, told, late⟩ := run_absent
    (s := { machine.run {} (upToEnqueue t reported before between) with manager := handled.1, phase := .busy handled.2 })
    still after (fun op member => h.leaves inside (Or.inr member))
  constructor
  · rw [eventsOf, emitted_append, emitted_cons, Machine.out, Machine.next, handles, about_append, about_append, silent, told]
    rfl
  · rintro ⟨task, ⟨entry, member, new⟩, is⟩
    rw [machine.log_append, Machine.log, Machine.out, Machine.next, handles] at member
    obtain early | rest := List.mem_append.mp member
    · exact unstarted task ⟨entry, early, new⟩ is
    · obtain rfl | rest := List.mem_cons.mp rest
      · cases new
      · exact late task ⟨entry, rest, new⟩ is

theorem plan_cancelled (h : CancelledEarly t reported connection planId jobs before between after)
    (cancelled : (machine.run {} (upToEnqueue t reported before between)).manager.rootCancelled jobs = true) :
    .planCancelled planId ∈
      eventsOf (throughEnqueue t reported connection planId jobs before between after) := by
  rw [eventsOf, emitted_append, emitted_cons]
  refine List.mem_append_right _ (List.mem_append_right _ (run_sends ?_ after))
  show ((machine.run {} (upToEnqueue t reported before between)).receive _).phase = _
  unfold receive
  rw [h.enqueueHandled]
  show ManagerPhase.busy
    ((machine.run {} (upToEnqueue t reported before between)).manager.enqueue connection planId jobs true).2 = _
  rw [enqueue_cancelled connection planId cancelled]

end CancelledEarly

theorem early_cancel_skips_once (t : TransferId) :
    (∀ reported connection planId jobs before between after,
      CancelledEarly t reported connection planId jobs before between after →
        ¬ Starts (throughEnqueue t reported connection planId jobs before between after) t ∧
        ((machine.run {} (upToEnqueue t reported before between)).manager.rootCancelled jobs = false →
          about t (eventsOf (throughEnqueue t reported connection planId jobs before between after)) = [.skipped t]) ∧
        ((machine.run {} (upToEnqueue t reported before between)).manager.rootCancelled jobs = true →
          .planCancelled planId ∈
            eventsOf (throughEnqueue t reported connection planId jobs before between after) ∧
          ∀ job ∈ jobs,
            about job.id (eventsOf (throughEnqueue t reported connection planId jobs before between after)) = [] ∧
            ¬ Starts (throughEnqueue t reported connection planId jobs before between after) job.id)) ∧
    ∀ reported planId before after, FreshJobs (before ++ .receive (.cancel t reported) :: after) →
      (machine.run {} before).phase = .ready → EnqueuedFor before planId t →
      ¬ (machine.run {} before).manager.IsQueued t → t ∉ (machine.run {} before).manager.running →
      (∀ connected, .receive (.retry t connected) ∉ after) →
        about t (emitted (machine.log (machine.run {} before) (.receive (.cancel t reported) :: after))
          (machine.run (machine.run {} before) (.receive (.cancel t reported) :: after))) = [] := by
  constructor
  · intro reported connection planId jobs before between after h
    obtain ⟨child, inTail, rfl⟩ := h.child
    have inside := List.mem_of_mem_tail inTail
    cases cancelled : (machine.run {} (upToEnqueue child.id reported before between)).manager.rootCancelled jobs with
    | false =>
      obtain ⟨dropped, told⟩ := enqueue_skips connection planId h.distinct cancelled h.marked.mem ⟨child, inside, rfl⟩
        (h.absent_at_enqueue inside).1.pending
      obtain ⟨once, unstarted⟩ := h.unqueued inside rfl dropped
      exact ⟨unstarted, fun _ => once.trans told, by simp⟩
    | true =>
      have unqueued := fun (job : TransferJob) (member : job ∈ jobs) => h.unqueued member
        (enqueue_cancelled connection planId cancelled) (h.absent_at_enqueue member).1.pending
      refine ⟨(unqueued child inside).2, by simp, fun _ => ⟨h.plan_cancelled cancelled, ?_⟩⟩
      intro job member
      exact unqueued job member
  · intro reported planId before after fresh ready enqueued notQueued idle notRetried
    have booked := reachable_booked before fresh.of_append
    have absent : Absent True t (machine.run {} before).manager (machine.run {} before).tasks := by
      refine ⟨fun queued member is => notQueued ⟨queued, member, is⟩, ?_, ?_⟩
      · rintro task member rfl
        obtain ⟨running, found, _⟩ := booked.taskRunning task member
        exact idle (Table.mem_iff_lookup.mpr ⟨running, found⟩)
      · intro transferId route found
        by_cases same : transferId = t
        · exact Or.inl ⟨same, trivial⟩
        · exact Or.inr ⟨same, (booked.routed transferId route found).1 ▸ same⟩
    obtain ⟨connection, jobs, member, job, inside, rfl⟩ := enqueued.mem
    obtain ⟨earlier, later, rfl⟩ := List.append_of_mem member
    refine (run_absent absent (.receive (.cancel job.id reported) :: after) ?_).2.1.trans (by rw [ready]; rfl)
    intro op there
    refine ⟨?_, ?_⟩
    · rintro connected rfl
      obtain same | there := List.mem_cons.mp there
      · cases same
      · exact absurd there (notRetried connected)
    · rintro connection' planId' jobs' rfl job' inside'
      rw [List.append_assoc] at fresh
      exact fresh.apart (Or.inr (List.mem_append_right _ there)) inside inside'

instance (m : TransferManager) (transferId : TransferId) : Decidable (m.IsQueued transferId) :=
  inferInstanceAs (Decidable (∃ queued ∈ m.pending, queued.job.id = transferId))

instance (m : TransferManager) (transferId : TransferId) : Decidable (m.NewRecord transferId) :=
  inferInstanceAs (Decidable (_ ∧ _))

instance (s : TransferSystem) : (op : TransferOp) → Decidable (RoomToRecord s op)
  | .receive (.cancel transferId _) => inferInstanceAs (Decidable (s.phase = .ready → s.manager.NewRecord transferId → _))
  | .receive (.enqueue ..) | .receive (.cancelPlan _) | .receive (.forgetPlan _) | .receive (.retry ..) => isTrue trivial
  | .send | .startNext | .report .. | .release _ | .complete _ | .setPolicy .. => isTrue trivial

theorem cancelledEarly_uploads (before : List TransferOp) (first : before = [] ∨ before = cancelBeforeEnqueue 0) :
    CancelledEarly ⟨1⟩ (some ⟨1⟩) ⟨1⟩ ⟨1⟩ ((List.range 9).map TransferStore.sampleJob) before [.startNext]
      [.send, .startNext] := by
  obtain rfl | rfl := first
  · exact ⟨by decide, by decide +kernel, by decide, by decide +kernel, by decide, by simp, by decide, by decide⟩
  · exact ⟨by decide, by decide +kernel, by decide, by decide +kernel, by decide, by simp, by decide, by decide⟩

def finishedUpload : List TransferOp :=
  [.receive (.enqueue ⟨1⟩ ⟨1⟩ [TransferStore.sampleJob 1]), .startNext, .startNext, .report 0 .finished, .release 0, .complete 0,
    .startNext]

theorem early_cancel_skips_once_uploads :
    about ⟨1⟩ (eventsOf (throughEnqueue ⟨1⟩ (some ⟨1⟩) ⟨1⟩ ⟨1⟩ ((List.range 9).map TransferStore.sampleJob) [] [.startNext]
      [.send, .startNext])) = [.skipped ⟨1⟩] ∧
    about ⟨1⟩ (emitted (machine.log (machine.run {} finishedUpload) [.receive (.cancel ⟨1⟩ (some ⟨1⟩)), .startNext])
      (machine.run (machine.run {} finishedUpload) [.receive (.cancel ⟨1⟩ (some ⟨1⟩)), .startNext])) = [] := by
  constructor
  · refine ((early_cancel_skips_once ⟨1⟩).1 (some ⟨1⟩) ⟨1⟩ ⟨1⟩ ((List.range 9).map TransferStore.sampleJob) [] [.startNext]
      [.send, .startNext] (cancelledEarly_uploads [] (Or.inl rfl))).2.1 (by decide +kernel)
  · refine (early_cancel_skips_once ⟨1⟩).2 (some ⟨1⟩) ⟨1⟩ finishedUpload [.startNext] (by decide) (by decide)
      ⟨[⟨1⟩], by decide, by decide⟩ (by decide) (by decide) ?_
    intro connected
    simp

theorem early_cancel_of_first_hides_skip :
    CancelledEarly ⟨1⟩ (some ⟨1⟩) ⟨1⟩ ⟨1⟩ ((List.range 9).map TransferStore.sampleJob) (cancelBeforeEnqueue 0) [.startNext]
        [.send, .startNext] ∧
      eventsOf (throughEnqueue ⟨1⟩ (some ⟨1⟩) ⟨1⟩ ⟨1⟩ ((List.range 9).map TransferStore.sampleJob) (cancelBeforeEnqueue 0)
        [.startNext] [.send, .startNext]) = [.planCancelled ⟨1⟩] :=
  ⟨cancelledEarly_uploads _ (Or.inr rfl), by decide +kernel⟩

end TransferSystem

end MacSftp
