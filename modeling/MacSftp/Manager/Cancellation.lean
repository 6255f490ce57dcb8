import MacSftp.Manager.Roots

namespace MacSftp

open Lib

namespace TransferManager

/-- The order lists exactly the recorded cancellations, each once and not too many. -/
structure Recorded (m : TransferManager) : Prop where
  nodup : m.pendingCancelOrder.Nodup
  lists : ∀ transferId, transferId ∈ m.pendingCancelOrder ↔ transferId ∈ m.cancelledBeforeEnqueue
  bound : m.pendingCancelOrder.length ≤ maxPendingCancels

theorem dropOldestCancels_spec (order : List TransferId) (records : Table TransferId (Option TransferPlanId))
    (nodup : order.Nodup) (lists : ∀ transferId, transferId ∈ order ↔ transferId ∈ records) :
    (dropOldestCancels order records).1.Nodup ∧
      (∀ transferId, transferId ∈ (dropOldestCancels order records).1 ↔
        transferId ∈ (dropOldestCancels order records).2) ∧
      (dropOldestCancels order records).1.length ≤ maxPendingCancels ∧
      ∀ last, order.getLast? = some last → last ∈ (dropOldestCancels order records).1 := by
  induction order generalizing records with
  | nil => exact ⟨nodup, lists, Nat.zero_le _, by simp⟩
  | cons oldest order ih =>
    obtain ⟨first, rest⟩ := List.nodup_cons.mp nodup
    unfold dropOldestCancels
    split
    · rename_i long
      have lists' : ∀ transferId, transferId ∈ order ↔ transferId ∈ records.erase oldest := by
        intro transferId
        rw [AList.mem_erase, ← lists, List.mem_cons]
        constructor
        · intro member
          exact ⟨fun same => first (same ▸ member), Or.inr member⟩
        · rintro ⟨differ, same | member⟩
          · exact absurd same differ
          · exact member
      obtain ⟨nodup', same, short, last⟩ := ih (records.erase oldest) rest lists'
      refine ⟨nodup', same, short, ?_⟩
      intro transferId is
      apply last
      cases order with
      | nil =>
        simp only [List.length_singleton] at long
        exact absurd long (by decide)
      | cons next order => rwa [List.getLast?_cons_cons] at is
    · rename_i short
      exact ⟨nodup, lists, Nat.le_of_not_lt short, fun last is => List.mem_of_getLast? is⟩

namespace Recorded

variable {m m' : TransferManager}

theorem congr (h : Recorded m) (records : m'.cancelledBeforeEnqueue = m.cancelledBeforeEnqueue)
    (order : m'.pendingCancelOrder = m.pendingCancelOrder) : Recorded m' := by
  refine ⟨order ▸ h.nodup, ?_, order ▸ h.bound⟩
  rw [records, order]
  exact h.lists

theorem forget (h : Recorded m) (planId : TransferPlanId) : Recorded (m.forgetCancellationsForPlan planId) where
  nodup := h.nodup.filter _
  lists transferId := by
    simp only [forgetCancellationsForPlan, List.mem_filter, decide_eq_true_eq, h.lists]
    refine ⟨And.right, fun kept => ⟨?_, kept⟩⟩
    obtain ⟨recorded, found, _⟩ := Table.mem_retain.mp kept
    exact Table.mem_iff_lookup.mpr ⟨recorded, found⟩
  bound := (List.length_filter_le _ _).trans h.bound

theorem take (h : Recorded m) (transferId : TransferId) : Recorded (m.takePendingCancel transferId).1 := by
  unfold takePendingCancel
  split
  · refine ⟨h.nodup.filter _, ?_, (List.length_filter_le _ _).trans h.bound⟩
    intro other
    simp only [List.mem_filter, decide_eq_true_eq, AList.mem_erase, h.lists, ne_eq, and_comm]
  · exact h

theorem record (h : Recorded m) (transferId : TransferId) (planId : Option TransferPlanId) :
    Recorded (m.recordPendingCancel transferId planId) ∧
      transferId ∈ (m.recordPendingCancel transferId planId).cancelledBeforeEnqueue := by
  by_cases known : transferId ∈ m.cancelledBeforeEnqueue
  · have lists : ∀ other, other ∈ m.pendingCancelOrder ↔ other ∈ m.cancelledBeforeEnqueue.insert transferId planId := by
      intro other
      rw [AList.mem_insert, h.lists]
      refine ⟨Or.inr, ?_⟩
      rintro (rfl | member)
      · exact known
      · exact member
    have kept : dropOldestCancels m.pendingCancelOrder (m.cancelledBeforeEnqueue.insert transferId planId) =
        (m.pendingCancelOrder, m.cancelledBeforeEnqueue.insert transferId planId) := by
      have bound := h.bound
      cases order : m.pendingCancelOrder with
      | nil => rfl
      | cons oldest rest =>
        rw [order] at bound
        rw [dropOldestCancels, if_neg (Nat.not_lt.mpr bound)]
    simp only [recordPendingCancel, known, if_true, kept]
    exact ⟨⟨h.nodup, lists, h.bound⟩, (AList.mem_insert _).mpr (Or.inl rfl)⟩
  · have absent : transferId ∉ m.pendingCancelOrder := fun member => known ((h.lists _).mp member)
    have nodup : (m.pendingCancelOrder ++ [transferId]).Nodup := by
      rw [List.nodup_append_comm]
      exact List.nodup_cons.mpr ⟨absent, h.nodup⟩
    have lists : ∀ other, other ∈ m.pendingCancelOrder ++ [transferId] ↔
        other ∈ m.cancelledBeforeEnqueue.insert transferId planId := by
      intro other
      rw [AList.mem_insert, List.mem_append, List.mem_singleton, h.lists, or_comm]
    obtain ⟨nodup', same, short, last⟩ := dropOldestCancels_spec _ _ nodup lists
    simp only [recordPendingCancel, known, if_false]
    exact ⟨⟨nodup', same, short⟩, (same _).mp (last transferId (by simp))⟩

theorem cleanup (h : Recorded m) (planId : TransferPlanId) : Recorded (m.cleanupPlanIfIdle planId) := by
  unfold cleanupPlanIfIdle
  split
  · exact (h.forget planId).congr rfl rfl
  · exact h

theorem cancelPlan (h : Recorded m) (planId : TransferPlanId) : Recorded (m.cancelPlan planId).1 := by
  unfold TransferManager.cancelPlan
  dsimp only
  split
  · exact (h.forget planId).congr rfl rfl
  · apply cleanup
    exact (h.forget planId).congr rfl rfl

theorem queueJobs (h : Recorded m) (connection : ConnectionId) (planId : TransferPlanId) (jobs : List TransferJob) :
    Recorded (TransferManager.queueJobs connection planId m jobs).1 := by
  induction jobs generalizing m with
  | nil => exact h
  | cons job jobs ih =>
    have taken := h.take job.id
    unfold TransferManager.queueJobs
    split
    · rename_i m' eq
      rw [eq] at taken
      exact ih taken
    · rename_i m' eq
      rw [eq] at taken
      exact ih (taken.congr rfl rfl)

theorem enqueue (h : Recorded m) (connection : ConnectionId) (planId : TransferPlanId) (jobs : List TransferJob)
    (recordRoot : Bool) : Recorded (m.enqueue connection planId jobs recordRoot).1 := by
  have adopted : Recorded (m.adopt planId jobs recordRoot) := by
    rw [adopt_frame]
    exact h.congr rfl rfl
  have queued := (adopted.queueJobs connection planId jobs).forget planId
  unfold TransferManager.enqueue
  split
  · exact h.forget planId
  · dsimp only
    split
    · exact queued.cleanup planId
    · exact queued

theorem cancel (h : Recorded m) (transferId : TransferId) (planId : Option TransferPlanId) :
    Recorded (m.cancel transferId planId).1 := by
  obtain ⟨plan, _, step⟩ | ⟨position, queued, _, _, step⟩ | ⟨_, step⟩ | ⟨_, _, _, step⟩ :=
    m.cancel_cases transferId planId
  · rw [step]
    exact h.cancelPlan plan
  · rw [step]
    apply cleanup
    exact h.congr rfl rfl
  · rw [step]
    exact h.congr rfl rfl
  · rw [step]
    exact (h.record transferId planId).1

theorem retry (h : Recorded m) (transferId : TransferId) (connected : Option ConnectionId) :
    Recorded (m.retry transferId connected).1 := by
  have taken : Recorded ({ m with retryRoutes := m.retryRoutes.erase transferId }.takePendingCancel transferId).1 := by
    apply take
    exact h.congr rfl rfl
  unfold TransferManager.retry
  cases m.retryRoutes.lookup transferId with
  | none => exact h
  | some route =>
    cases connected with
    | none => exact taken.congr rfl rfl
    | some connection => exact taken.enqueue connection route.planId [route.job] false

theorem handleRequest (h : Recorded m) (request : TransferManagerRequest) : Recorded (m.handleRequest request).1 := by
  cases request with
  | enqueue connection planId jobs => exact h.enqueue connection planId jobs true
  | cancel transferId planId => exact h.cancel transferId planId
  | cancelPlan planId => exact h.cancelPlan planId
  | forgetPlan planId => exact h.forget planId
  | retry transferId connected => exact h.retry transferId connected

theorem complete (h : Recorded m) (completed : CompletedTransfer) : Recorded (m.handleCompleted completed) := by
  unfold handleCompleted
  cases m.running.lookup completed.transferId with
  | none => cases completed.retryRoute <;> exact h.congr rfl rfl
  | some running =>
    apply cleanup
    cases completed.retryRoute <;> cases completed.reusableSession <;> exact h.congr rfl rfl

end Recorded

def IsQueued (m : TransferManager) (transferId : TransferId) : Prop := ∃ queued ∈ m.pending, queued.job.id = transferId

/-- From `m` to `m'` one job was cancelled and every other job was left alone. -/
structure CancelsOnly (m m' : TransferManager) (transferId : TransferId) : Prop where
  stopped : m.IsQueued transferId ∧ ¬ m'.IsQueued transferId ∨
    (m'.running.lookup transferId).map (fun running => running.cancel) = some true ∨
    transferId ∈ m'.cancelledBeforeEnqueue
  queued : ∀ queued ∈ m.pending, queued.job.id ≠ transferId → queued ∈ m'.pending
  running : ∀ other, other ≠ transferId → m'.running.lookup other = m.running.lookup other

/-- No other job of the plan is left to cancel, and the job itself can be found. -/
def SoleJob (m : TransferManager) (planId : TransferPlanId) (transferId : TransferId) : Prop :=
  (∀ queued ∈ m.pending, queued.planId = planId → queued.job.id = transferId) ∧
  (∀ other running, m.running.lookup other = some running → running.planId = planId →
    other = transferId ∨ running.cancel = true) ∧
  (m.IsQueued transferId ∨ transferId ∈ m.running ∨
    ∃ recorded, m.cancelledBeforeEnqueue.lookup transferId = some recorded ∧ recorded ≠ some planId)

theorem cancelPlan_running (m : TransferManager) (planId : TransferPlanId) :
    (m.cancelPlan planId).1.running = cancelTokens planId m.running := by
  unfold cancelPlan
  dsimp only
  split
  · rfl
  · rw [cleanupPlanIfIdle_frame]
    rfl

theorem mem_forget {m : TransferManager} {planId : TransferPlanId} {transferId : TransferId} :
    transferId ∈ (m.forgetCancellationsForPlan planId).cancelledBeforeEnqueue ↔
      ∃ recorded, m.cancelledBeforeEnqueue.lookup transferId = some recorded ∧ recorded ≠ some planId := by
  simp only [forgetCancellationsForPlan, Table.mem_retain, decide_eq_true_eq]

theorem cancelPlan_records (m : TransferManager) (planId : TransferPlanId) (transferId : TransferId) :
    transferId ∈ (m.cancelPlan planId).1.cancelledBeforeEnqueue ↔
      ∃ recorded, m.cancelledBeforeEnqueue.lookup transferId = some recorded ∧ recorded ≠ some planId := by
  unfold cancelPlan
  dsimp only
  split
  · exact mem_forget
  · unfold cleanupPlanIfIdle
    split
    · refine mem_forget.trans ?_
      show (∃ recorded, (m.forgetCancellationsForPlan planId).cancelledBeforeEnqueue.lookup transferId = some recorded ∧
        recorded ≠ some planId) ↔ _
      simp only [forgetCancellationsForPlan, Table.lookup_retain, Option.filter_eq_some_iff, decide_eq_true_eq, and_assoc,
        and_self]
    · exact mem_forget

theorem cancelTokens_lookup (running : Table TransferId RunningTransfer) (planId : TransferPlanId)
    (transferId : TransferId) : (cancelTokens planId running).lookup transferId = (running.lookup transferId).map
      (fun transfer => if transfer.planId = planId then { transfer with cancel := true } else transfer) :=
  Table.lookup_mapValues _ _ _

variable {m : TransferManager} {home : TransferPlanId → TransferId → Prop} {tasks : List TransferTask}

theorem planOfRoot_some {planId : TransferPlanId} {transferId : TransferId} (h : m.planOfRoot transferId = some planId) :
    m.planRootJobs.lookup planId = some transferId := by
  obtain ⟨entry, found, rfl⟩ := Option.map_eq_some_iff.mp h
  have is : entry.2 = transferId := by simpa using List.find?_some found
  subst is
  exact Table.mem_entries_iff.mp (List.mem_of_find?_eq_some found)

theorem cancelsOnly_of_not_root (h : Booked home m tasks) (recorded : Recorded m) {transferId : TransferId}
    (notRoot : m.planOfRoot transferId = none) (planId : Option TransferPlanId) :
    CancelsOnly m (m.cancel transferId planId).1 transferId := by
  obtain ⟨plan, root, _⟩ | ⟨position, queued, get, is, step⟩ | ⟨running, step⟩ | ⟨_, _, _, step⟩ :=
    m.cancel_cases transferId planId
  · rw [notRoot] at root
    cases root
  · rw [step, cleanupPlanIfIdle_frame]
    refine ⟨Or.inl ⟨⟨queued, List.mem_of_getElem? get, is⟩, ?_⟩, ?_, fun _ _ => rfl⟩
    · rintro ⟨other, member, same⟩
      exact (h.absent_of_removed get).1 other member (same.trans is.symm)
    · intro other member differ
      obtain ⟨i, hget⟩ := List.mem_iff_getElem?.mp member
      have apart : i ≠ position := by
        rintro rfl
        rw [get] at hget
        cases hget
        exact differ is
      exact List.mem_eraseIdx_iff_getElem?.mpr ⟨i, apart, hget⟩
  · rw [step]
    refine ⟨Or.inr (Or.inl ?_), fun _ member _ => member, ?_⟩
    · obtain ⟨transfer, found⟩ := Table.mem_iff_lookup.mp running
      simp [Table.lookup_modify, found]
    · intro other differ
      exact (Table.lookup_modify _ _ _ _).trans (if_neg differ)
  · rw [step]
    exact ⟨Or.inr (Or.inr (recorded.record transferId planId).2), fun _ member _ => member, fun _ _ => rfl⟩

theorem cancelsOnly_root_iff (h : Booked home m tasks) (unique : ∀ p p' t, home p t → home p' t → p = p')
    {transferId : TransferId} {planId : TransferPlanId} (root : m.planOfRoot transferId = some planId)
    (reported : Option TransferPlanId) :
    CancelsOnly m (m.cancel transferId reported).1 transferId ↔ m.SoleJob planId transferId := by
  have cancel : (m.cancel transferId reported).1 = (m.cancelPlan planId).1 := by
    unfold TransferManager.cancel
    simp only [root]
  have own := h.roots planId transferId (planOfRoot_some root)
  have queuedHere : ∀ queued ∈ m.pending, queued.job.id = transferId → queued.planId = planId := by
    rintro queued member rfl
    exact unique _ _ _ (h.queued queued member) own
  have runningHere : ∀ running, m.running.lookup transferId = some running → running.planId = planId := by
    intro running found
    obtain ⟨task, member, id, plan⟩ := h.runningTask _ _ found
    rw [← plan]
    exact unique _ _ _ (h.tasked task member) (id ▸ own)
  have queued : (∀ queued ∈ m.pending, queued.job.id ≠ transferId → queued ∈ (m.cancelPlan planId).1.pending) ↔
      ∀ queued ∈ m.pending, queued.planId = planId → queued.job.id = transferId := by
    simp only [cancelPlan_pending, List.mem_filter, decide_eq_true_eq]
    refine forall₂_congr fun queued member => ?_
    simp only [member, true_and]
    exact not_imp_not
  have running : (∀ other, other ≠ transferId →
      (m.cancelPlan planId).1.running.lookup other = m.running.lookup other) ↔
      ∀ other running, m.running.lookup other = some running → running.planId = planId →
        other = transferId ∨ running.cancel = true := by
    simp only [cancelPlan_running, cancelTokens_lookup]
    constructor
    · intro kept other transfer found plan
      by_cases same : other = transferId
      · exact Or.inl same
      · have stays := kept other same
        rw [found, Option.map_some, if_pos plan, Option.some.injEq] at stays
        exact Or.inr (congrArg RunningTransfer.cancel stays).symm
    · intro cancelled other differ
      cases found : m.running.lookup other with
      | none => rfl
      | some transfer =>
        rw [Option.map_some, Option.some.injEq]
        split
        · rename_i plan
          have already := (cancelled other transfer found plan).resolve_left differ
          rw [← already]
        · rfl
  have stopped : (m.IsQueued transferId ∧ ¬ (m.cancelPlan planId).1.IsQueued transferId ∨
      ((m.cancelPlan planId).1.running.lookup transferId).map (fun running => running.cancel) = some true ∨
      transferId ∈ (m.cancelPlan planId).1.cancelledBeforeEnqueue) ↔
      (m.IsQueued transferId ∨ transferId ∈ m.running ∨
        ∃ recorded, m.cancelledBeforeEnqueue.lookup transferId = some recorded ∧ recorded ≠ some planId) := by
    have gone : ¬ (m.cancelPlan planId).1.IsQueued transferId := by
      rintro ⟨queued, member, is⟩
      rw [cancelPlan_pending] at member
      obtain ⟨member, elsewhere⟩ := List.mem_filter.mp member
      exact absurd (queuedHere queued member is) (by simpa using elsewhere)
    have token : ((m.cancelPlan planId).1.running.lookup transferId).map (fun running => running.cancel) = some true ↔
        transferId ∈ m.running := by
      rw [cancelPlan_running, cancelTokens_lookup, Table.mem_iff_lookup]
      cases found : m.running.lookup transferId with
      | none => simp
      | some transfer => simp [runningHere transfer found]
    rw [token, cancelPlan_records]
    simp only [gone, not_false_eq_true, and_true]
  rw [cancel]
  constructor
  · rintro ⟨first, second, third⟩
    exact ⟨queued.mp second, running.mp third, stopped.mp first⟩
  · rintro ⟨second, third, first⟩
    exact ⟨stopped.mpr first, queued.mpr second, running.mpr third⟩

theorem queueJobs_spec (m : TransferManager) (connection : ConnectionId) (planId : TransferPlanId)
    (jobs : List TransferJob) (distinct : (jobs.map (fun job => job.id)).Nodup) :
    (queueJobs connection planId m jobs).1.pending = m.pending ++
        (jobs.filter (fun job => job.id ∉ m.cancelledBeforeEnqueue)).map (fun job => ⟨connection, planId, job⟩) ∧
      (queueJobs connection planId m jobs).2 =
        (jobs.filter (fun job => job.id ∈ m.cancelledBeforeEnqueue)).map (fun job => job.id) := by
  induction jobs generalizing m with
  | nil => simp [queueJobs]
  | cons job jobs ih =>
    obtain ⟨first, distinct⟩ := List.nodup_cons.mp distinct
    by_cases recorded : job.id ∈ m.cancelledBeforeEnqueue
    · have kept : ∀ other ∈ jobs,
          (other.id ∈ m.cancelledBeforeEnqueue.erase job.id ↔ other.id ∈ m.cancelledBeforeEnqueue) := by
        intro other member
        rw [AList.mem_erase]
        exact and_iff_right (fun same => first (List.mem_map.mpr ⟨other, member, same⟩))
      have queued : jobs.filter (fun other => other.id ∉ m.cancelledBeforeEnqueue.erase job.id) =
          jobs.filter (fun other => other.id ∉ m.cancelledBeforeEnqueue) :=
        List.filter_congr (fun other member => decide_eq_decide.mpr (not_congr (kept other member)))
      have skipped : jobs.filter (fun other => other.id ∈ m.cancelledBeforeEnqueue.erase job.id) =
          jobs.filter (fun other => other.id ∈ m.cancelledBeforeEnqueue) :=
        List.filter_congr (fun other member => decide_eq_decide.mpr (kept other member))
      have spec := ih { m with
        cancelledBeforeEnqueue := m.cancelledBeforeEnqueue.erase job.id
        pendingCancelOrder := m.pendingCancelOrder.filter (fun queued => queued ≠ job.id) } distinct
      rw [List.filter_cons_of_neg (by simpa using recorded), List.filter_cons_of_pos (by simpa using recorded), ← queued,
        ← skipped, List.map_cons]
      simp only [queueJobs, takePendingCancel, recorded, if_true]
      exact ⟨spec.1, congrArg (job.id :: ·) spec.2⟩
    · have spec := ih (m.pushPending ⟨connection, planId, job⟩) distinct
      rw [List.filter_cons_of_pos (by simpa using recorded), List.filter_cons_of_neg (by simpa using recorded),
        List.map_cons]
      simp only [queueJobs, takePendingCancel, recorded, if_false]
      refine ⟨spec.1.trans ?_, spec.2⟩
      exact List.append_assoc m.pending [⟨connection, planId, job⟩] _

/-- An enqueue reports the jobs cancelled before it as skipped and queues all the others. -/
def SkipsOnly (m : TransferManager) (connection : ConnectionId) (planId : TransferPlanId) (jobs : List TransferJob) :
    Prop :=
  ∀ job ∈ jobs,
    (job.id ∈ m.cancelledBeforeEnqueue → .skipped job.id ∈ (m.enqueue connection planId jobs true).2 ∧
      ¬ (m.enqueue connection planId jobs true).1.IsQueued job.id) ∧
    (job.id ∉ m.cancelledBeforeEnqueue → .skipped job.id ∉ (m.enqueue connection planId jobs true).2 ∧
      ⟨connection, planId, job⟩ ∈ (m.enqueue connection planId jobs true).1.pending)

theorem rootCancelled_iff {jobs : List TransferJob} :
    m.rootCancelled jobs = true ↔ ∃ first ∈ jobs.head?, first.id ∈ m.cancelledBeforeEnqueue := by
  unfold rootCancelled
  cases jobs.head? <;> simp

theorem enqueue_spec (connection : ConnectionId) (planId : TransferPlanId) {jobs : List TransferJob}
    (distinct : (jobs.map (fun job => job.id)).Nodup) (admitted : m.rootCancelled jobs = false) :
    (m.enqueue connection planId jobs true).1.pending = m.pending ++
        (jobs.filter (fun job => job.id ∉ m.cancelledBeforeEnqueue)).map (fun job => ⟨connection, planId, job⟩) ∧
      (m.enqueue connection planId jobs true).2 =
        (jobs.filter (fun job => job.id ∈ m.cancelledBeforeEnqueue)).map (fun job => .skipped job.id) := by
  obtain ⟨pending, skipped⟩ := queueJobs_spec (m.adopt planId jobs true) connection planId jobs distinct
  rw [adopt_frame] at pending skipped
  unfold enqueue
  simp only [admitted, Bool.and_false, Bool.false_eq_true, if_false]
  refine ⟨?_, ?_⟩
  · split
    · rw [cleanupPlanIfIdle_frame, adopt_frame]
      exact pending
    · rw [adopt_frame]
      exact pending
  · rw [adopt_frame, skipped, List.map_map]
    rfl

theorem skipsOnly_iff (connection : ConnectionId) (planId : TransferPlanId) {jobs : List TransferJob}
    (distinct : (jobs.map (fun job => job.id)).Nodup) (new : ∀ job ∈ jobs, ¬ m.IsQueued job.id) :
    m.SkipsOnly connection planId jobs ↔ ∀ first ∈ jobs.head?, first.id ∉ m.cancelledBeforeEnqueue := by
  constructor
  · intro only first head recorded
    have cancelled : m.rootCancelled jobs = true := rootCancelled_iff.mpr ⟨first, head, recorded⟩
    have told := ((only first (List.mem_of_mem_head? head)).1 recorded).1
    unfold enqueue at told
    simp [cancelled] at told
  · intro admitted job member
    have admitted : m.rootCancelled jobs = false := by
      rw [← Bool.not_eq_true, rootCancelled_iff]
      rintro ⟨first, head, recorded⟩
      exact admitted first head recorded
    obtain ⟨pending, events⟩ := enqueue_spec connection planId distinct admitted
    refine ⟨fun recorded => ⟨?_, ?_⟩, fun free => ⟨?_, ?_⟩⟩
    · rw [events]
      exact List.mem_map.mpr ⟨job, List.mem_filter.mpr ⟨member, by simpa using recorded⟩, rfl⟩
    · rintro ⟨queued, there, is⟩
      rw [pending, List.mem_append, List.mem_map] at there
      obtain old | ⟨other, kept, rfl⟩ := there
      · exact new job member ⟨queued, old, is⟩
      · have is : other.id = job.id := is
        have free := (List.mem_filter.mp kept).2
        rw [is] at free
        exact absurd recorded (by simpa using free)
    · rw [events, List.mem_map]
      rintro ⟨other, kept, same⟩
      have recorded := (List.mem_filter.mp kept).2
      rw [TransferEvent.skipped.inj same] at recorded
      exact absurd (by simpa using recorded) free
    · rw [pending]
      refine List.mem_append_right _ (List.mem_map.mpr ⟨job, List.mem_filter.mpr ⟨member, ?_⟩, rfl⟩)
      simpa using free

end TransferManager

namespace TransferSystem

open TransferManager

theorem next_recorded (s : TransferSystem) (op : TransferOp) (h : Recorded s.manager) :
    Recorded (machine.next s op).manager := by
  cases s.next_moves op with
  | stays manager _ | restages _ _ _ _ manager _ =>
    rw [manager]
    exact h
  | handles request _ _ manager _ =>
    rw [manager]
    exact h.handleRequest request
  | starts position queued _ _ _ step =>
    rw [step]
    exact h.congr rfl rfl
  | completes index task result _ _ manager _ =>
    rw [manager]
    exact h.complete _
  | decides policies manager _ =>
    rw [manager]
    exact h.congr rfl rfl

theorem reachable_recorded (ops : List TransferOp) : Recorded (machine.run {} ops).manager :=
  machine.run_invariant (I := fun s => Recorded s.manager) next_recorded
    ⟨List.nodup_nil, fun _ => by simp, Nat.zero_le _⟩ ops

theorem cancel_one_file_iff (ops : List TransferOp) (fresh : FreshEnqueues ops) :
    (∀ transferId reported,
      CancelsOnly (machine.run {} ops).manager
          ((machine.run {} ops).manager.handleRequest (.cancel transferId reported)).1 transferId ↔
        ∀ planId, (machine.run {} ops).manager.planOfRoot transferId = some planId →
          (machine.run {} ops).manager.SoleJob planId transferId) ∧
    ∀ connection planId jobs, FreshEnqueues (ops ++ [.receive (.enqueue connection planId jobs)]) →
      ((machine.run {} ops).manager.SkipsOnly connection planId jobs ↔
        ∀ first ∈ jobs.head?, first.id ∉ (machine.run {} ops).manager.cancelledBeforeEnqueue) := by
  have h := accounted ops fresh
  rw [← machine.log_inputs {} ops] at fresh
  constructor
  · intro transferId reported
    show CancelsOnly _ ((machine.run {} ops).manager.cancel transferId reported).1 _ ↔ _
    cases root : (machine.run {} ops).manager.planOfRoot transferId with
    | none => simpa using cancelsOnly_of_not_root h.booked (reachable_recorded ops) root reported
    | some planId => simpa using cancelsOnly_root_iff h.booked fresh.jobs.unique root reported
  · intro connection planId jobs fresh'
    rw [← machine.log_inputs {} ops] at fresh'
    apply skipsOnly_iff connection planId fresh'.jobs.jobs_nodup
    rintro job member ⟨queued, there, is⟩
    exact fresh'.jobs.job_new member queued.planId (is ▸ h.booked.queued queued there)

/-- Nine files are uploaded together; eight of them run. -/
def nineUploads : List TransferOp :=
  .receive (.enqueue ⟨1⟩ ⟨1⟩ ((List.range 9).map TransferStore.sampleJob)) :: List.replicate 9 .startNext

def cancelBeforeEnqueue (id : Nat) : List TransferOp := [.receive (.cancel ⟨id⟩ (some ⟨1⟩)), .startNext]

theorem cancel_one_file_second :
    CancelsOnly (machine.run {} nineUploads).manager
        ((machine.run {} nineUploads).manager.handleRequest (.cancel ⟨1⟩ (some ⟨1⟩))).1 ⟨1⟩ ∧
      (machine.run {} (cancelBeforeEnqueue 1)).manager.SkipsOnly ⟨1⟩ ⟨1⟩ ((List.range 9).map TransferStore.sampleJob) := by
  constructor
  · refine ((cancel_one_file_iff nineUploads (by decide)).1 ⟨1⟩ (some ⟨1⟩)).mpr ?_
    intro planId root
    rw [show (machine.run {} nineUploads).manager.planOfRoot ⟨1⟩ = none by decide +kernel] at root
    cases root
  · exact ((cancel_one_file_iff (cancelBeforeEnqueue 1) (by decide)).2 ⟨1⟩ ⟨1⟩
      ((List.range 9).map TransferStore.sampleJob) (by decide)).mpr (by decide +kernel)

theorem cancel_first_file_cancels_all :
    FreshEnqueues nineUploads ∧ (machine.run {} nineUploads).phase = .ready ∧
      ¬ CancelsOnly (machine.run {} nineUploads).manager
        ((machine.run {} nineUploads).manager.handleRequest (.cancel ⟨0⟩ (some ⟨1⟩))).1 ⟨0⟩ ∧
      ¬ (machine.run {} (cancelBeforeEnqueue 0)).manager.SkipsOnly ⟨1⟩ ⟨1⟩
        ((List.range 9).map TransferStore.sampleJob) := by
  refine ⟨by decide, by decide +kernel, ?_, ?_⟩
  · intro only
    have still := only.queued ⟨⟨1⟩, ⟨1⟩, TransferStore.sampleJob 8⟩ (by decide +kernel) (by decide)
    exact absurd still (by decide +kernel)
  · intro only
    have still := ((only (TransferStore.sampleJob 8) (by decide)).2 (by decide +kernel)).2
    exact absurd still (by decide +kernel)

end TransferSystem

end MacSftp
