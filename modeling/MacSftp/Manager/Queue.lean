import MacSftp.Manager.Cancellation

namespace MacSftp

open Lib

namespace TransferManager

def queuedCount (pending : List QueuedTransfer) (planId : TransferPlanId) : Nat :=
  pending.countP (fun queued => queued.planId = planId)

/-- The counters and roots of the queue fit what is queued, and the caps hold. -/
structure Tallied (m : TransferManager) : Prop where
  queued : Table.Counts m.pendingPerPlan (queuedCount m.pending)
  roots : ∀ transferId ∈ m.pendingRoots,
    ∃ queued ∈ m.pending, queued.job.id = transferId ∧ m.planRootJobs.lookup queued.planId = some transferId
  slots : m.running.size ≤ maxConcurrentTransfers
  share : ∀ planId, runningCount m.running planId ≤ maxConcurrentPerPlan

theorem queuedCount_filter (pending : List QueuedTransfer) (planId plan : TransferPlanId) :
    queuedCount (pending.filter (fun queued => queued.planId ≠ planId)) plan =
      if plan = planId then 0 else queuedCount pending plan := by
  unfold queuedCount
  rw [List.countP_filter]
  split
  · rename_i same
    subst same
    rw [List.countP_eq_zero]
    intro queued _
    simp
  · rename_i differ
    apply List.countP_congr
    intro queued _
    simp only [Bool.and_eq_true, decide_eq_true_eq]
    exact ⟨And.left, fun same => ⟨same, fun same' => differ (same.symm.trans same')⟩⟩

theorem isEligible_below {m : TransferManager} {activeChannels : ConnectionId → Nat} {queued : QueuedTransfer}
    (eligible : m.isEligible activeChannels queued = true) : m.runningOf queued.planId < maxConcurrentPerPlan := by
  unfold isEligible at eligible
  by_contra full
  simp [Nat.not_lt.mp full] at eligible

namespace Tallied

variable {m m' : TransferManager}

theorem empty : Tallied {} where
  queued _ := rfl
  roots _ member := absurd member (Finset.notMem_empty _)
  slots := Nat.zero_le _
  share _ := Nat.zero_le _

theorem silent (h : Tallied m) (pending : m'.pending = m.pending) (perPlan : m'.pendingPerPlan = m.pendingPerPlan)
    (pendingRoots : m'.pendingRoots = m.pendingRoots) (running : m'.running = m.running)
    (roots : ∀ queued ∈ m.pending, ∀ root, m.planRootJobs.lookup queued.planId = some root →
      m'.planRootJobs.lookup queued.planId = some root) : Tallied m' where
  queued := by
    rw [pending, perPlan]
    exact h.queued
  roots transferId member := by
    rw [pendingRoots] at member
    obtain ⟨queued, there, is, root⟩ := h.roots transferId member
    exact ⟨queued, pending ▸ there, is, roots queued there _ root⟩
  slots := running ▸ h.slots
  share := running ▸ h.share

theorem forget (h : Tallied m) (planId : TransferPlanId) : Tallied (m.forgetCancellationsForPlan planId) :=
  h.silent rfl rfl rfl rfl (fun _ _ _ found => found)

theorem not_queued (h : Tallied m) {planId : TransferPlanId} (none_ : planId ∉ m.pendingPerPlan) :
    ∀ queued ∈ m.pending, queued.planId ≠ planId := by
  have count := h.queued planId
  rw [AList.lookup_eq_none.mpr none_] at count
  have zero : queuedCount m.pending planId = 0 := by
    by_contra more
    rw [if_neg more] at count
    cases count
  simpa using List.countP_eq_zero.mp zero

theorem cleanup (h : Tallied m) (planId : TransferPlanId) : Tallied (m.cleanupPlanIfIdle planId) := by
  unfold cleanupPlanIfIdle
  split
  · rename_i idle
    have none_ : planId ∉ m.pendingPerPlan := by
      simp only [isIdle, Bool.and_eq_true, decide_eq_true_eq] at idle
      exact idle.1.1
    refine h.silent rfl rfl rfl rfl ?_
    intro queued there root found
    exact (AList.lookup_erase_ne (h.not_queued none_ queued there)).trans found
  · exact h

theorem push (h : Tallied m) (queued : QueuedTransfer) : Tallied (m.pushPending queued) where
  queued := by
    apply h.queued.up
    intro planId
    simp only [pushPending, queuedCount, List.countP_append, List.countP_singleton]
    by_cases same : planId = queued.planId
    · simp [same]
    · simp [same, Ne.symm same]
  roots transferId member := by
    have old : transferId ∈ m.pendingRoots → ∃ other ∈ m.pending ++ [queued], other.job.id = transferId ∧
        m.planRootJobs.lookup other.planId = some transferId := by
      intro member
      obtain ⟨other, there, rest⟩ := h.roots transferId member
      exact ⟨other, List.mem_append_left _ there, rest⟩
    simp only [pushPending] at member
    split at member
    · rename_i root
      obtain rfl | member := Finset.mem_insert.mp member
      · exact ⟨queued, List.mem_append_right _ (List.mem_singleton_self _), rfl, root⟩
      · exact old member
    · exact old member
  slots := h.slots
  share := h.share

theorem remove (h : Tallied m) {position : Nat} {queued : QueuedTransfer}
    (get : m.pending[position]? = some queued) : Tallied (m.withoutPending position queued) where
  queued := by
    have count := fun planId => countP_of_getElem? (fun other : QueuedTransfer => decide (other.planId = planId)) get
    apply h.queued.down
    · have here := count queued.planId
      simp only [decide_true, if_true] at here
      unfold queuedCount
      omega
    · intro planId
      have here := count planId
      show (m.pending.eraseIdx position).countP _ = _
      unfold queuedCount
      by_cases same : planId = queued.planId
      · subst same
        simp only [decide_true, if_true] at here ⊢
        omega
      · simp only [Ne.symm same, decide_false, Bool.false_eq_true, if_false] at here
        rw [if_neg same]
        omega
  roots transferId member := by
    obtain ⟨differ, member⟩ := Finset.mem_erase.mp member
    obtain ⟨other, there, is, root⟩ := h.roots transferId member
    obtain ⟨i, hget⟩ := List.mem_iff_getElem?.mp there
    have apart : i ≠ position := by
      rintro rfl
      rw [get] at hget
      cases hget
      exact differ is.symm
    exact ⟨other, List.mem_eraseIdx_iff_getElem?.mpr ⟨i, apart, hget⟩, is, root⟩
  slots := h.slots
  share := h.share

theorem retain (h : Tallied m) (planId : TransferPlanId) : Tallied (m.retainPendingNotPlan planId) where
  queued := h.queued.gone (fun plan => queuedCount_filter m.pending planId plan)
  roots transferId member := by
    have kept : transferId ∈ m.pendingRoots ∧ m.planRootJobs.lookup planId ≠ some transferId := by
      unfold retainPendingNotPlan at member
      cases found : m.planRootJobs.lookup planId with
      | none =>
        simp only [found] at member
        exact ⟨member, by simp⟩
      | some rootId =>
        simp only [found, Finset.mem_erase] at member
        exact ⟨member.2, fun same => member.1 (Option.some.inj same).symm⟩
    obtain ⟨queued, there, is, root⟩ := h.roots transferId kept.1
    refine ⟨queued, List.mem_filter.mpr ⟨there, ?_⟩, is, root⟩
    simp only [decide_eq_true_eq]
    rintro same
    exact kept.2 (same ▸ root)
  slots := h.slots
  share := h.share

theorem withRunning (h : Tallied m) {running : Table TransferId RunningTransfer} (size : running.size ≤ m.running.size)
    (count : ∀ planId, runningCount running planId ≤ runningCount m.running planId) :
    Tallied { m with running := running } where
  queued := h.queued
  roots := h.roots
  slots := size.trans h.slots
  share planId := (count planId).trans (h.share planId)

theorem cancelPlan (h : Tallied m) (planId : TransferPlanId) : Tallied (m.cancelPlan planId).1 := by
  have stopped : Tallied { (m.forgetCancellationsForPlan planId).retainPendingNotPlan planId with
      running := cancelTokens planId m.running } := by
    refine ((h.forget planId).retain planId).withRunning ?_ ?_
    · exact le_of_eq (List.length_map _)
    · intro plan
      refine le_of_eq (Table.total_mapValues (fun transfer => ?_) _)
      split <;> rfl
  unfold TransferManager.cancelPlan
  dsimp only
  split
  · exact stopped
  · apply cleanup
    refine stopped.silent rfl rfl rfl rfl ?_
    intro queued there root found
    have elsewhere : queued.planId ≠ planId := by simpa using (List.mem_filter.mp there).2
    exact (AList.lookup_erase_ne elsewhere).trans found

theorem adopt (h : Tallied m) (planId : TransferPlanId) (jobs : List TransferJob) (recordRoot : Bool) :
    Tallied (m.adopt planId jobs recordRoot) := by
  unfold TransferManager.adopt adoptPolicy adoptRoot
  cases jobs.head? with
  | none => cases recordRoot <;> exact h
  | some job =>
    cases recordRoot with
    | false => exact h.silent rfl rfl rfl rfl (fun _ _ _ found => found)
    | true =>
      refine h.silent rfl rfl rfl rfl ?_
      intro queued _ root found
      simp only [if_true, Table.orInsert]
      split
      · exact found
      · rename_i unknown
        refine (AList.lookup_insert_ne ?_).trans found
        rintro rfl
        exact unknown (Table.mem_iff_lookup.mpr ⟨root, found⟩)

theorem queueJobs (h : Tallied m) (connection : ConnectionId) (planId : TransferPlanId) (jobs : List TransferJob) :
    Tallied (TransferManager.queueJobs connection planId m jobs).1 := by
  induction jobs generalizing m with
  | nil => exact h
  | cons job jobs ih =>
    by_cases recorded : job.id ∈ m.cancelledBeforeEnqueue
    · simp only [TransferManager.queueJobs, takePendingCancel, recorded, if_true]
      exact ih (h.silent rfl rfl rfl rfl (fun _ _ _ found => found))
    · simp only [TransferManager.queueJobs, takePendingCancel, recorded, if_false]
      exact ih (h.push _)

theorem enqueue (h : Tallied m) (connection : ConnectionId) (planId : TransferPlanId) (jobs : List TransferJob)
    (recordRoot : Bool) : Tallied (m.enqueue connection planId jobs recordRoot).1 := by
  have queued := ((h.adopt planId jobs recordRoot).queueJobs connection planId jobs).forget planId
  unfold TransferManager.enqueue
  split
  · exact h.forget planId
  · dsimp only
    split
    · exact queued.cleanup planId
    · exact queued

theorem cancel (h : Tallied m) (transferId : TransferId) (planId : Option TransferPlanId) :
    Tallied (m.cancel transferId planId).1 := by
  obtain ⟨plan, _, step⟩ | ⟨position, queued, get, _, step⟩ | ⟨known, step⟩ | ⟨_, _, _, step⟩ :=
    m.cancel_cases transferId planId
  · rw [step]
    exact h.cancelPlan plan
  · rw [step]
    exact (h.remove get).cleanup _
  · rw [step]
    obtain ⟨running, found⟩ := Table.mem_iff_lookup.mp known
    refine h.withRunning ?_ ?_
    · simp only [Table.modify, found]
      exact Table.size_insert_known known
    · intro plan
      exact le_of_eq (Table.total_modify (fun transfer => by rfl) transferId m.running)
  · rw [step]
    exact h.silent rfl rfl rfl rfl (fun _ _ _ found => found)

theorem retry (h : Tallied m) (transferId : TransferId) (connected : Option ConnectionId) :
    Tallied (m.retry transferId connected).1 := by
  unfold TransferManager.retry
  cases m.retryRoutes.lookup transferId with
  | none => exact h
  | some route =>
    have dropped : Tallied ({ m with retryRoutes := m.retryRoutes.erase transferId }.takePendingCancel transferId).1 := by
      rw [takePendingCancel_frame]
      exact h.silent rfl rfl rfl rfl (fun _ _ _ found => found)
    cases connected with
    | some connection => exact dropped.enqueue connection route.planId [route.job] false
    | none => exact dropped.silent rfl rfl rfl rfl (fun _ _ _ found => found)

theorem handleRequest (h : Tallied m) (request : TransferManagerRequest) : Tallied (m.handleRequest request).1 := by
  cases request with
  | enqueue connection planId jobs => exact h.enqueue connection planId jobs true
  | cancel transferId planId => exact h.cancel transferId planId
  | cancelPlan planId => exact h.cancelPlan planId
  | forgetPlan planId => exact h.forget planId
  | retry transferId connected => exact h.retry transferId connected

theorem complete (h : Tallied m) (completed : CompletedTransfer) : Tallied (m.handleCompleted completed) := by
  have finished : ∀ perPlan routes sessions, Tallied { m with
      running := m.running.erase completed.transferId
      runningPerPlan := perPlan
      retryRoutes := routes
      idleSessions := sessions } := by
    intro perPlan routes sessions
    have ended : Tallied { m with running := m.running.erase completed.transferId } := by
      refine h.withRunning (Table.size_erase_le _ _) ?_
      intro plan
      exact Table.total_erase_le _ _ _
    exact ended.silent rfl rfl rfl rfl (fun _ _ _ found => found)
  unfold handleCompleted
  cases m.running.lookup completed.transferId with
  | none => cases completed.retryRoute <;> exact finished _ _ _
  | some running =>
    apply cleanup
    cases completed.retryRoute <;> cases completed.reusableSession <;> exact finished _ _ _

theorem start (h : Tallied m) (counted : Table.Counts m.runningPerPlan (runningCount m.running))
    {activeChannels : ConnectionId → Nat} (room : m.running.size < maxConcurrentTransfers) {position : Nat}
    {queued : QueuedTransfer} (get : m.pending[position]? = some queued)
    (eligible : m.isEligible activeChannels queued = true) :
    Tallied ((m.withoutPending position queued).launch queued).2 := by
  have below : runningCount m.running queued.planId < maxConcurrentPerPlan := by
    rw [← counted.getD queued.planId]
    exact isEligible_below eligible
  have inserted : Tallied { m.withoutPending position queued with
      running := m.running.insert queued.job.id { planId := queued.planId } } := by
    refine ⟨(h.remove get).queued, (h.remove get).roots, ?_, ?_⟩
    · exact (Table.size_insert_le _ _ _).trans room
    · intro plan
      have at_most : runningCount (m.running.insert queued.job.id { planId := queued.planId }) plan ≤
          (if queued.planId = plan then 1 else 0) + runningCount m.running plan := by
        unfold runningCount
        rw [Table.total_insert]
        exact Nat.add_le_add_left (Table.total_erase_le _ _ _) _
      refine at_most.trans ?_
      split
      · rename_i same
        subst same
        omega
      · have old := h.share plan
        omega
  exact inserted.silent rfl rfl rfl rfl (fun _ _ _ found => found)

end Tallied

theorem Booked.job_once {home : TransferPlanId → TransferId → Prop} {m : TransferManager} {tasks : List TransferTask}
    (h : Booked home m tasks) (transferId : TransferId) :
    m.pending.countP (fun queued => queued.job.id = transferId) + (if transferId ∈ m.running then 1 else 0) +
      routeCount m.retryRoutes transferId ≤ 1 := by
  have bound := h.once transferId
  have running : (if transferId ∈ m.running then 1 else 0) ≤ tasks.countP (fun task => task.job.id = transferId) := by
    split
    · rename_i known
      obtain ⟨transfer, found⟩ := Table.mem_iff_lookup.mp known
      obtain ⟨task, member, is, _⟩ := h.runningTask transferId transfer found
      exact List.countP_pos_iff.mpr ⟨task, member, by simpa using is⟩
    · exact Nat.zero_le _
  simp only [occurrences] at bound
  omega

end TransferManager

namespace TransferSystem

open TransferManager

variable {home : TransferPlanId → TransferId → Prop} {s : TransferSystem}

theorem next_tallied (h : Tallied s.manager) (counted : Table.Counts s.manager.runningPerPlan (runningCount s.manager.running))
    (op : TransferOp) : Tallied (machine.next s op).manager := by
  by_cases turn : op = .startNext
  · subst turn
    rw [show machine.next s .startNext = s.startNext.1 from rfl]
    obtain ⟨position, queued, _, _, room, get, eligible, step⟩ | ⟨⟨phase, step⟩, _⟩ := s.startNext_cases
    · rw [step]
      exact h.start counted room get eligible
    · rw [step]
      exact h
  · cases s.next_moves op with
    | stays manager _ | restages _ _ _ _ manager _ =>
      rw [manager]
      exact h
    | handles request _ _ manager _ =>
      rw [manager]
      exact h.handleRequest request
    | starts _ _ is _ _ _ => exact absurd is turn
    | completes index task result _ _ manager _ =>
      rw [manager]
      exact h.complete _
    | decides policies manager _ =>
      rw [manager]
      exact h.silent rfl rfl rfl rfl (fun _ _ _ found => found)

theorem reachable_tallied (ops : List TransferOp) (fresh : FreshJobs ops) : Tallied (machine.run {} ops).manager := by
  induction ops using List.reverseRecOn with
  | nil => exact .empty
  | append_singleton ops op ih =>
    rw [machine.run_concat]
    exact next_tallied (ih fresh.of_concat) (reachable_booked ops fresh.of_concat).counted op

/-- What the manager's six redundant structures have to agree on. -/
structure QueueBooks (m : TransferManager) : Prop where
  pendingPerPlan : Table.Counts m.pendingPerPlan (queuedCount m.pending)
  runningPerPlan : Table.Counts m.runningPerPlan (runningCount m.running)
  pendingRoots : ∀ transferId, transferId ∈ m.pendingRoots ↔
    ∃ queued ∈ m.pending, queued.job.id = transferId ∧ m.planRootJobs.lookup queued.planId = some transferId
  once : ∀ transferId, m.pending.countP (fun queued => queued.job.id = transferId) +
    (if transferId ∈ m.running then 1 else 0) + (if transferId ∈ m.retryRoutes then 1 else 0) ≤ 1
  slots : m.running.size ≤ maxConcurrentTransfers
  share : ∀ planId, runningCount m.running planId ≤ maxConcurrentPerPlan
  cancelOrder : m.pendingCancelOrder.Nodup
  cancels : ∀ transferId, transferId ∈ m.pendingCancelOrder ↔ transferId ∈ m.cancelledBeforeEnqueue

theorem queue_books (ops : List TransferOp) (fresh : FreshJobs ops) : QueueBooks (machine.run {} ops).manager := by
  have booked := reachable_booked ops fresh
  have tallied := reachable_tallied ops fresh
  have recorded := reachable_recorded ops
  refine ⟨tallied.queued, booked.counted, ?_, booked.job_once, tallied.slots, tallied.share, recorded.nodup,
    recorded.lists⟩
  intro transferId
  constructor
  · exact tallied.roots transferId
  · rintro ⟨queued, member, rfl, root⟩
    exact booked.rootQueued queued member root

/-- Eight uploads run, one waits behind them, and a job of another plan was cancelled before its enqueue. -/
def busyUploads : List TransferOp := nineUploads ++ [.receive (.cancel ⟨9⟩ (some ⟨2⟩)), .startNext]

theorem queue_books_uploads :
    QueueBooks (machine.run {} busyUploads).manager ∧ (machine.run {} busyUploads).manager.pending.length = 1 ∧
      (machine.run {} busyUploads).manager.running.size = 8 ∧
      (machine.run {} busyUploads).manager.pendingCancelOrder = [⟨9⟩] :=
  ⟨queue_books busyUploads (by decide), by decide +kernel, by decide +kernel, by decide +kernel⟩

end TransferSystem

namespace TransferManager

variable {m : TransferManager}

/-- The scheduler's rule: the first eligible job of a plan that runs nothing, or else the first eligible job. -/
def fairPosition (m : TransferManager) (activeChannels : ConnectionId → Nat) : Option Nat :=
  (m.pending.findIdx? (fun queued => m.isEligible activeChannels queued && m.runningOf queued.planId = 0)).or
    (m.pending.findIdx? (m.isEligible activeChannels))

theorem findIdx?_congr_mem {α : Type} {p q : α → Bool} {xs : List α} (same : ∀ x ∈ xs, p x = q x) :
    xs.findIdx? p = xs.findIdx? q := by
  induction xs with
  | nil => rfl
  | cons x xs ih =>
    rw [List.findIdx?_cons, List.findIdx?_cons, same x List.mem_cons_self,
      ih (fun y member => same y (List.mem_cons_of_mem _ member))]

theorem Tallied.plan_listed (h : Tallied m) {queued : QueuedTransfer} (member : queued ∈ m.pending) :
    queued.planId ∈ m.pendingPerPlan := by
  by_contra unlisted
  exact h.not_queued unlisted queued member rfl

theorem Tallied.nextQueuedPosition_eq (h : Tallied m) (activeChannels : ConnectionId → Nat) :
    m.nextQueuedPosition activeChannels = m.fairPosition activeChannels := by
  have admissible : ∀ queued ∈ m.pending, m.isEligible activeChannels queued = true →
      (m.pendingPerPlan.keys.filter (fun planId => m.runningOf planId < maxConcurrentPerPlan)).contains
        queued.planId = true := by
    intro queued member eligible
    rw [List.contains_iff_mem, List.mem_filter]
    exact ⟨AList.mem_keys.mp (h.plan_listed member), decide_eq_true (isEligible_below eligible)⟩
  have any : m.pending.findIdx? (fun queued =>
      (m.pendingPerPlan.keys.filter (fun planId => m.runningOf planId < maxConcurrentPerPlan)).contains queued.planId &&
        m.isEligible activeChannels queued) = m.pending.findIdx? (m.isEligible activeChannels) := by
    apply findIdx?_congr_mem
    intro queued member
    cases eligible : m.isEligible activeChannels queued with
    | false => exact Bool.and_false _
    | true => rw [admissible queued member eligible, Bool.true_and]
  have idle : m.pending.findIdx? (fun queued =>
      (m.pendingPerPlan.keys.filter (fun planId => m.runningOf planId < maxConcurrentPerPlan)).contains queued.planId &&
        decide (m.runningOf queued.planId = 0) && m.isEligible activeChannels queued) =
      m.pending.findIdx? (fun queued => m.isEligible activeChannels queued && m.runningOf queued.planId = 0) := by
    apply findIdx?_congr_mem
    intro queued member
    cases eligible : m.isEligible activeChannels queued with
    | false => rw [Bool.and_false, Bool.false_and]
    | true => rw [admissible queued member eligible, Bool.true_and, Bool.and_true]
  unfold nextQueuedPosition
  dsimp only
  rw [any, idle]
  split
  · rename_i empty
    simp [fairPosition, empty]
  · split
    · rename_i none_
      rw [none_] at admissible
      have nothing : ∀ queued ∈ m.pending, m.isEligible activeChannels queued = false := by
        intro queued member
        by_contra eligible
        exact absurd (admissible queued member (Bool.not_eq_false _ ▸ eligible)) (by simp)
      have first : m.pending.findIdx? (fun queued =>
          m.isEligible activeChannels queued && m.runningOf queued.planId = 0) = none := by
        rw [List.findIdx?_eq_none_iff]
        intro queued member
        rw [nothing queued member, Bool.false_and]
      rw [fairPosition, first, List.findIdx?_eq_none_iff.mpr nothing]
      rfl
    · split
      · rfl
      · rename_i noIdle
        have first : m.pending.findIdx? (fun queued =>
            m.isEligible activeChannels queued && m.runningOf queued.planId = 0) = none := by
          rw [List.findIdx?_eq_none_iff]
          intro queued member
          have busy : m.runningOf queued.planId ≠ 0 := by
            intro zero
            apply noIdle
            rw [List.any_eq_true]
            exact ⟨queued.planId, AList.mem_keys.mp (h.plan_listed member), decide_eq_true zero⟩
          rw [decide_eq_false busy, Bool.and_false]
        rw [fairPosition, first, Option.none_or]

theorem fairPosition_none {activeChannels : ConnectionId → Nat} :
    m.fairPosition activeChannels = none ↔ ∀ queued ∈ m.pending, m.isEligible activeChannels queued = false := by
  unfold fairPosition
  rw [Option.or_eq_none_iff, List.findIdx?_eq_none_iff, List.findIdx?_eq_none_iff]
  constructor
  · exact And.right
  · intro nothing
    refine ⟨?_, nothing⟩
    intro queued member
    rw [nothing queued member, Bool.false_and]

theorem isEligible_unless_root_waits {activeChannels : ConnectionId → Nat} {queued : QueuedTransfer}
    (idle : m.running = ∅) (none_ : m.runningOf queued.planId = 0)
    (below : activeChannels queued.connection < maxChannelsPerConnection)
    (root : ∀ root, m.planRootJobs.lookup queued.planId = some root → queued.job.id = root ∨ root ∉ m.pendingRoots) :
    m.isEligible activeChannels queued = true := by
  unfold isEligible
  rw [none_, if_neg (by decide), if_neg (Nat.not_le.mpr below)]
  split
  · rfl
  · cases found : m.planRootJobs.lookup queued.planId with
    | none => rfl
    | some rootId =>
      dsimp only
      split
      · rfl
      · rename_i differ
        have free := (root rootId found).resolve_left differ
        simp [free, idle]

theorem Tallied.some_eligible (h : Tallied m) (counted : Table.Counts m.runningPerPlan (runningCount m.running))
    {activeChannels : ConnectionId → Nat} (waiting : m.pending ≠ []) (idle : m.running = ∅)
    (below : ∀ queued ∈ m.pending, activeChannels queued.connection < maxChannelsPerConnection) :
    ∃ queued ∈ m.pending, m.isEligible activeChannels queued = true := by
  have none_ : ∀ planId, m.runningOf planId = 0 := by
    intro planId
    refine (counted.getD planId).trans ?_
    rw [idle]
    rfl
  obtain ⟨queued, member⟩ := List.exists_mem_of_ne_nil _ waiting
  by_cases root : ∃ root ∈ m.pendingRoots, m.planRootJobs.lookup queued.planId = some root
  · obtain ⟨root, pending, _⟩ := root
    obtain ⟨first, there, is, recorded⟩ := h.roots root pending
    refine ⟨first, there, isEligible_unless_root_waits idle (none_ _) (below first there) ?_⟩
    intro other found
    rw [recorded] at found
    exact Or.inl (is.trans (Option.some.inj found))
  · refine ⟨queued, member, isEligible_unless_root_waits idle (none_ _) (below queued member) ?_⟩
    intro other found
    exact Or.inr (fun pending => root ⟨other, pending, found⟩)

end TransferManager

namespace TransferSystem

open TransferManager

theorem startNext_starts {s : TransferSystem} (turn : s.phase = .busy []) (idle : s.manager.running = ∅)
    (found : (s.manager.nextQueuedPosition s.activeChannels).isSome) : ∃ task, .started task ∈ machine.out s .startNext := by
  obtain ⟨position, queued, _, _, _, _, _, step⟩ | ⟨_, stuck⟩ := s.startNext_cases
  · refine ⟨((s.manager.withoutPending position queued).launch queued).1, ?_⟩
    show _ ∈ s.startNext.2
    rw [step]
    exact List.mem_singleton_self _
  · obtain ⟨position, found⟩ := Option.isSome_iff_exists.mp found
    obtain ⟨queued, get, _⟩ := nextQueuedPosition_eligible found
    have picked := stuck turn
    rw [pick, idle, if_pos (by decide), found, Option.bind_some, removePending, get] at picked
    cases picked

theorem scheduler_is_fair_and_live (ops : List TransferOp) (fresh : FreshJobs ops) (activeChannels : ConnectionId → Nat) :
    (machine.run {} ops).manager.nextQueuedPosition activeChannels =
        (machine.run {} ops).manager.fairPosition activeChannels ∧
      ((machine.run {} ops).manager.nextQueuedPosition activeChannels = none ↔
        ∀ queued ∈ (machine.run {} ops).manager.pending,
          (machine.run {} ops).manager.isEligible activeChannels queued = false) ∧
      ((machine.run {} ops).manager.pending ≠ [] → (machine.run {} ops).manager.running = ∅ →
        (∀ queued ∈ (machine.run {} ops).manager.pending,
          activeChannels queued.connection < maxChannelsPerConnection) →
        ((machine.run {} ops).manager.nextQueuedPosition activeChannels).isSome ∧
          (activeChannels = (machine.run {} ops).activeChannels → (machine.run {} ops).phase = .busy [] →
            ∃ task, .started task ∈ machine.out (machine.run {} ops) .startNext)) := by
  have tallied := reachable_tallied ops fresh
  have counted := (reachable_booked ops fresh).counted
  rw [tallied.nextQueuedPosition_eq activeChannels]
  refine ⟨rfl, fairPosition_none, ?_⟩
  intro waiting idle below
  have found : ((machine.run {} ops).manager.fairPosition activeChannels).isSome := by
    rw [Option.isSome_iff_ne_none]
    intro none_
    obtain ⟨queued, member, eligible⟩ := tallied.some_eligible counted waiting idle below
    rw [fairPosition_none.mp none_ queued member] at eligible
    cases eligible
  refine ⟨found, ?_⟩
  rintro rfl turn
  apply startNext_starts turn idle
  rw [tallied.nextQueuedPosition_eq]
  exact found

theorem scheduler_is_fair_and_live_folder :
    (machine.run {} failedRootRun).manager.nextQueuedPosition (machine.run {} failedRootRun).activeChannels = some 0 ∧
      (∃ task, .started task ∈ machine.out (machine.run {} failedRootRun) .startNext) ∧
      ∀ queued ∈ (machine.run {} busyUploads).manager.pending,
        (machine.run {} busyUploads).manager.isEligible (fun _ => 8) queued = false := by
  obtain ⟨rule, _, live⟩ := scheduler_is_fair_and_live failedRootRun (by decide)
    (machine.run {} failedRootRun).activeChannels
  obtain ⟨_, none_, _⟩ := scheduler_is_fair_and_live busyUploads (by decide) (fun _ => 8)
  refine ⟨rule.trans (by decide), ?_, none_.mp (by decide +kernel)⟩
  exact (live (by decide) rfl (by decide)).2 rfl (by decide)

end TransferSystem

end MacSftp
