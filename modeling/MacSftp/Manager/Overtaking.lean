import MacSftp.Lib.Turns
import MacSftp.Manager.Queue
import Mathlib.Data.List.InsertIdx

namespace MacSftp

open Lib

namespace TransferManager

def queuedIds (m : TransferManager) : List TransferId := m.pending.map fun queued => queued.job.id

theorem queueJobs_queuedIds (connection : ConnectionId) (planId : TransferPlanId) (jobs : List TransferJob) (m : TransferManager) :
    ∃ new, (queueJobs connection planId m jobs).1.queuedIds = m.queuedIds ++ new := by
  induction jobs generalizing m with
  | nil => exact ⟨[], (List.append_nil _).symm⟩
  | cons job jobs ih =>
    by_cases recorded : job.id ∈ m.cancelledBeforeEnqueue
    · simp only [queueJobs, takePendingCancel, recorded, if_true]
      exact ih _
    · simp only [queueJobs, takePendingCancel, recorded, if_false]
      obtain ⟨new, is⟩ := ih (m.pushPending ⟨connection, planId, job⟩)
      refine ⟨job.id :: new, is.trans ?_⟩
      simp [queuedIds, pushPending]

theorem enqueue_queuedIds (m : TransferManager) (connection : ConnectionId) (planId : TransferPlanId) (jobs : List TransferJob)
    (recordRoot : Bool) : ∃ new, (m.enqueue connection planId jobs recordRoot).1.queuedIds = m.queuedIds ++ new := by
  have spec := queueJobs_queuedIds connection planId jobs (m.adopt planId jobs recordRoot)
  rw [show (m.adopt planId jobs recordRoot).queuedIds = m.queuedIds by rw [adopt_frame]; rfl] at spec
  unfold enqueue
  split
  · exact ⟨[], (List.append_nil _).symm⟩
  · dsimp only
    split
    · rw [cleanupPlanIfIdle_frame]
      exact spec
    · exact spec

theorem handleRequest_queuedIds (m : TransferManager) (request : TransferManagerRequest) :
    (∃ new, (m.handleRequest request).1.queuedIds = m.queuedIds ++ new) ∨
      (m.handleRequest request).1.queuedIds.Sublist m.queuedIds := by
  cases request with
  | enqueue connection planId jobs => exact Or.inl (m.enqueue_queuedIds connection planId jobs true)
  | cancel transferId planId =>
    refine Or.inr ?_
    simp only [handleRequest]
    obtain ⟨plan, _, step⟩ | ⟨position, queued, _, _, step⟩ | ⟨_, step⟩ | ⟨_, _, _, step⟩ := m.cancel_cases transferId planId
    · rw [step, queuedIds, cancelPlan_pending]
      exact List.filter_sublist.map _
    · rw [step, queuedIds, cleanupPlanIfIdle_frame]
      exact (List.eraseIdx_sublist _ _).map _
    · rw [step]
      exact List.Sublist.refl _
    · rw [step]
      exact List.Sublist.refl _
  | cancelPlan planId =>
    refine Or.inr ?_
    simp only [handleRequest, queuedIds, cancelPlan_pending]
    exact List.filter_sublist.map _
  | forgetPlan planId => exact Or.inr (List.Sublist.refl _)
  | retry transferId connected =>
    simp only [handleRequest, retry]
    cases found : m.retryRoutes.lookup transferId with
    | none => exact Or.inr (List.Sublist.refl _)
    | some route =>
      cases connected with
      | none =>
        dsimp only
        rw [takePendingCancel_frame]
        exact Or.inr (List.Sublist.refl _)
      | some connection =>
        refine Or.inl ?_
        obtain ⟨new, is⟩ :=
          enqueue_queuedIds ({ m with retryRoutes := m.retryRoutes.erase transferId }.takePendingCancel transferId).1
          connection route.planId [route.job] false
        refine ⟨new, is.trans ?_⟩
        rw [takePendingCancel_frame]
        rfl

theorem Booked.queuedIds_nodup {home : TransferPlanId → TransferId → Prop} {m : TransferManager} {tasks : List TransferTask}
    (h : Booked home m tasks) : m.queuedIds.Nodup := by
  rw [List.nodup_iff_count_le_one]
  intro transferId
  have bound := h.once transferId
  simp only [occurrences] at bound
  rw [queuedIds, List.count, List.countP_map]
  refine le_trans (le_of_eq (List.countP_congr fun queued _ => ?_)) (show m.pending.countP (fun queued =>
    queued.job.id = transferId) ≤ 1 by omega)
  simp

end TransferManager

namespace TransferSystem

open TransferManager

variable {s : TransferSystem} {transferId : TransferId}

/-- The job may start, and its plan runs nothing. -/
def MayStart (s : TransferSystem) (transferId : TransferId) : Prop :=
  ∃ queued ∈ s.manager.pending, queued.job.id = transferId ∧ s.manager.isEligible s.activeChannels queued = true ∧
    s.manager.runningOf queued.planId = 0

/-- The job is queued, and may start when the manager looks for a job to start. -/
def Waits (transferId : TransferId) (s : TransferSystem) (op : TransferOp) : Prop :=
  transferId ∈ s.manager.queuedIds ∧ (op = .startNext → s.phase = .busy [] → s.MayStart transferId)

def startedId? : TransferOutput → Option TransferId
  | .started task => some task.job.id
  | .sent _ => none

def startedBy (entry : TransferOp × List TransferOutput) : List TransferId := entry.2.filterMap startedId?

theorem queuedIds_getElem {m : TransferManager} {position : Nat} {queued : QueuedTransfer}
    (get : m.pending[position]? = some queued) :
    m.queuedIds[position]? = some queued.job.id := by
  rw [queuedIds, List.getElem?_map, get]
  rfl

theorem fairPosition_reaches (once : s.manager.queuedIds.Nodup) (may : s.MayStart transferId) :
    ∃ position, s.manager.fairPosition s.activeChannels = some position ∧ position ≤ s.manager.queuedIds.idxOf transferId := by
  obtain ⟨queued, member, rfl, eligible, idle⟩ := may
  obtain ⟨index, inside, rfl⟩ := List.getElem_of_mem member
  have place : s.manager.queuedIds.idxOf s.manager.pending[index].job.id = index := by
    have length : index < s.manager.queuedIds.length := by simpa [queuedIds] using inside
    have named : s.manager.queuedIds[index] = s.manager.pending[index].job.id := by simp [queuedIds]
    rw [← named]
    exact once.idxOf_getElem index length
  have serves : (s.manager.isEligible s.activeChannels s.manager.pending[index] &&
      decide (s.manager.runningOf s.manager.pending[index].planId = 0)) = true := by
    rw [eligible, idle]
    rfl
  cases first : s.manager.pending.findIdx? (fun queued =>
      s.manager.isEligible s.activeChannels queued && s.manager.runningOf queued.planId = 0) with
  | none =>
    rw [List.findIdx?_eq_none_iff] at first
    exact absurd serves (by rw [first _ member]; decide)
  | some position =>
    refine ⟨position, by rw [fairPosition, first]; rfl, ?_⟩
    rw [place]
    obtain ⟨_, _, before⟩ := List.findIdx?_eq_some_iff_getElem.mp first
    by_contra late
    exact before index (Nat.not_le.mp late) serves

theorem startNext_waiting (once : s.manager.queuedIds.Nodup) (tallied : Tallied s.manager) (turn : s.phase = .busy [])
    (may : s.MayStart transferId) :
    s.startNext.1.manager = s.manager ∧ s.startNext.2 = [] ∧ maxConcurrentTransfers ≤ s.manager.running.size ∨
      ∃ position queued, s.manager.pending[position]? = some queued ∧ position ≤ s.manager.queuedIds.idxOf transferId ∧
        s.startNext = (s.launched position queued, [.started ((s.manager.withoutPending position queued).launch queued).1]) := by
  obtain ⟨position, found, reaches⟩ := fairPosition_reaches once may
  rw [← tallied.nextQueuedPosition_eq] at found
  by_cases room : s.manager.running.size < maxConcurrentTransfers
  · obtain ⟨queued, get, _⟩ := nextQueuedPosition_eligible found
    have picked : s.manager.pick s.activeChannels = some (queued, s.manager.withoutPending position queued) := by
      rw [pick, if_pos room, found, Option.bind_some]
      exact removePending_some.mpr ⟨get, rfl⟩
    refine Or.inr ⟨position, queued, get, reaches, ?_⟩
    simp only [startNext, launched, turn, picked]
  · have picked : s.manager.pick s.activeChannels = none := if_neg room
    refine Or.inl ?_
    unfold startNext
    rw [turn]
    dsimp only
    rw [picked]
    exact ⟨rfl, rfl, Nat.not_lt.mp room⟩

theorem launched_queuedIds (s : TransferSystem) (position : Nat) (queued : QueuedTransfer) :
    (s.launched position queued).manager.queuedIds = s.manager.queuedIds.eraseIdx position := (List.eraseIdx_map _ _ _).symm

theorem startedBy_other {op : TransferOp} (other : op ≠ .startNext) : startedBy (op, machine.out s op) = [] := by
  rw [startedBy, List.filterMap_eq_nil_iff]
  intro output mem
  cases output with
  | sent event => rfl
  | started task => exact absurd (started_at mem).1 other

theorem served_step (once : s.manager.queuedIds.Nodup) (tallied : Tallied s.manager) {op : TransferOp}
    (waits : Waits transferId s op) :
    (startedBy (op, machine.out s op) ++ upTo transferId (machine.next s op).manager.queuedIds).Subperm
      (upTo transferId s.manager.queuedIds) := by
  obtain ⟨queued, may⟩ := waits
  have quiet (starts : startedBy (op, machine.out s op) = [])
      (fewer : (machine.next s op).manager.queuedIds.Sublist s.manager.queuedIds) :
      (startedBy (op, machine.out s op) ++ upTo transferId (machine.next s op).manager.queuedIds).Subperm
        (upTo transferId s.manager.queuedIds) := by
    rw [starts, List.nil_append]
    exact (upTo_sublist fewer once).subperm
  by_cases start : op = .startNext
  · subst start
    by_cases turn : s.phase = .busy []
    · obtain ⟨same, silent, -⟩ | ⟨position, first, get, reaches, step⟩ := startNext_waiting once tallied turn (may rfl turn)
      · refine quiet (by rw [startedBy, show machine.out s .startNext = [] from silent]; rfl) ?_
        rw [show (machine.next s .startNext).manager = s.manager from same]
      · have next : (machine.next s .startNext).manager.queuedIds = s.manager.queuedIds.eraseIdx position := by
          show s.startNext.1.manager.queuedIds = _
          rw [step]
          exact s.launched_queuedIds position first
        have out : startedBy (.startNext, machine.out s .startNext) = [first.job.id] := by
          show s.startNext.2.filterMap startedId? = _
          rw [step]
          rfl
        rw [next, out]
        exact upTo_eraseIdx once (queuedIds_getElem get) reaches queued
    · have stays : s.startNext = (s, []) := by
        unfold startNext
        split
        · rename_i busy
          exact absurd busy turn
        · rfl
      refine quiet ?_ ?_
      · show s.startNext.2.filterMap startedId? = []
        rw [stays]
        rfl
      · show s.startNext.1.manager.queuedIds.Sublist _
        rw [stays]
  · have starts := startedBy_other start (s := s)
    cases s.next_moves op with
    | stays manager tasks => exact quiet starts (by rw [manager])
    | starts position first is => exact absurd is start
    | restages index task stage get manager tasks => exact quiet starts (by rw [manager])
    | completes index task result get stage manager tasks =>
      refine quiet starts ?_
      rw [manager, queuedIds, handleCompleted_pending]
      exact List.Sublist.refl _
    | decides policies manager tasks => exact quiet starts (by rw [manager]; exact List.Sublist.refl _)
    | handles request is ready manager tasks =>
      obtain ⟨new, appended⟩ | fewer := s.manager.handleRequest_queuedIds request
      · rw [starts, List.nil_append, manager, appended, upTo_append queued]
      · exact quiet starts (by rw [manager]; exact fewer)

/-- While a job waits that may start, with nothing of its plan running, only jobs that were queued before it are started,
each at most once, and every turn for which there is room starts one. -/
theorem waiting_job_not_overtaken (ops more : List TransferOp) (fresh : FreshJobs (ops ++ more)) (transferId : TransferId)
    (waits : machine.Admissible (Waits transferId) (machine.run {} ops) more) :
    ((machine.log (machine.run {} ops) more).flatMap startedBy).Subperm
        (upTo transferId (machine.run {} ops).manager.queuedIds) ∧
      ∀ before after, more = before ++ .startNext :: after → (machine.run {} (ops ++ before)).phase = .busy [] →
        (machine.run {} (ops ++ before)).manager.running.size < maxConcurrentTransfers →
        ∃ task, .started task ∈ machine.out (machine.run {} (ops ++ before)) .startNext := by
  have books (before : List TransferOp) (op : TransferOp) (after : List TransferOp) (split : more = before ++ op :: after) :
      (machine.run {} (ops ++ before)).manager.queuedIds.Nodup ∧ Tallied (machine.run {} (ops ++ before)).manager ∧
        Waits transferId (machine.run {} (ops ++ before)) op := by
    have part : FreshJobs (ops ++ before) := by
      rw [split, ← List.append_assoc] at fresh
      exact fresh.of_append
    refine ⟨(reachable_booked _ part).queuedIds_nodup, reachable_tallied _ part, ?_⟩
    rw [Machine.run_append]
    exact (machine.admissible_iff_split.mp waits) before op after split
  constructor
  · refine machine.served_upTo (fun s op => s.manager.queuedIds.Nodup ∧ Tallied s.manager ∧ Waits transferId s op)
      (fun s => s.manager.queuedIds) startedBy transferId (fun s op good => served_step good.1 good.2.1 good.2.2) ?_
    refine machine.admissible_iff_split.mpr fun before op after split => ?_
    rw [← Machine.run_append]
    exact books before op after split
  · intro before after split turn room
    obtain ⟨once, tallied, _, may⟩ := books before _ after split
    obtain ⟨-, -, full⟩ | ⟨position, queued, _, _, step⟩ := startNext_waiting once tallied turn (may rfl turn)
    · exact absurd room (Nat.not_lt.mpr full)
    · refine ⟨(((machine.run {} (ops ++ before)).manager.withoutPending position queued).launch queued).1, ?_⟩
      show _ ∈ (machine.run {} (ops ++ before)).startNext.2
      rw [step]
      exact List.mem_singleton_self _

instance decidableMayStart (s : TransferSystem) (transferId : TransferId) : Decidable (s.MayStart transferId) :=
  inferInstanceAs (Decidable (∃ queued ∈ s.manager.pending, queued.job.id = transferId ∧
    s.manager.isEligible s.activeChannels queued = true ∧ s.manager.runningOf queued.planId = 0))

instance decidableWaits (transferId : TransferId) (s : TransferSystem) (op : TransferOp) : Decidable (Waits transferId s op) :=
  inferInstanceAs (Decidable (transferId ∈ s.manager.queuedIds ∧ (op = .startNext → s.phase = .busy [] → s.MayStart transferId)))

/-- Two uploads behind a download that waits for its folder. -/
def uploadsBehind : List TransferOp :=
  [.receive (.enqueue ⟨1⟩ ⟨1⟩ [sampleDownload 1, sampleDownload 2]), .startNext, .startNext,
    .receive (.enqueue ⟨1⟩ ⟨2⟩ [TransferStore.sampleJob 3, TransferStore.sampleJob 4])]

theorem waiting_upload_not_overtaken :
    ((machine.log (machine.run {} uploadsBehind) [.startNext]).flatMap startedBy).Subperm [⟨2⟩, ⟨3⟩, ⟨4⟩] ∧
      (machine.log (machine.run {} uploadsBehind) [.startNext]).flatMap startedBy = [⟨3⟩] := by
  have bound := (waiting_job_not_overtaken uploadsBehind [.startNext] (by decide) ⟨4⟩ (by decide +kernel)).1
  have queue : upTo (⟨4⟩ : TransferId) (machine.run {} uploadsBehind).manager.queuedIds = [⟨2⟩, ⟨3⟩, ⟨4⟩] := by decide +kernel
  rw [queue] at bound
  exact ⟨bound, by decide +kernel⟩

end TransferSystem

end MacSftp
