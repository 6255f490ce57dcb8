import MacSftp.Manager.EarlyCancel
import MacSftp.Transfer.PlanOutcome

namespace MacSftp

open Lib

/-- The end of a job is told by an event of its own, or with the end of its whole plan. -/
def TransferEvent.settles (planId : TransferPlanId) (transferId : TransferId) : TransferEvent → Bool
  | .completed ended | .skipped ended => ended = transferId
  | .failed failure => failure.transferId = transferId
  | .planCancelled cancelled => cancelled = planId
  | _ => false

theorem TransferResult.terminalEvent_settles (planId : TransferPlanId) (transferId : TransferId) (result : TransferResult) :
    (result.terminalEvent transferId).settles planId transferId = true := by
  unfold terminalEvent
  cases result with
  | stopped error duringConflict =>
    dsimp only
    split <;> simp [TransferEvent.settles]
  | openFailed | finished => simp [TransferEvent.settles]

namespace TransferManager

section Counting

variable (P : TransferJob → Bool)

def jobsQueued (m : TransferManager) : Nat := m.pending.countP fun queued => P queued.job

theorem queueJobs_count (connection : ConnectionId) (planId : TransferPlanId) (jobs : List TransferJob) (m : TransferManager) :
    (queueJobs connection planId m jobs).1.jobsQueued P ≤ m.jobsQueued P + jobs.countP P := by
  induction jobs generalizing m with
  | nil => exact Nat.le_refl _
  | cons job jobs ih =>
    by_cases recorded : job.id ∈ m.cancelledBeforeEnqueue
    · simp only [queueJobs, takePendingCancel, recorded, if_true, List.countP_cons]
      refine (ih _).trans ?_
      simp only [jobsQueued]
      omega
    · simp only [queueJobs, takePendingCancel, recorded, if_false, List.countP_cons]
      refine (ih _).trans ?_
      simp only [jobsQueued, pushPending, List.countP_append, List.countP_singleton]
      omega

theorem enqueue_count (m : TransferManager) (connection : ConnectionId) (planId : TransferPlanId) (jobs : List TransferJob)
    (recordRoot : Bool) : (m.enqueue connection planId jobs recordRoot).1.jobsQueued P ≤ m.jobsQueued P + jobs.countP P := by
  have spec := queueJobs_count P connection planId jobs (m.adopt planId jobs recordRoot)
  rw [show (m.adopt planId jobs recordRoot).jobsQueued P = m.jobsQueued P by rw [adopt_frame]; rfl] at spec
  unfold enqueue
  split
  · exact Nat.le_add_right _ _
  · dsimp only
    split
    · rw [cleanupPlanIfIdle_frame]
      exact spec
    · exact spec

/-- The jobs that a request puts into the queue, unless they have been cancelled before. -/
def puts (m : TransferManager) : TransferManagerRequest → List (TransferPlanId × TransferJob)
  | .enqueue _ planId jobs => jobs.map fun job => (planId, job)
  | .retry transferId (some _) => ((m.retryRoutes.lookup transferId).map fun route => (route.planId, route.job)).toList
  | _ => []

theorem handleRequest_count (m : TransferManager) (request : TransferManagerRequest) :
    (m.handleRequest request).1.jobsQueued P ≤ m.jobsQueued P + (m.puts request).countP fun put => P put.2 := by
  cases request with
  | enqueue connection planId jobs =>
    refine (enqueue_count P m connection planId jobs true).trans (le_of_eq ?_)
    rw [puts, List.countP_map]
    rfl
  | cancel transferId planId =>
    refine Nat.le_add_right_of_le ?_
    obtain ⟨plan, _, step⟩ | ⟨position, queued, _, _, step⟩ | ⟨_, step⟩ | ⟨_, _, _, step⟩ := m.cancel_cases transferId planId
    · rw [handleRequest, jobsQueued, step, cancelPlan_pending]
      exact List.filter_sublist.countP_le
    · rw [handleRequest, jobsQueued, step, cleanupPlanIfIdle_frame]
      exact (List.eraseIdx_sublist _ _).countP_le
    · rw [handleRequest, step]
      exact Nat.le_refl _
    · rw [handleRequest, step]
      exact Nat.le_refl _
  | cancelPlan planId =>
    refine Nat.le_add_right_of_le ?_
    simp only [handleRequest, jobsQueued, cancelPlan_pending]
    exact List.filter_sublist.countP_le
  | forgetPlan planId => exact Nat.le_add_right _ _
  | retry transferId connected =>
    simp only [handleRequest, retry]
    cases found : m.retryRoutes.lookup transferId with
    | none => exact Nat.le_add_right _ _
    | some route =>
      cases connected with
      | none =>
        dsimp only
        rw [takePendingCancel_frame]
        exact Nat.le_add_right _ _
      | some connection =>
        refine (enqueue_count P _ connection route.planId [route.job] false).trans ?_
        rw [takePendingCancel_frame, puts, found, Option.map_some, Option.toList_some, List.countP_singleton,
          List.countP_singleton]
        exact Nat.le_refl _

end Counting

/-- A job of the plan waits in the queue. -/
def Waits (m : TransferManager) (planId : TransferPlanId) (transferId : TransferId) : Prop :=
  ∃ queued ∈ m.pending, queued.planId = planId ∧ queued.job.id = transferId

variable {m : TransferManager} {planId : TransferPlanId} {transferId : TransferId}

theorem queueJobs_waits (connection : ConnectionId) (plan : TransferPlanId) (jobs : List TransferJob)
    (waits : m.Waits planId transferId) : (queueJobs connection plan m jobs).1.Waits planId transferId := by
  induction jobs generalizing m with
  | nil => exact waits
  | cons job jobs ih =>
    by_cases recorded : job.id ∈ m.cancelledBeforeEnqueue
    · simp only [queueJobs, takePendingCancel, recorded, if_true]
      exact ih waits
    · simp only [queueJobs, takePendingCancel, recorded, if_false]
      obtain ⟨queued, member, is⟩ := waits
      exact ih ⟨queued, List.mem_append_left _ member, is⟩

theorem queueJobs_takes (connection : ConnectionId) (planId : TransferPlanId) (jobs : List TransferJob) (m : TransferManager) :
    ∀ job ∈ jobs, (queueJobs connection planId m jobs).1.Waits planId job.id ∨
      job.id ∈ (queueJobs connection planId m jobs).2 := by
  induction jobs generalizing m with
  | nil => exact fun job never => absurd never List.not_mem_nil
  | cons first jobs ih =>
    intro job member
    by_cases recorded : first.id ∈ m.cancelledBeforeEnqueue
    · simp only [queueJobs, takePendingCancel, recorded, if_true]
      rcases List.mem_cons.mp member with rfl | later
      · exact Or.inr List.mem_cons_self
      · exact (ih _ job later).imp_right (List.mem_cons_of_mem _)
    · simp only [queueJobs, takePendingCancel, recorded, if_false]
      rcases List.mem_cons.mp member with rfl | later
      · exact Or.inl (queueJobs_waits _ _ _ ⟨_, List.mem_append_right _ (List.mem_singleton_self _), rfl, rfl⟩)
      · exact ih _ job later

theorem enqueue_waits (connection : ConnectionId) (plan : TransferPlanId) (jobs : List TransferJob) (recordRoot : Bool)
    (waits : m.Waits planId transferId) : (m.enqueue connection plan jobs recordRoot).1.Waits planId transferId := by
  have adopted : (m.adopt plan jobs recordRoot).Waits planId transferId := by
    rw [adopt_frame]
    exact waits
  have queued := queueJobs_waits connection plan jobs adopted
  unfold enqueue
  split
  · exact waits
  · dsimp only
    split
    · rw [cleanupPlanIfIdle_frame]
      exact queued
    · exact queued

theorem enqueue_takes (m : TransferManager) (connection : ConnectionId) (planId : TransferPlanId) (jobs : List TransferJob)
    (recordRoot : Bool) : ∀ job ∈ jobs, (m.enqueue connection planId jobs recordRoot).1.Waits planId job.id ∨
      ∃ event ∈ (m.enqueue connection planId jobs recordRoot).2, event.settles planId job.id = true := by
  intro job member
  have taken := queueJobs_takes connection planId jobs (m.adopt planId jobs recordRoot) job member
  unfold enqueue
  split
  · exact Or.inr ⟨_, List.mem_singleton_self _, by simp [TransferEvent.settles]⟩
  · rcases taken with queued | skipped
    · refine Or.inl ?_
      dsimp only
      split
      · rw [cleanupPlanIfIdle_frame]
        exact queued
      · exact queued
    · exact Or.inr ⟨_, List.mem_map_of_mem skipped, by simp [TransferEvent.settles]⟩

theorem cancelPlan_waits (cancelled : TransferPlanId) (waits : m.Waits planId transferId) :
    (m.cancelPlan cancelled).1.Waits planId transferId ∨
      ∃ event ∈ (m.cancelPlan cancelled).2, event.settles planId transferId = true := by
  obtain ⟨queued, member, rfl, rfl⟩ := waits
  by_cases own : queued.planId = cancelled
  · subst own
    have interrupts : m.interrupted queued.planId ≠ [] := by
      apply List.ne_nil_of_mem
      apply List.mem_append_left
      exact List.mem_map_of_mem (List.mem_filter.mpr ⟨member, by simp⟩)
    rw [m.cancelPlan_events interrupts]
    exact Or.inr ⟨_, List.mem_singleton_self _, by simp [TransferEvent.settles]⟩
  · refine Or.inl ⟨queued, ?_, rfl, rfl⟩
    rw [cancelPlan_pending]
    exact List.mem_filter.mpr ⟨member, by simpa using own⟩

theorem handleRequest_waits (waits : m.Waits planId transferId) (request : TransferManagerRequest) :
    (m.handleRequest request).1.Waits planId transferId ∨
      ∃ event ∈ (m.handleRequest request).2, event.settles planId transferId = true := by
  cases request with
  | enqueue connection plan jobs => exact Or.inl (enqueue_waits connection plan jobs true waits)
  | cancel cancelled plan =>
    rw [handleRequest]
    obtain ⟨root, _, step⟩ | ⟨position, queued, get, is, step⟩ | ⟨_, step⟩ | ⟨_, _, _, step⟩ := m.cancel_cases cancelled plan
    · rw [step]
      exact cancelPlan_waits root waits
    · rw [step]
      obtain ⟨other, member, rfl, rfl⟩ := waits
      obtain ⟨place, found⟩ := List.mem_iff_getElem?.mp member
      by_cases here : place = position
      · subst here
        cases get.symm.trans found
        exact Or.inr ⟨_, List.mem_singleton_self _, by simp [TransferEvent.settles, is]⟩
      · refine Or.inl ⟨other, ?_, rfl, rfl⟩
        rw [cleanupPlanIfIdle_frame]
        exact List.mem_eraseIdx_iff_getElem?.mpr ⟨place, here, found⟩
    · rw [step]
      exact Or.inl waits
    · rw [step]
      exact Or.inl waits
  | cancelPlan plan => exact cancelPlan_waits plan waits
  | forgetPlan plan => exact Or.inl waits
  | retry retried connected =>
    simp only [handleRequest, retry]
    cases found : m.retryRoutes.lookup retried with
    | none => exact Or.inl waits
    | some route =>
      have kept : ({ m with retryRoutes := m.retryRoutes.erase retried }.takePendingCancel retried).1.Waits planId transferId := by
        rw [takePendingCancel_frame]
        exact waits
      cases connected with
      | none => exact Or.inl kept
      | some connection => exact Or.inl (enqueue_waits connection route.planId [route.job] false kept)

theorem handleRequest_takes (m : TransferManager) (request : TransferManagerRequest) {job : TransferJob}
    (put : (planId, job) ∈ m.puts request) : (m.handleRequest request).1.Waits planId job.id ∨
      ∃ event ∈ (m.handleRequest request).2, event.settles planId job.id = true := by
  cases request with
  | enqueue connection plan jobs =>
    obtain ⟨other, member, is⟩ := List.mem_map.mp put
    cases is
    exact enqueue_takes m connection planId jobs true job member
  | cancel | cancelPlan | forgetPlan => cases put
  | retry retried connected =>
    cases connected with
    | none => cases put
    | some connection =>
      rw [puts, Option.mem_toList, Option.map_eq_some_iff] at put
      obtain ⟨route, found, is⟩ := put
      cases is
      simp only [handleRequest, retry, found]
      exact enqueue_takes _ connection route.planId [route.job] false route.job (List.mem_singleton_self _)

end TransferManager

namespace TransferSystem

open TransferManager

section Counting

variable (P : TransferJob → Bool) {s : TransferSystem}

def startedTasks (outputs : List TransferOutput) : List TransferTask :=
  outputs.filterMap fun output =>
    match output with
    | .started task => some task
    | .sent _ => none

/-- The jobs that an operation puts into the queue. -/
def puts (s : TransferSystem) : TransferOp → List (TransferPlanId × TransferJob)
  | .receive request => if s.phase = .ready then s.manager.puts request else []
  | _ => []

theorem startedTasks_nil {op : TransferOp} (other : op ≠ .startNext) : startedTasks (machine.out s op) = [] := by
  rw [startedTasks, List.filterMap_eq_nil_iff]
  intro output member
  cases output with
  | sent event => rfl
  | started task => exact absurd (started_at member).1 other

theorem next_count (stable : ∀ job policy, P { job with conflictPolicy := policy } = P job) (op : TransferOp) :
    (machine.next s op).manager.jobsQueued P + (startedTasks (machine.out s op)).countP (fun task => P task.job) ≤
      s.manager.jobsQueued P + (s.puts op).countP fun put => P put.2 := by
  by_cases starts : op = .startNext
  · subst starts
    change s.startNext.1.manager.jobsQueued P + (startedTasks s.startNext.2).countP (fun task => P task.job) ≤ _
    obtain ⟨position, queued, _, _, _, get, _, step⟩ | ⟨⟨phase, step⟩, _⟩ := s.startNext_cases
    · have split_ := countP_of_getElem? (fun queued : QueuedTransfer => P queued.job) get
      have own : P ((s.manager.withoutPending position queued).launch queued).1.job = P queued.job := stable queued.job _
      have rest : (s.launched position queued).manager.jobsQueued P =
          (s.manager.pending.eraseIdx position).countP fun queued => P queued.job := rfl
      rw [step]
      dsimp only
      rw [rest, startedTasks, List.filterMap_cons, List.filterMap_nil, List.countP_singleton, own, jobsQueued]
      omega
    · rw [step]
      exact Nat.le_add_right _ _
  · rw [startedTasks_nil starts, List.countP_nil, Nat.add_zero]
    cases s.next_moves op with
    | stays manager _ | restages _ _ _ _ manager _ | decides _ manager _ =>
      rw [manager]
      exact Nat.le_add_right _ _
    | handles request is ready manager _ =>
      subst is
      rw [manager, puts, if_pos ready]
      exact handleRequest_count P s.manager request
    | starts _ _ is => exact absurd is starts
    | completes _ task result _ _ manager _ =>
      refine Nat.le_add_right_of_le (le_of_eq ?_)
      rw [manager, jobsQueued, handleCompleted_pending]
      rfl

end Counting

variable {s : TransferSystem} {past : List (TransferOp × List TransferOutput)} {planId : TransferPlanId}
  {transferId : TransferId}

def Runs (s : TransferSystem) (planId : TransferPlanId) (transferId : TransferId) : Prop :=
  ∃ task ∈ s.tasks, task.planId = planId ∧ task.job.id = transferId ∧ task.stage = .running

/-- The job waits, or runs, or its end has been told. -/
def KeptOrTold (past : List (TransferOp × List TransferOutput)) (s : TransferSystem) (planId : TransferPlanId)
    (transferId : TransferId) : Prop :=
  s.manager.Waits planId transferId ∨ s.Runs planId transferId ∨
    ∃ event ∈ emitted past s, event.settles planId transferId = true

theorem emitted_concat (op : TransferOp) : emitted (past ++ [(op, machine.out s op)]) (machine.next s op) =
    sentEvents past ++ (sentEvents [(op, machine.out s op)] ++ (machine.next s op).phase.outbox) := by
  rw [emitted, sentEvents, List.flatMap_append, List.append_assoc]
  rfl

theorem outbox_kept {event : TransferEvent} (waiting : event ∈ s.phase.outbox) (op : TransferOp) :
    event ∈ sentEvents [(op, machine.out s op)] ++ (machine.next s op).phase.outbox := by
  cases op with
  | receive request =>
    change event ∈ (s.receive request).phase.outbox
    unfold receive
    split
    · rename_i ready
      rw [ready] at waiting
      cases waiting
    · exact waiting
  | send =>
    change event ∈ sentEvents [(TransferOp.send, s.send.2)] ++ s.send.1.phase.outbox
    unfold send
    split
    · rename_i first outbox busy
      rw [busy] at waiting
      exact waiting
    · exact waiting
  | startNext =>
    change event ∈ sentEvents [(TransferOp.startNext, s.startNext.2)] ++ s.startNext.1.phase.outbox
    unfold startNext
    split
    · rename_i busy
      rw [busy] at waiting
      cases waiting
    · exact waiting
  | report index result =>
    refine List.mem_append_right _ ?_
    change event ∈ (s.report index result).1.phase.outbox
    unfold report
    split
    · exact waiting
    · split <;> exact waiting
  | release index =>
    change event ∈ (s.release index).phase.outbox
    unfold release
    split
    · exact waiting
    · split <;> exact waiting
  | complete index =>
    change event ∈ (s.complete index).phase.outbox
    unfold complete
    split
    · rename_i ready _
      rw [ready] at waiting
      cases waiting
    · exact waiting
  | setPolicy index policy =>
    change event ∈ (s.setPolicy index policy).phase.outbox
    unfold setPolicy
    split
    · exact waiting
    · split <;> exact waiting

theorem emitted_kept {event : TransferEvent} (told : event ∈ emitted past s) (op : TransferOp) :
    event ∈ emitted (past ++ [(op, machine.out s op)]) (machine.next s op) := by
  rw [emitted_concat]
  rcases List.mem_append.mp told with sent | waiting
  · exact List.mem_append_left _ sent
  · exact List.mem_append_right _ (outbox_kept waiting op)

theorem runs_kept (runs : s.Runs planId transferId) (op : TransferOp) : (machine.next s op).Runs planId transferId ∨
    ∃ event ∈ sentEvents [(op, machine.out s op)], event.settles planId transferId = true := by
  obtain ⟨task, member, rfl, rfl, running⟩ := runs
  obtain ⟨place, found⟩ := List.mem_iff_getElem?.mp member
  have restaged : ∀ index other (stage : TaskStage), s.tasks[index]? = some other → other.stage ≠ .running →
      task ∈ s.tasks.set index { other with stage := stage } := by
    intro index other stage get ended
    apply List.mem_iff_getElem?.mpr
    refine ⟨place, ?_⟩
    rw [List.getElem?_set_ne, found]
    rintro rfl
    cases get.symm.trans found
    exact ended running
  cases op with
  | receive request =>
    refine Or.inl ⟨task, ?_, rfl, rfl, running⟩
    change task ∈ (s.receive request).tasks
    unfold receive
    split <;> exact member
  | send =>
    refine Or.inl ⟨task, ?_, rfl, rfl, running⟩
    change task ∈ s.send.1.tasks
    unfold send
    split <;> exact member
  | startNext =>
    refine Or.inl ⟨task, ?_, rfl, rfl, running⟩
    change task ∈ s.startNext.1.tasks
    unfold startNext
    split
    · split
      · exact member
      · exact List.mem_append_left _ member
    · exact member
  | report index result =>
    change (s.report index result).1.Runs task.planId task.job.id ∨
      ∃ event ∈ sentEvents [(TransferOp.report index result, (s.report index result).2)], _
    cases get : s.tasks[index]? with
    | none =>
      simp only [report, get]
      exact Or.inl ⟨task, member, rfl, rfl, running⟩
    | some other =>
      by_cases may : other.stage = .running ∧ other.canEndWith result
      · have step : s.report index result = (s.withTask index { other with stage := .reported result },
            [.sent (result.terminalEvent other.job.id)]) := by
          simp only [report, get]
          exact if_pos may
        rw [step]
        by_cases here : place = index
        · subst here
          cases get.symm.trans found
          exact Or.inr ⟨_, List.mem_singleton_self _, result.terminalEvent_settles _ _⟩
        · refine Or.inl ⟨task, List.mem_iff_getElem?.mpr ⟨place, ?_⟩, rfl, rfl, running⟩
          exact (List.getElem?_set_ne (Ne.symm here)).trans found
      · have step : s.report index result = (s, []) := by
          simp only [report, get]
          exact if_neg may
        rw [step]
        exact Or.inl ⟨task, member, rfl, rfl, running⟩
  | release index =>
    refine Or.inl ⟨task, ?_, rfl, rfl, running⟩
    change task ∈ (s.release index).tasks
    unfold release
    split
    · exact member
    · rename_i other get
      split
      · rename_i result stage
        exact restaged index other _ get (by simp [stage])
      · exact member
  | complete index =>
    refine Or.inl ⟨task, ?_, rfl, rfl, running⟩
    change task ∈ (s.complete index).tasks
    unfold complete
    split
    · rename_i other _ get
      split
      · rename_i result stage
        refine List.mem_eraseIdx_iff_getElem?.mpr ⟨place, ?_, found⟩
        rintro rfl
        cases get.symm.trans found
        cases stage.symm.trans running
      · exact member
    · exact member
  | setPolicy index policy =>
    refine Or.inl ⟨task, ?_, rfl, rfl, running⟩
    change task ∈ (s.setPolicy index policy).tasks
    unfold setPolicy
    split
    · exact member
    · split <;> exact member

theorem waits_kept (waits : s.manager.Waits planId transferId) (op : TransferOp) :
    (machine.next s op).manager.Waits planId transferId ∨ (machine.next s op).Runs planId transferId ∨
      ∃ event ∈ (machine.next s op).phase.outbox, event.settles planId transferId = true := by
  by_cases received : ∃ request, op = .receive request
  · obtain ⟨request, rfl⟩ := received
    change (s.receive request).manager.Waits planId transferId ∨ (s.receive request).Runs planId transferId ∨
      ∃ event ∈ (s.receive request).phase.outbox, _
    unfold receive
    split
    · exact (handleRequest_waits waits request).imp_right Or.inr
    · exact Or.inl waits
  · cases s.next_moves op with
    | stays manager _ | restages _ _ _ _ manager _ | decides _ manager _ =>
      refine Or.inl ?_
      rw [manager]
      exact waits
    | handles request is => exact absurd ⟨request, is⟩ received
    | starts position queued _ get _ step =>
      obtain ⟨other, member, rfl, rfl⟩ := waits
      obtain ⟨place, found⟩ := List.mem_iff_getElem?.mp member
      rw [step]
      by_cases here : place = position
      · subst here
        cases get.symm.trans found
        exact Or.inr (Or.inl ⟨_, List.mem_append_right _ (List.mem_singleton_self _), rfl, rfl, rfl⟩)
      · exact Or.inl ⟨other, List.mem_eraseIdx_iff_getElem?.mpr ⟨place, here, found⟩, rfl, rfl⟩
    | completes _ task result _ _ manager _ =>
      refine Or.inl ?_
      rw [manager, Waits, handleCompleted_pending]
      exact waits

theorem keptOrTold_next (h : KeptOrTold past s planId transferId) (op : TransferOp) :
    KeptOrTold (past ++ [(op, machine.out s op)]) (machine.next s op) planId transferId := by
  rcases h with waits | runs | ⟨event, told, settles⟩
  · obtain waits | runs | ⟨event, waiting, settles⟩ := waits_kept waits op
    · exact Or.inl waits
    · exact Or.inr (Or.inl runs)
    · exact Or.inr (Or.inr ⟨event, List.mem_append_right _ waiting, settles⟩)
  · obtain runs | ⟨event, sent, settles⟩ := runs_kept runs op
    · exact Or.inr (Or.inl runs)
    · refine Or.inr (Or.inr ⟨event, ?_, settles⟩)
      rw [emitted_concat]
      exact List.mem_append_right _ (List.mem_append_left _ sent)
  · exact Or.inr (Or.inr ⟨event, emitted_kept told op, settles⟩)

/-- No job is lost: what is handed over, or put back by a retry, waits or runs until its end is told. -/
theorem no_job_lost {op : TransferOp} {job : TransferJob} (put : (planId, job) ∈ s.puts op) (ops : List TransferOp) :
    KeptOrTold (machine.log s (op :: ops)) (machine.run s (op :: ops)) planId job.id := by
  have first : KeptOrTold (machine.log s [op]) (machine.run s [op]) planId job.id := by
    cases op with
    | receive request =>
      by_cases ready : s.phase = .ready
      · rw [puts, if_pos ready] at put
        have step : machine.next s (.receive request) =
            { s with manager := (s.manager.handleRequest request).1, phase := .busy (s.manager.handleRequest request).2 } := by
          change s.receive request = _
          unfold receive
          rw [ready]
        rw [machine.run_cons, machine.run_nil, step]
        rcases handleRequest_takes s.manager request put with waits | ⟨event, said, settles⟩
        · exact Or.inl waits
        · exact Or.inr (Or.inr ⟨event, List.mem_append_right _ said, settles⟩)
      · rw [puts, if_neg ready] at put
        cases put
    | send | startNext | report | release | complete | setPolicy => cases put
  have whole := machine.log_invariant_append (I := fun past s => KeptOrTold past s planId job.id)
    (fun past s i h => keptOrTold_next h i) first ops
  exact whole

theorem no_job_lost_on_cancel :
    KeptOrTold (machine.log {} [.receive (.enqueue ⟨1⟩ ⟨1⟩ [TransferStore.sampleJob 1, TransferStore.sampleJob 2]),
      .startNext, .startNext, .receive (.cancelPlan ⟨1⟩)])
      (machine.run {} [.receive (.enqueue ⟨1⟩ ⟨1⟩ [TransferStore.sampleJob 1, TransferStore.sampleJob 2]), .startNext,
        .startNext, .receive (.cancelPlan ⟨1⟩)])
      ⟨1⟩ ⟨2⟩ := by
  have put : (⟨1⟩, TransferStore.sampleJob 2) ∈ ({} : TransferSystem).puts
      (.receive (.enqueue ⟨1⟩ ⟨1⟩ [TransferStore.sampleJob 1, TransferStore.sampleJob 2])) := by
    simp [puts, TransferManager.puts]
  exact no_job_lost put [.startNext, .startNext, .receive (.cancelPlan ⟨1⟩)]

end TransferSystem

end MacSftp
