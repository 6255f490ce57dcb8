import MacSftp.Manager.Cancellation
import MacSftp.Transfer.CancelOrder

namespace MacSftp

open Lib

namespace TransferSystem

open TransferManager

def skippedBefore (planId : TransferPlanId) (events : List TransferEvent) : List TransferId :=
  (events.takeWhile (fun event => event ≠ .planCancelled planId)).filterMap (fun event =>
    match event with
    | .skipped transferId => some transferId
    | _ => none)

def CancelsPlan (m : TransferManager) (planId : TransferPlanId) : TransferManagerRequest → Prop
  | .cancelPlan plan => plan = planId
  | .cancel transferId _ => m.planOfRoot transferId = some planId
  | _ => False

/-- The steps that race with the cancel: the manager hands its event to the channel, and the jobs of
the plan end as skipped. -/
def Races (planId : TransferPlanId) (s : TransferSystem) : TransferOp → Prop
  | .send | .release _ => True
  | .report index result => ∃ task ∈ s.tasks[index]?, task.planId = planId ∧
      result.terminalEvent task.job.id = .skipped task.job.id
  | _ => False

instance (m : TransferManager) (planId : TransferPlanId) (request : TransferManagerRequest) :
    Decidable (CancelsPlan m planId request) :=
  match request with
  | .cancelPlan plan => inferInstanceAs (Decidable (plan = planId))
  | .cancel transferId _ => inferInstanceAs (Decidable (m.planOfRoot transferId = some planId))
  | .enqueue _ _ _ | .forgetPlan _ | .retry _ _ => isFalse id

instance (planId : TransferPlanId) (s : TransferSystem) (op : TransferOp) : Decidable (Races planId s op) :=
  match op with
  | .report index result => inferInstanceAs (Decidable (∃ task ∈ s.tasks[index]?, task.planId = planId ∧
      result.terminalEvent task.job.id = .skipped task.job.id))
  | .send | .release _ => isTrue trivial
  | .receive _ | .startNext | .complete _ | .setPolicy _ _ => isFalse id

theorem receive_cancel {s : TransferSystem} {planId : TransferPlanId} {request : TransferManagerRequest}
    (ready : s.phase = .ready) (cancels : CancelsPlan s.manager planId request)
    (interrupts : s.manager.interrupted planId ≠ []) :
    (s.receive request).phase = .busy [.planCancelled planId] ∧ (s.receive request).tasks = s.tasks := by
  have events : (s.manager.handleRequest request).2 = [.planCancelled planId] := by
    cases request with
    | cancelPlan plan =>
      cases cancels
      exact cancelPlan_events _ interrupts
    | cancel transferId reported =>
      have root : s.manager.planOfRoot transferId = some planId := cancels
      simp only [handleRequest, cancel, root]
      exact cancelPlan_events _ interrupts
    | enqueue | forgetPlan | retry => cases cancels
  simp only [receive, ready, events, and_self]

def JobsListed (s : TransferSystem) (planId : TransferPlanId) (children : List TransferId) : Prop :=
  ∀ task ∈ s.tasks, task.planId = planId → task.job.id ∈ children

instance (s : TransferSystem) (planId : TransferPlanId) (children : List TransferId) :
    Decidable (s.JobsListed planId children) :=
  inferInstanceAs (Decidable (∀ task ∈ s.tasks, task.planId = planId → task.job.id ∈ children))

theorem withTask_listed {s : TransferSystem} {planId : TransferPlanId} {children : List TransferId}
    (listed : s.JobsListed planId children) {index : Nat} {task : TransferTask} (get : s.tasks[index]? = some task)
    (stage : TaskStage) : (s.withTask index { task with stage := stage }).JobsListed planId children := by
  intro other member same
  obtain old | rfl := List.mem_or_eq_of_mem_set member
  · exact listed other old same
  · exact listed task (List.mem_of_getElem? get) same

theorem race_step {planId : TransferPlanId} {s : TransferSystem} {op : TransferOp} {children : List TransferId}
    (race : Races planId s op) (listed : s.JobsListed planId children) (other : op ≠ .send) :
    (machine.next s op).JobsListed planId children ∧ (machine.next s op).phase = s.phase ∧
      ∃ skips : List TransferId, (∀ transferId ∈ skips, transferId ∈ children) ∧
        machine.out s op = skips.map (fun transferId => .sent (.skipped transferId)) := by
  cases op with
  | send => exact absurd rfl other
  | release index =>
    rw [show machine.next s (.release index) = s.release index from rfl]
    refine ⟨?_, ?_, [], by simp, rfl⟩ <;> unfold release
    · split
      · exact listed
      · rename_i task get
        split
        · exact withTask_listed listed get _
        · exact listed
    · split
      · rfl
      · split <;> rfl
  | report index result =>
    obtain ⟨task, get, same, skipped⟩ := race
    rw [show machine.next s (.report index result) = (s.report index result).1 from rfl,
      show machine.out s (.report index result) = (s.report index result).2 from rfl]
    have get' : s.tasks[index]? = some task := get
    simp only [report, get']
    split
    · refine ⟨withTask_listed listed get' _, rfl, [task.job.id], ?_, by rw [skipped]; rfl⟩
      simpa using listed task (List.mem_of_getElem? get') same
    · exact ⟨listed, rfl, [], by simp, rfl⟩
  | receive | startNext | complete | setPolicy => exact absurd race id

theorem sentEvents_skips (op : TransferOp) (skips : List TransferId) :
    sentEvents [(op, skips.map (fun transferId => .sent (.skipped transferId)))] = skips.map .skipped := by
  simp [sentEvents, List.filterMap_map]

theorem race_after_send {planId : TransferPlanId} {s : TransferSystem} {children : List TransferId}
    (phase : s.phase = .busy []) (listed : s.JobsListed planId children) {ops : List TransferOp}
    (race : machine.Admissible (Races planId) s ops) :
    ∃ late : List TransferId, sentEvents (machine.log s ops) = late.map .skipped := by
  induction ops generalizing s with
  | nil => exact ⟨[], rfl⟩
  | cons op ops ih =>
    by_cases send : op = .send
    · subst send
      have stays : machine.step s .send = (s, []) := by simp only [machine, apply, TransferSystem.send, phase]
      have rest := race.2
      rw [Machine.next, stays] at rest
      obtain ⟨late, events⟩ := ih phase listed rest
      refine ⟨late, ?_⟩
      rw [Machine.log, Machine.next, Machine.out, stays, sentEvents_cons, events]
      rfl
    · obtain ⟨listed', same, skips, _, out⟩ := race_step race.1 listed send
      obtain ⟨late, events⟩ := ih (same.trans phase) listed' race.2
      refine ⟨skips ++ late, ?_⟩
      rw [Machine.log, out, sentEvents_cons, sentEvents_skips, events, List.map_append]

theorem race_events {planId : TransferPlanId} {s : TransferSystem} {children : List TransferId}
    (phase : s.phase = .busy [.planCancelled planId]) (listed : s.JobsListed planId children) {ops : List TransferOp}
    (race : machine.Admissible (Races planId) s ops) (sent : (machine.run s ops).phase = .busy []) :
    ∃ early late : List TransferId, (∀ transferId ∈ early, transferId ∈ children) ∧
      sentEvents (machine.log s ops) = early.map .skipped ++ .planCancelled planId :: late.map .skipped := by
  induction ops generalizing s with
  | nil =>
    rw [Machine.run_nil, phase] at sent
    cases sent
  | cons op ops ih =>
    by_cases send : op = .send
    · subst send
      have moves : machine.step s .send = ({ s with phase := .busy [] }, [.sent (.planCancelled planId)]) := by
        simp only [machine, apply, TransferSystem.send, phase]
      have rest := race.2
      rw [Machine.next, moves] at rest
      have listed' : { s with phase := .busy [] }.JobsListed planId children := listed
      obtain ⟨late, events⟩ := race_after_send rfl listed' rest
      refine ⟨[], late, by simp, ?_⟩
      rw [Machine.log, Machine.next, Machine.out, moves, sentEvents_cons, events]
      rfl
    · obtain ⟨listed', same, skips, children_, out⟩ := race_step race.1 listed send
      obtain ⟨early, late, members, events⟩ := ih (same.trans phase) listed' race.2 sent
      refine ⟨skips ++ early, late, ?_, ?_⟩
      · intro transferId member
        exact (List.mem_append.mp member).elim (children_ transferId) (members transferId)
      · rw [Machine.log, out, sentEvents_cons, sentEvents_skips, events, List.map_append, List.append_assoc]

theorem skippedBefore_race (planId : TransferPlanId) (early late : List TransferId) :
    skippedBefore planId (early.map .skipped ++ .planCancelled planId :: late.map .skipped) = early := by
  have stops : ∀ event ∈ early.map TransferEvent.skipped, decide (event ≠ .planCancelled planId) = true := by simp
  rw [skippedBefore, List.takeWhile_append_of_pos stops, List.takeWhile_cons_of_neg (by simp), List.append_nil,
    List.filterMap_map]
  exact List.filterMap_some

theorem timed_skips {timed : List (TransferEvent × Timestamp)} {ids : List TransferId}
    (events : timed.map Prod.fst = ids.map .skipped) :
    ∃ skips : List (TransferId × Timestamp), skips.map Prod.fst = ids ∧
      timed = skips.map (fun skip => (.skipped skip.1, skip.2)) := by
  induction ids generalizing timed with
  | nil => exact ⟨[], rfl, List.map_eq_nil_iff.mp events⟩
  | cons id ids ih =>
    obtain ⟨⟨event, now⟩, rest, rfl, rfl, tail⟩ := List.map_eq_cons_iff.mp events
    obtain ⟨skips, same, rfl⟩ := ih tail
    exact ⟨(id, now) :: skips, congrArg (id :: ·) same, rfl⟩

theorem plan_cancel_wins_iff (storeOps : List StoreOp)
    (legal : TransferStore.machine.Admissible (fun store op => op.Legal store) {} storeOps) (plan : TransferPlan)
    (known : plan ∈ (TransferStore.machine.run {} storeOps).plans) (s : TransferSystem) (ready : s.phase = .ready)
    (request : TransferManagerRequest) (cancels : CancelsPlan s.manager plan.id request)
    (interrupts : s.manager.interrupted plan.id ≠ []) (listed : s.JobsListed plan.id plan.childJobs)
    (ops : List TransferOp) (race : machine.Admissible (Races plan.id) (s.receive request) ops)
    (sent : (machine.run (s.receive request) ops).phase = .busy []) (reduced : List (TransferEvent × Timestamp))
    (order : reduced.map Prod.fst = sentEvents (machine.log (s.receive request) ops)) :
    ((TransferStore.machine.run {} storeOps).reduce reduced).planState plan.id = some .cancelled ↔
      (TransferStore.machine.run {} storeOps).CancelInTime plan
        (skippedBefore plan.id (sentEvents (machine.log (s.receive request) ops))) := by
  obtain ⟨phase, tasks⟩ := receive_cancel ready cancels interrupts
  have listed' : (s.receive request).JobsListed plan.id plan.childJobs := by rwa [JobsListed, tasks]
  obtain ⟨early, late, members, events⟩ := race_events phase listed' race sent
  rw [events] at order ⊢
  rw [skippedBefore_race]
  obtain ⟨before, after, rfl, first, second⟩ := List.map_eq_append_iff.mp order
  obtain ⟨⟨event, now⟩, rest, rfl, rfl, third⟩ := List.map_eq_cons_iff.mp second
  obtain ⟨earlySkips, rfl, rfl⟩ := timed_skips first
  obtain ⟨lateSkips, rfl, rfl⟩ := timed_skips third
  have children : ∀ skip ∈ earlySkips, skip.1 ∈ plan.childJobs :=
    fun skip member => members skip.1 (List.mem_map_of_mem member)
  exact TransferStore.cancelled_iff_in_time (TransferStore.reachable_valid legal) known children now

def twoUploadsPlanned : List StoreOp := TransferStore.sampleEvents
  [.planStarted ⟨TransferStore.samplePlan 1 1 [], TransferStore.sampleJob 1⟩,
    .planProgress ⟨⟨1⟩, [TransferStore.sampleJob 2, TransferStore.sampleJob 3], 2, some 0⟩]

def twoUploadsRunning : TransferSystem := machine.run {}
  (.receive (.enqueue ⟨1⟩ ⟨1⟩ [TransferStore.sampleJob 2, TransferStore.sampleJob 3]) :: List.replicate 3 .startNext)

def reportSkipped (index : Nat) : TransferOp := .report index (.stopped { code := .cancelled, title := "", message := "" } false)

theorem plan_cancel_wins_last_job_late :
    ((TransferStore.machine.run {} twoUploadsPlanned).reduce
      [(.skipped ⟨2⟩, ⟨1⟩), (.planCancelled ⟨1⟩, ⟨2⟩), (.skipped ⟨3⟩, ⟨3⟩)]).planState ⟨1⟩ = some .cancelled :=
  (plan_cancel_wins_iff twoUploadsPlanned (by decide) (TransferStore.samplePlan 1 1 [2, 3]) (by decide)
    twoUploadsRunning (by decide +kernel) (.cancelPlan ⟨1⟩) rfl (by decide +kernel) (by decide +kernel)
    [reportSkipped 0, .send, reportSkipped 1] (by decide +kernel) (by decide +kernel)
    [(.skipped ⟨2⟩, ⟨1⟩), (.planCancelled ⟨1⟩, ⟨2⟩), (.skipped ⟨3⟩, ⟨3⟩)] (by decide +kernel)).mpr (by decide +kernel)

theorem plan_cancel_loses_to_completion :
    TransferStore.machine.Admissible (fun store op => op.Legal store) {} twoUploadsPlanned ∧
      TransferStore.samplePlan 1 1 [2, 3] ∈ (TransferStore.machine.run {} twoUploadsPlanned).plans ∧
      twoUploadsRunning.phase = .ready ∧ twoUploadsRunning.manager.interrupted ⟨1⟩ = [⟨3⟩, ⟨2⟩] ∧
      machine.Admissible (Races ⟨1⟩) (twoUploadsRunning.receive (.cancelPlan ⟨1⟩))
        [reportSkipped 0, reportSkipped 1, .send] ∧
      sentEvents (machine.log (twoUploadsRunning.receive (.cancelPlan ⟨1⟩)) [reportSkipped 0, reportSkipped 1, .send]) =
        [.skipped ⟨2⟩, .skipped ⟨3⟩, .planCancelled ⟨1⟩] ∧
      ((TransferStore.machine.run {} twoUploadsPlanned).reduce
        [(.skipped ⟨2⟩, ⟨1⟩), (.skipped ⟨3⟩, ⟨2⟩), (.planCancelled ⟨1⟩, ⟨3⟩)]).planState ⟨1⟩ = some .completed := by
  refine ⟨by decide, by decide, ?_, ?_, ?_, ?_, ?_⟩ <;> decide +kernel

end TransferSystem

end MacSftp
