import MacSftp.App.EditUploads

namespace MacSftp

open Lib

/-- A command that the runtime takes, and what its planning task meets. -/
def planningSteps (r : Runtime) (command : StartTransferCommand) (now : Timestamp) (inputs : List PlanningInput) :
    List RuntimeOp :=
  .startTransfer command now true :: inputs.map (.plan r.planning.length)

/-- One file is found, nobody cancels, and the connection is there. -/
def planInputs (source destination : TransferEndpoint) (size : Option Nat) (connection : ConnectionId) :
    List PlanningInput :=
  [.emitChild source destination size, .finish, .finish] ++ List.replicate 4 (.proceed (.acquired connection))

def EditUploadsOp.isPlanning : EditUploadsOp → Bool
  | plan .. | planFails .. => true
  | _ => false

def RuntimeOutput.enqueued : RuntimeOutput → Option TransferManagerRequest
  | requested (.enqueue connection planId jobs) => some (.enqueue connection planId jobs)
  | _ => none

namespace Runtime

variable {r : Runtime} (running : r.managerOpen = true) (command : StartTransferCommand) (now : Timestamp)

def plannedTask (r : Runtime) (command : StartTransferCommand) (now : Timestamp) : PlanningTask where
  command := command
  planId := ⟨r.nextPlanId⟩
  rootJob := (newPlan command ⟨r.nextPlanId⟩ ⟨r.nextTransferId⟩ now).2
  hasConnection := true

def announced (r : Runtime) (command : StartTransferCommand) (now : Timestamp) : TransferEvent :=
  .planStarted ⟨(newPlan command ⟨r.nextPlanId⟩ ⟨r.nextTransferId⟩ now).1,
    (newPlan command ⟨r.nextPlanId⟩ ⟨r.nextTransferId⟩ now).2⟩

include running

theorem planInputs_run (source destination : TransferEndpoint) (size : Option Nat) (connection : ConnectionId) :
    let steps := planningSteps r command now (planInputs source destination size connection)
    let job := (r.plannedTask command now).childJob ⟨r.nextTransferId + 1⟩ source destination
    (machine.log r steps).flatMap Prod.snd =
        [.emitted (r.announced command now),
          .emitted (.planProgress ⟨⟨r.nextPlanId⟩, [job], 1, Planner.addBytes (some 0) size⟩),
          .emitted (.planCompleted ⟨r.nextPlanId⟩), .requested (.enqueue connection ⟨r.nextPlanId⟩ [job])] ∧
      (machine.run r steps).nextPlanId = r.nextPlanId + 1 ∧ (machine.run r steps).nextTransferId = r.nextTransferId + 2 ∧
      (machine.run r steps).managerOpen = true := by
  simp [planningSteps, planInputs, Machine.log, Machine.next, Machine.out, machine, apply, startTransfer, plan, advance,
    request, PlanningTask.step, PlanningTask.emitChild, Planner.emitChild, Planner.queueProgress, Planner.flushProgress,
    PlanningTask.finishPlanning, PlanningTask.completePlanning, PlanningTask.afterPlanning, PlanningTask.connect,
    PlanningTask.afterEnqueue, running, announced, plannedTask, PlanningTask.childJob]

theorem abandon_run (error : UserFacingError) :
    let steps := planningSteps r command now (.abandon (some error) :: List.replicate 2 (.proceed .closed))
    (machine.log r steps).flatMap Prod.snd =
        [.emitted (r.announced command now), .emitted ((r.plannedTask command now).finishError error),
          .requested (.forgetPlan ⟨r.nextPlanId⟩)] ∧
      (machine.run r steps).planningRetries.lookup ⟨r.nextTransferId⟩ = some command ∧
      (machine.run r steps).nextPlanId = r.nextPlanId + 1 ∧ (machine.run r steps).nextTransferId = r.nextTransferId + 1 ∧
      (machine.run r steps).managerOpen = true := by
  simp [planningSteps, Machine.log, Machine.next, Machine.out, machine, apply, startTransfer, plan, advance, request,
    PlanningTask.step, PlanningTask.finishError, PlanningTask.afterPlanning, PlanningTask.act, running, announced, plannedTask]

end Runtime

namespace EditUploads

variable {s : EditUploads} {r : Runtime} {index : Nat} {sender : Option EditSessionId} {command : StartTransferCommand}

/-- The runtime has given out the same ids, and its manager runs. -/
structure Paired (s : EditUploads) (r : Runtime) : Prop where
  plans : r.nextPlanId = s.nextPlanId
  transfers : r.nextTransferId = s.nextTransferId
  running : r.managerOpen = true

theorem Paired.plannedTask (paired : Paired s r) (command : StartTransferCommand) (now : Timestamp) :
    r.plannedTask command now = s.planningTask command now := by
  rw [Runtime.plannedTask, paired.plans, paired.transfers]
  rfl

theorem Paired.announced (paired : Paired s r) (command : StartTransferCommand) (now : Timestamp) :
    r.announced command now = s.planStarted command now := by
  rw [Runtime.announced, paired.plans, paired.transfers]
  rfl

/-- The steps of the runtime up to the hand-off of a single file come to the one step that plans it here. -/
theorem plan_runs (paired : Paired s r) (get : s.commands[index]? = some (sender, command))
    (source destination : TransferEndpoint) (size : Option Nat) (connection : ConnectionId) (now : Timestamp) :
    let t := s.plan index connection [(source, destination)] (Planner.addBytes (some 0) size) now
    let steps := planningSteps r command now (planInputs source destination size connection)
    ∃ events jobs, t.events = s.events ++ events ∧ t.handoffs = s.handoffs ++ [(connection, ⟨s.nextPlanId⟩, jobs)] ∧
      (Runtime.machine.log r steps).flatMap Prod.snd =
        events.map .emitted ++ [.requested (.enqueue connection ⟨s.nextPlanId⟩ jobs)] ∧
      Paired t (Runtime.machine.run r steps) := by
  intro t steps
  obtain ⟨outputs, plans, transfers, running⟩ :=
    Runtime.planInputs_run paired.running command now source destination size connection
  rw [paired.announced, paired.plannedTask, paired.plans, paired.transfers] at outputs
  let job := (s.planningTask command now).childJob ⟨s.nextTransferId + 1⟩ source destination
  have planned : t = { s with
      commands := s.commands.eraseIdx index
      nextPlanId := s.nextPlanId + 1
      nextTransferId := s.nextTransferId + 2
      handoffs := s.handoffs ++ [(connection, ⟨s.nextPlanId⟩, [job])]
      events := s.events ++ [s.planStarted command now,
        .planProgress ⟨⟨s.nextPlanId⟩, [job], 1, Planner.addBytes (some 0) size⟩, .planCompleted ⟨s.nextPlanId⟩] } := by
    simp only [t, plan, get]
    rfl
  rw [planned]
  exact ⟨_, _, rfl, rfl, outputs, paired.plans ▸ plans, paired.transfers ▸ transfers, running⟩

/-- The planner's failure, and the retry that the runtime keeps for it. -/
theorem planFails_runs (paired : Paired s r) (get : s.commands[index]? = some (sender, command)) (error : UserFacingError)
    (now : Timestamp) :
    let t := s.planFails index error false now
    let steps := planningSteps r command now (.abandon (some error) :: List.replicate 2 (.proceed .closed))
    ∃ events, t.events = s.events ++ events ∧ t.planningRetries = s.planningRetries ++ [(sender, command)] ∧
      (Runtime.machine.log r steps).flatMap Prod.snd =
        events.map .emitted ++ [.requested (.forgetPlan ⟨s.nextPlanId⟩)] ∧
      (Runtime.machine.run r steps).planningRetries.lookup ⟨s.nextTransferId⟩ = some command ∧
      Paired t (Runtime.machine.run r steps) := by
  intro t steps
  obtain ⟨outputs, kept, plans, transfers, running⟩ := Runtime.abandon_run paired.running command now error
  rw [paired.announced, paired.plannedTask, paired.plans] at outputs
  rw [paired.transfers] at kept
  have failed : t = { s with
      commands := s.commands.eraseIdx index
      planningRetries := s.planningRetries ++ [(sender, command)]
      nextPlanId := s.nextPlanId + 1
      nextTransferId := s.nextTransferId + 1
      events := s.events ++ [s.planStarted command now, (s.planningTask command now).finishError error] } := by
    simp [t, planFails, get]
  rw [failed]
  exact ⟨_, rfl, rfl, outputs, kept, paired.plans ▸ plans, paired.transfers ▸ transfers, running⟩

/-- What a step hands to the manager. -/
def handed (s : EditUploads) : EditUploadsOp → Option TransferManagerRequest
  | .plan index connection found _ now => s.commands[index]?.map fun command =>
      .enqueue connection ⟨s.nextPlanId⟩ ((s.planningTask command.2 now).childJobs (s.nextTransferId + 1) found)
  | _ => none

/-- A plan finds one file, and none is cancelled while it is planned. -/
def PlansOne (_ : EditUploads) : EditUploadsOp → Prop
  | .plan _ _ found totalBytes _ =>
    ∃ source destination size, found = [(source, destination)] ∧ totalBytes = Planner.addBytes (some 0) size
  | .planFails _ _ cancelled _ => cancelled = false
  | _ => True

theorem Paired.kept {t : EditUploads} (paired : Paired s r) (plans : t.nextPlanId = s.nextPlanId)
    (transfers : t.nextTransferId = s.nextTransferId) : Paired t r :=
  ⟨paired.plans.trans plans.symm, paired.transfers.trans transfers.symm, paired.running⟩

theorem next_ids {op : EditUploadsOp} (other : op.isPlanning = false) :
    (machine.next s op).nextPlanId = s.nextPlanId ∧ (machine.next s op).nextTransferId = s.nextTransferId := by
  cases op with
  | plan | planFails => cases other
  | start command => exact ⟨rfl, rfl⟩
  | edit op delivered =>
    change (s.edit op delivered).nextPlanId = _ ∧ (s.edit op delivered).nextTransferId = _
    unfold edit
    split <;> exact ⟨rfl, rfl⟩
  | retryPlan index =>
    change (s.retryPlan index).nextPlanId = _ ∧ (s.retryPlan index).nextTransferId = _
    unfold retryPlan
    split <;> exact ⟨rfl, rfl⟩
  | handOff index =>
    change (s.handOff index).nextPlanId = _ ∧ (s.handOff index).nextTransferId = _
    unfold handOff
    split <;> exact ⟨rfl, rfl⟩
  | transfer op =>
    change (s.transfer op).1.nextPlanId = _ ∧ (s.transfer op).1.nextTransferId = _
    unfold transfer
    split <;> exact ⟨rfl, rfl⟩
  | news index event =>
    change (s.news index event).nextPlanId = _ ∧ (s.news index event).nextTransferId = _
    unfold news
    split
    · exact ⟨rfl, rfl⟩
    · split <;> exact ⟨rfl, rfl⟩
  | hear now readLocalFacts =>
    change (s.hear now readLocalFacts).nextPlanId = _ ∧ (s.hear now readLocalFacts).nextTransferId = _
    unfold hear
    split <;> exact ⟨rfl, rfl⟩
  | drawer op =>
    change (s.drawer op).nextPlanId = _ ∧ (s.drawer op).nextTransferId = _
    unfold drawer
    split <;> exact ⟨rfl, rfl⟩

theorem Paired.next (paired : Paired s r) {op : EditUploadsOp} (single : s.PlansOne op) :
    ∃ steps, Paired (machine.next s op) (Runtime.machine.run r steps) ∧
      ((Runtime.machine.log r steps).flatMap Prod.snd).filterMap RuntimeOutput.enqueued = (s.handed op).toList := by
  -- a step that plans nothing gives out no id
  have still (plans : (machine.next s op).nextPlanId = s.nextPlanId)
      (transfers : (machine.next s op).nextTransferId = s.nextTransferId) (none_ : s.handed op = none) :
      ∃ steps, Paired (machine.next s op) (Runtime.machine.run r steps) ∧
        ((Runtime.machine.log r steps).flatMap Prod.snd).filterMap RuntimeOutput.enqueued = (s.handed op).toList :=
    ⟨[], paired.kept plans transfers, by rw [none_]; rfl⟩
  cases op with
  | plan index connection found totalBytes now =>
    obtain ⟨source, destination, size, rfl, rfl⟩ := single
    cases get : s.commands[index]? with
    | none =>
      have same : machine.next s (.plan index connection [(source, destination)] (Planner.addBytes (some 0) size) now) = s := by
        show s.plan index connection _ _ now = s
        simp only [plan, get]
      exact still (by rw [same]) (by rw [same]) (by simp [handed, get])
    | some command =>
      obtain ⟨events, jobs, -, handoffs, outputs, later⟩ := plan_runs paired get source destination size connection now
      refine ⟨_, later, ?_⟩
      have own : jobs = (s.planningTask command.2 now).childJobs (s.nextTransferId + 1) [(source, destination)] := by
        simpa [plan, get] using handoffs.symm
      rw [outputs, own]
      simp [handed, get, RuntimeOutput.enqueued]
  | planFails index error cancelled now =>
    obtain rfl : cancelled = false := single
    cases get : s.commands[index]? with
    | none =>
      have same : machine.next s (.planFails index error false now) = s := by
        show s.planFails index error false now = s
        simp only [planFails, get]
      exact still (by rw [same]) (by rw [same]) rfl
    | some command =>
      obtain ⟨events, -, -, outputs, -, later⟩ := planFails_runs paired get error now
      refine ⟨_, later, ?_⟩
      rw [outputs]
      simp [handed, RuntimeOutput.enqueued]
  | edit | start | retryPlan | handOff | transfer | news | hear | drawer =>
    exact still (next_ids rfl).1 (next_ids rfl).2 rfl

/-- In a run whose plans find one file each, what the manager is handed is what a run of the runtime hands it. -/
theorem planning_refines (paired : Paired s r) (ops : List EditUploadsOp) (single : machine.Admissible PlansOne s ops) :
    ∃ steps, Paired (machine.run s ops) (Runtime.machine.run r steps) ∧
      ((Runtime.machine.log r steps).flatMap Prod.snd).filterMap RuntimeOutput.enqueued = machine.collect handed s ops := by
  induction ops generalizing s r with
  | nil => exact ⟨[], paired, rfl⟩
  | cons op ops ih =>
    obtain ⟨first, paired, sent⟩ := paired.next single.1
    obtain ⟨rest, paired, later⟩ := ih paired single.2
    refine ⟨first ++ rest, ?_, ?_⟩
    · rw [Runtime.machine.run_append]
      exact paired
    · rw [Runtime.machine.log_append, List.flatMap_append, List.filterMap_append, sent, later]
      rfl

end EditUploads

end MacSftp
