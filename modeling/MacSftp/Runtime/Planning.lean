import MacSftp.Manager.System

namespace MacSftp

open Lib

def planProgressBatchSize : Nat := 128

/-- What the upload and the download planner keep alike. -/
structure Planner where
  plannedCount : Nat := 0
  totalBytes : Option Nat := some 0
  childJobs : List TransferJob := []
  pendingProgress : List TransferJob := []
  deriving DecidableEq, Repr

namespace Planner

/-- `u64::checked_add`. -/
def checkedAdd (total size : Nat) : Option Nat := if total + size < 2 ^ 64 then some (total + size) else none

def addBytes (totalBytes size : Option Nat) : Option Nat :=
  match totalBytes, size with
  | some total, some size => checkedAdd total size
  | _, _ => none

def flushProgress (planner : Planner) (planId : TransferPlanId) : Planner × List TransferEvent :=
  if planner.pendingProgress = [] then (planner, [])
  else
    ({ planner with pendingProgress := [] },
      [.planProgress ⟨planId, planner.pendingProgress, planner.plannedCount, planner.totalBytes⟩])

def queueProgress (planner : Planner) (planId : TransferPlanId) (childJob : TransferJob) :
    Planner × List TransferEvent :=
  let planner := { planner with
    childJobs := planner.childJobs ++ [childJob]
    pendingProgress := planner.pendingProgress ++ [childJob] }
  if planner.plannedCount = 1 ∨ planner.pendingProgress.length ≥ planProgressBatchSize then
    planner.flushProgress planId
  else (planner, [])

def emitChild (planner : Planner) (planId : TransferPlanId) (childJob : TransferJob) (size : Option Nat) :
    Planner × List TransferEvent :=
  { planner with
    plannedCount := planner.plannedCount + 1
    totalBytes := addBytes planner.totalBytes size }.queueProgress planId childJob

end Planner

inductive PlanningAction
  | emit (event : TransferEvent)
  | forgetPlan
  | cancelPlan
  deriving DecidableEq, Repr

/-- Where the planner and the task that waits for it are. `flushed` lies between the two checks of
`finish`, `planned` is before the task has looked at the planner's result, `enqueued` before it takes its guard. -/
inductive PlanningStage
  | planning (planner : Planner)
  | flushed (planner : Planner)
  | planned (jobs : Option (List TransferJob))
  | connecting (jobs : List TransferJob)
  | enqueuing (connection : ConnectionId) (jobs : List TransferJob)
  | enqueued (jobs : List TransferJob) (accepted : Bool)
  | ending (actions : List PlanningAction)
  deriving DecidableEq, Repr

def PlanningStage.isEnding : PlanningStage → Bool
  | ending _ => true
  | _ => false

/-- `cancel` is the state of the token behind the guard of the plan. -/
structure PlanningTask where
  command : StartTransferCommand
  planId : TransferPlanId
  rootJob : TransferJob
  hasConnection : Bool
  cancel : Bool := false
  stage : PlanningStage := .planning {}
  deriving DecidableEq, Repr

/-- How the `select!` on the connection ends. -/
inductive ConnectionOutcome
  | cancelled
  | acquired (connection : ConnectionId)
  | closed
  deriving DecidableEq, Repr

inductive PlanningInput
  | emitChild (source destination : TransferEndpoint) (size : Option Nat)
  | finish
  -- the planner stops with an error, or without a word
  | abandon (error : Option UserFacingError)
  | proceed (outcome : ConnectionOutcome)
  deriving DecidableEq, Repr

structure PlanningStep where
  stage : PlanningStage
  takesGuard : Bool := false
  dropsRetry : Bool := false
  allocates : Bool := false
  emits : List TransferEvent := []
  sends : List TransferManagerRequest := []
  deriving DecidableEq, Repr

def transferHandoffError (detail : String) : UserFacingError :=
  { code := .channelClosed, title := "Transfer Couldn’t Start", message := detail }

def failPlannedJobs (jobs : List TransferJob) (error : UserFacingError) : List PlanningAction :=
  jobs.map (fun job => .emit (.failed ⟨job.id, error⟩))

namespace PlanningTask

def childJob (task : PlanningTask) (id : TransferId) (source destination : TransferEndpoint) : TransferJob where
  id := id
  direction := task.command.direction
  source := source
  destination := destination
  state := .queued
  metadataPolicy := task.command.metadataPolicy
  conflictPolicy := task.command.conflictPolicy
  warnings := []
  createdAt := task.rootJob.createdAt

def finishError (task : PlanningTask) (error : UserFacingError) : TransferEvent :=
  if error.code = .cancelled then .planCancelled task.planId else .planFailed task.planId error

def stopped (task : PlanningTask) : PlanningStep :=
  { stage := .planned none, emits := [.planCancelled task.planId] }

def emitChild (task : PlanningTask) (planner : Planner) (id : TransferId) (source destination : TransferEndpoint)
    (size : Option Nat) : PlanningStep :=
  if task.cancel then task.stopped
  else
    let (planner, events) := planner.emitChild task.planId (task.childJob id source destination) size
    { stage := .planning planner, allocates := true, emits := events }

/-- The first check of `finish`, and the flush. -/
def finishPlanning (task : PlanningTask) (planner : Planner) : PlanningStep :=
  if task.cancel then task.stopped
  else
    let (planner, events) := planner.flushProgress task.planId
    { stage := .flushed planner, emits := events }

/-- The second check of `finish`. -/
def completePlanning (task : PlanningTask) (planner : Planner) : PlanningStep :=
  if task.cancel then task.stopped
  else { stage := .planned (some planner.childJobs), emits := [.planCompleted task.planId] }

def cancelledActions (task : PlanningTask) : List PlanningAction := [.emit (.planCancelled task.planId), .forgetPlan]

def handoffFailure (task : PlanningTask) (jobs : List TransferJob) (detail : String) : PlanningStep :=
  { stage := .ending (if task.cancel then task.cancelledActions
      else failPlannedJobs jobs (transferHandoffError detail) ++ [.forgetPlan])
    takesGuard := true }

def handoffCancelled (task : PlanningTask) : PlanningStep :=
  { stage := .ending task.cancelledActions, takesGuard := true }

def afterPlanning (task : PlanningTask) : Option (List TransferJob) → PlanningStep
  | none =>
    { stage := .ending ((if task.cancel then [.emit (.planCancelled task.planId)] else []) ++ [.forgetPlan])
      takesGuard := true
      dropsRetry := task.cancel }
  | some jobs =>
    if task.cancel then { task.handoffCancelled with dropsRetry := true }
    else { stage := .connecting jobs, dropsRetry := true }

def connect (task : PlanningTask) (jobs : List TransferJob) (outcome : ConnectionOutcome) : PlanningStep :=
  if task.hasConnection then
    match outcome with
    | .cancelled => if task.cancel then task.handoffCancelled else { stage := .connecting jobs }
    | .acquired connection => { stage := .enqueuing connection jobs }
    | .closed => task.handoffFailure jobs "The connection closed. Reconnect and try again."
  else task.handoffFailure jobs "The connected session has no transfer channel."

def afterEnqueue (task : PlanningTask) (jobs : List TransferJob) (accepted : Bool) : PlanningStep :=
  if accepted then { stage := .ending (if task.cancel then [.cancelPlan] else []), takesGuard := true }
  else task.handoffFailure jobs "The transfer manager is no longer running."

def act (task : PlanningTask) (actions : List PlanningAction) : PlanningAction → PlanningStep
  | .emit event => { stage := .ending actions, emits := [event] }
  | .forgetPlan => { stage := .ending actions, sends := [.forgetPlan task.planId] }
  | .cancelPlan => { stage := .ending actions, sends := [.cancelPlan task.planId] }

def step (task : PlanningTask) (nextTransferId : TransferId) (managerOpen : Bool) (input : PlanningInput) :
    PlanningStep :=
  match task.stage, input with
  | .planning planner, .emitChild source destination size => task.emitChild planner nextTransferId source destination size
  | .planning planner, .finish => task.finishPlanning planner
  | .planning _, .abandon error | .flushed _, .abandon error =>
    { stage := .planned none, emits := (error.map task.finishError).toList }
  | .flushed planner, .finish => task.completePlanning planner
  | .planned jobs, .proceed _ => task.afterPlanning jobs
  | .connecting jobs, .proceed outcome => task.connect jobs outcome
  | .enqueuing connection jobs, .proceed _ =>
    { stage := .enqueued jobs managerOpen, sends := [.enqueue connection task.planId jobs] }
  | .enqueued jobs accepted, .proceed _ => task.afterEnqueue jobs accepted
  | .ending (action :: actions), .proceed _ => task.act actions action
  | stage, _ => { stage := stage }

end PlanningTask

structure Runtime where
  nextPlanId : Nat := 1
  nextTransferId : Nat := 1
  planningCancellations : Finset TransferId := ∅
  planningRetries : Table TransferId StartTransferCommand := ∅
  pendingCommands : List StartTransferCommand := []
  planning : List PlanningTask := []
  -- the channel to the transfer manager, open as long as the manager runs
  requests : List TransferManagerRequest := []
  managerOpen : Bool := true
  transfers : TransferSystem := {}

inductive RuntimeOp
  | startTransfer (command : StartTransferCommand) (now : Timestamp) (hasConnection : Bool)
  | restartTransfer (now : Timestamp) (hasConnection : Bool)
  | cancelTransfer (transferId : TransferId) (planId : Option TransferPlanId)
  | retryTransfer (transferId : TransferId)
  | plan (task : Nat) (input : PlanningInput)
  | deliver (connected : Option ConnectionId)
  | transfer (op : TransferOp)
  | stopManager
  deriving DecidableEq, Repr

inductive RuntimeOutput
  | emitted (event : TransferEvent)
  | requested (request : TransferManagerRequest)
  | handled (request : TransferManagerRequest)
  | started (task : TransferTask)
  deriving DecidableEq, Repr

/-- The connection of a retry is looked up when the manager handles it. -/
def TransferManagerRequest.resolve (connected : Option ConnectionId) : TransferManagerRequest → TransferManagerRequest
  | .retry transferId _ => .retry transferId connected
  | request => request

def TransferOutput.toRuntime : TransferOutput → RuntimeOutput
  | sent event => .emitted event
  | started task => .started task

namespace Runtime

def request (s : Runtime) (requests : List TransferManagerRequest) : Runtime × List RuntimeOutput :=
  if s.managerOpen then ({ s with requests := s.requests ++ requests }, requests.map .requested) else (s, [])

def startTransfer (s : Runtime) (command : StartTransferCommand) (now : Timestamp) (hasConnection : Bool) :
    Runtime × List RuntimeOutput :=
  let planId : TransferPlanId := ⟨s.nextPlanId⟩
  let rootJobId : TransferId := ⟨s.nextTransferId⟩
  let (plan, rootJob) := newPlan command planId rootJobId now
  ({ s with
      nextPlanId := s.nextPlanId + 1
      nextTransferId := s.nextTransferId + 1
      planningRetries := s.planningRetries.insert rootJobId command
      planningCancellations := insert rootJobId s.planningCancellations
      planning := s.planning ++ [{ command, planId, rootJob, hasConnection }] },
    [.emitted (.planStarted ⟨plan, rootJob⟩)])

def restartTransfer (s : Runtime) (now : Timestamp) (hasConnection : Bool) : Runtime × List RuntimeOutput :=
  match s.pendingCommands with
  | [] => (s, [])
  | command :: pendingCommands => { s with pendingCommands }.startTransfer command now hasConnection

/-- A guard that is still held takes the cancel; otherwise it goes to the manager. -/
def cancelTransfer (s : Runtime) (transferId : TransferId) (planId : Option TransferPlanId) :
    Runtime × List RuntimeOutput :=
  if transferId ∈ s.planningCancellations then
    ({ s with planning := s.planning.map (fun task =>
        if task.rootJob.id = transferId then { task with cancel := true } else task) }, [])
  else s.request [.cancel transferId planId]

def retryTransfer (s : Runtime) (transferId : TransferId) : Runtime × List RuntimeOutput :=
  match s.planningRetries.lookup transferId with
  | some command =>
    ({ s with
        planningRetries := s.planningRetries.erase transferId
        pendingCommands := s.pendingCommands ++ [command] }, [])
  | none => s.request [.retry transferId none]

def advance (s : Runtime) (index : Nat) (task : PlanningTask) (step : PlanningStep) : Runtime × List RuntimeOutput :=
  let (s, outputs) := { s with
    nextTransferId := if step.allocates then s.nextTransferId + 1 else s.nextTransferId
    planning := s.planning.set index { task with stage := step.stage }
    planningCancellations := if step.takesGuard then s.planningCancellations.erase task.rootJob.id
      else s.planningCancellations
    planningRetries := if step.dropsRetry then s.planningRetries.erase task.rootJob.id else s.planningRetries }.request
      step.sends
  (s, step.emits.map .emitted ++ outputs)

def plan (s : Runtime) (index : Nat) (input : PlanningInput) : Runtime × List RuntimeOutput :=
  match s.planning[index]? with
  | none => (s, [])
  | some task => s.advance index task (task.step ⟨s.nextTransferId⟩ s.managerOpen input)

def deliver (s : Runtime) (connected : Option ConnectionId) : Runtime × List RuntimeOutput :=
  match s.requests with
  | [] => (s, [])
  | request :: requests =>
    if s.managerOpen ∧ s.transfers.phase = .ready then
      ({ s with requests, transfers := s.transfers.receive (request.resolve connected) }, [.handled request])
    else (s, [])

/-- The steps of the manager's loop apart from taking a request; those of the jobs go on when the manager has stopped. -/
def canRun (s : Runtime) : TransferOp → Bool
  | .receive _ => false
  | .send | .startNext | .complete _ => s.managerOpen
  | .report .. | .release _ | .setPolicy .. => true

def transfer (s : Runtime) (op : TransferOp) : Runtime × List RuntimeOutput :=
  if s.canRun op then
    ({ s with transfers := TransferSystem.machine.next s.transfers op },
      (TransferSystem.machine.out s.transfers op).map TransferOutput.toRuntime)
  else (s, [])

def stopManager (s : Runtime) : Runtime :=
  { s with
    managerOpen := false
    transfers := { s.transfers with manager := { s.transfers.manager with
      running := s.transfers.manager.running.mapValues (fun transfer => { transfer with cancel := true }) } } }

def apply (s : Runtime) : RuntimeOp → Runtime × List RuntimeOutput
  | .startTransfer command now hasConnection => s.startTransfer command now hasConnection
  | .restartTransfer now hasConnection => s.restartTransfer now hasConnection
  | .cancelTransfer transferId planId => s.cancelTransfer transferId planId
  | .retryTransfer transferId => s.retryTransfer transferId
  | .plan index input => s.plan index input
  | .deliver connected => s.deliver connected
  | .transfer op => s.transfer op
  | .stopManager => (s.stopManager, [])

def machine : Machine Runtime RuntimeOp (List RuntimeOutput) := ⟨apply⟩

end Runtime

end MacSftp
