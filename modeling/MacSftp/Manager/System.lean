import MacSftp.Manager.Model

namespace MacSftp

open Lib

inductive TransferResult
  | openFailed (error : UserFacingError)
  | finished
  | stopped (error : UserFacingError) (duringConflict : Bool)
  deriving DecidableEq, Repr

inductive TransferJobOutcome
  | completed
  | skipped (reusableSession : Bool)
  | failed (retryable : Bool)
  deriving DecidableEq, Repr

namespace TransferResult

def outcome (direction : TransferDirection) : TransferResult → TransferJobOutcome
  | openFailed error => .failed error.retryable
  | finished => .completed
  | stopped error duringConflict =>
    if error.code = .cancelled then .skipped (duringConflict && direction = .upload) else .failed error.retryable

def terminalEvent (transferId : TransferId) : TransferResult → TransferEvent
  | openFailed error => .failed ⟨transferId, error⟩
  | finished => .completed transferId
  | stopped error _ => if error.code = .cancelled then .skipped transferId else .failed ⟨transferId, error⟩

end TransferResult

def TransferJobOutcome.reusable : TransferJobOutcome → Bool
  | completed | skipped true => true
  | _ => false

def TransferJobOutcome.retryable : TransferJobOutcome → Bool
  | failed true => true
  | _ => false

/-- A task reports its terminal event, gives its channel back and then completes, in this order. -/
inductive TaskStage
  | running
  | reported (result : TransferResult)
  | released (result : TransferResult)
  deriving DecidableEq, Repr

structure TransferTask where
  connection : ConnectionId
  planId : TransferPlanId
  job : TransferJob
  session : TransferSessionSlot
  reusesSession : Bool
  mayClearDestination : Bool
  stage : TaskStage := .running
  deriving DecidableEq, Repr

namespace TransferTask

/-- A session that cannot serve another job is dropped when the channel is given back. -/
def holdsSession (task : TransferTask) : Bool :=
  match task.stage with
  | .running => true
  | .reported (.openFailed _) => false
  | .reported _ => true
  | .released result => (result.outcome task.job.direction).reusable

/-- Only a task that opens its own session can fail to open it. -/
def canEndWith (task : TransferTask) : TransferResult → Bool
  | .openFailed _ => !task.reusesSession
  | _ => true

def completedWith (task : TransferTask) (result : TransferResult) : CompletedTransfer where
  transferId := task.job.id
  retryRoute := if (result.outcome task.job.direction).retryable then some ⟨task.connection, task.planId, task.job⟩
    else none
  reusableSession := if (result.outcome task.job.direction).reusable then some task.session else none

end TransferTask

/-- The manager's loop: it waits for a message, or it is sending the events of the last one and
starting queued jobs. -/
inductive ManagerPhase
  | ready
  | busy (outbox : List TransferEvent)
  deriving DecidableEq, Repr

structure TransferSystem where
  manager : TransferManager := {}
  phase : ManagerPhase := .ready
  tasks : List TransferTask := []
  activeChannels : ConnectionId → Nat := fun _ => 0

inductive TransferOp
  | receive (request : TransferManagerRequest)
  | send
  | startNext
  | report (task : Nat) (result : TransferResult)
  | release (task : Nat)
  | complete (task : Nat)
  -- a running job's apply-to-all decision
  | setPolicy (task : Nat) (policy : ConflictPolicy)
  deriving DecidableEq, Repr

inductive TransferOutput
  | sent (event : TransferEvent)
  | started (task : TransferTask)
  deriving DecidableEq, Repr

namespace TransferManager

/-- What a turn of `start_queued`'s loop does with the queued job it picked. -/
def launch (m : TransferManager) (queued : QueuedTransfer) : TransferTask × TransferManager :=
  let job := { queued.job with
    conflictPolicy := (m.planPolicies.lookup queued.planId).getD queued.job.conflictPolicy }
  let permission := m.takeDestinationClearPermission queued.planId job.id
  let m := { permission.1 with
    running := permission.1.running.insert job.id { planId := queued.planId }
    runningPerPlan := Table.countUp queued.planId permission.1.runningPerPlan }
  let idle := m.takeIdleSession queued.planId job.direction
  ({ connection := queued.connection
     planId := queued.planId
     job := job
     session := idle.1.getD ⟨queued.connection, job.direction⟩
     reusesSession := idle.1.isSome
     mayClearDestination := permission.2 }, idle.2)

def pick (m : TransferManager) (activeChannels : ConnectionId → Nat) : Option (QueuedTransfer × TransferManager) :=
  if m.running.size < maxConcurrentTransfers then
    (m.nextQueuedPosition activeChannels).bind m.removePending
  else none

end TransferManager

namespace TransferSystem

def withTask (s : TransferSystem) (index : Nat) (task : TransferTask) : TransferSystem :=
  { s with tasks := s.tasks.set index task }

def receive (s : TransferSystem) (request : TransferManagerRequest) : TransferSystem :=
  match s.phase with
  | .ready =>
    let handled := s.manager.handleRequest request
    { s with manager := handled.1, phase := .busy handled.2 }
  | .busy _ => s

def send (s : TransferSystem) : TransferSystem × List TransferOutput :=
  match s.phase with
  | .busy (event :: outbox) => ({ s with phase := .busy outbox }, [.sent event])
  | _ => (s, [])

def startNext (s : TransferSystem) : TransferSystem × List TransferOutput :=
  match s.phase with
  | .busy [] =>
    match s.manager.pick s.activeChannels with
    | none => ({ s with phase := .ready }, [])
    | some (queued, m) =>
      let launched := m.launch queued
      ({ s with
          manager := launched.2
          tasks := s.tasks ++ [launched.1]
          activeChannels := Function.update s.activeChannels queued.connection
            (s.activeChannels queued.connection + 1) }, [.started launched.1])
  | _ => (s, [])

def report (s : TransferSystem) (index : Nat) (result : TransferResult) : TransferSystem × List TransferOutput :=
  match s.tasks[index]? with
  | none => (s, [])
  | some task =>
    if task.stage = .running ∧ task.canEndWith result then
      (s.withTask index { task with stage := .reported result }, [.sent (result.terminalEvent task.job.id)])
    else (s, [])

def release (s : TransferSystem) (index : Nat) : TransferSystem :=
  match s.tasks[index]? with
  | none => s
  | some task =>
    match task.stage with
    | .reported result =>
      { s.withTask index { task with stage := .released result } with
        activeChannels := Function.update s.activeChannels task.connection (s.activeChannels task.connection - 1) }
    | _ => s

def complete (s : TransferSystem) (index : Nat) : TransferSystem :=
  match s.phase, s.tasks[index]? with
  | .ready, some task =>
    match task.stage with
    | .released result =>
      { s with
        manager := s.manager.handleCompleted (task.completedWith result)
        phase := .busy []
        tasks := s.tasks.eraseIdx index }
    | _ => s
  | _, _ => s

def setPolicy (s : TransferSystem) (index : Nat) (policy : ConflictPolicy) : TransferSystem :=
  match s.tasks[index]? with
  | none => s
  | some task =>
    if task.stage = .running then
      { s with manager := { s.manager with planPolicies := s.manager.planPolicies.insert task.planId policy } }
    else s

def apply (s : TransferSystem) : TransferOp → TransferSystem × List TransferOutput
  | .receive request => (s.receive request, [])
  | .send => s.send
  | .startNext => s.startNext
  | .report index result => s.report index result
  | .release index => (s.release index, [])
  | .complete index => (s.complete index, [])
  | .setPolicy index policy => (s.setPolicy index policy, [])

def machine : Machine TransferSystem TransferOp (List TransferOutput) := ⟨apply⟩

end TransferSystem

end MacSftp
