import MacSftp.Lib.Runs
import MacSftp.Lib.Table
import MacSftp.Transfer.Data
import Mathlib.Data.Finset.Basic

namespace MacSftp

open Lib

def maxConcurrentTransfers : Nat := 12

def maxConcurrentPerPlan : Nat := 8

def maxChannelsPerConnection : Nat := 9

def maxIdleSessionsPerPlan : Nat := maxConcurrentPerPlan

def maxPendingCancels : Nat := 1024

/-- The physical connection behind an `Arc<SharedConnection>`. -/
structure ConnectionId where
  raw : Nat
  deriving DecidableEq, Repr

inductive TransferManagerRequest
  | enqueue (connection : ConnectionId) (planId : TransferPlanId) (jobs : List TransferJob)
  | cancel (transferId : TransferId) (planId : Option TransferPlanId)
  | cancelPlan (planId : TransferPlanId)
  | forgetPlan (planId : TransferPlanId)
  -- `connected` is the connection the route's weak reference or the connection manager yields
  | retry (transferId : TransferId) (connected : Option ConnectionId)
  deriving DecidableEq, Repr

structure QueuedTransfer where
  connection : ConnectionId
  planId : TransferPlanId
  job : TransferJob
  deriving DecidableEq, Repr

/-- `cancel` is the state of the token that the manager shares with the job's task. -/
structure RunningTransfer where
  planId : TransferPlanId
  cancel : Bool := false
  deriving DecidableEq, Repr

structure TransferSessionSlot where
  connection : ConnectionId
  direction : TransferDirection
  deriving DecidableEq, Repr

structure RetryRoute where
  connection : ConnectionId
  planId : TransferPlanId
  job : TransferJob
  deriving DecidableEq, Repr

structure CompletedTransfer where
  transferId : TransferId
  retryRoute : Option RetryRoute
  reusableSession : Option TransferSessionSlot
  deriving DecidableEq, Repr

structure TransferManager where
  pending : List QueuedTransfer := []
  pendingPerPlan : Table TransferPlanId Nat := ∅
  pendingRoots : Finset TransferId := ∅
  running : Table TransferId RunningTransfer := ∅
  runningPerPlan : Table TransferPlanId Nat := ∅
  planRootJobs : Table TransferPlanId TransferId := ∅
  planChildrenStarted : Finset TransferPlanId := ∅
  cancelledBeforeEnqueue : Table TransferId (Option TransferPlanId) := ∅
  pendingCancelOrder : List TransferId := []
  retryRoutes : Table TransferId RetryRoute := ∅
  idleSessions : Table TransferPlanId (List TransferSessionSlot) := ∅
  planPolicies : Table TransferPlanId ConflictPolicy := ∅
  deriving DecidableEq

namespace TransferManager

def forgetCancellationsForPlan (m : TransferManager) (planId : TransferPlanId) : TransferManager :=
  let kept := m.cancelledBeforeEnqueue.retain (fun _ recorded => recorded ≠ some planId)
  { m with
    cancelledBeforeEnqueue := kept
    pendingCancelOrder := m.pendingCancelOrder.filter (fun transferId => transferId ∈ kept) }

def takePendingCancel (m : TransferManager) (transferId : TransferId) : TransferManager × Bool :=
  if transferId ∈ m.cancelledBeforeEnqueue then
    ({ m with
        cancelledBeforeEnqueue := m.cancelledBeforeEnqueue.erase transferId
        pendingCancelOrder := m.pendingCancelOrder.filter (fun queued => queued ≠ transferId) }, true)
  else (m, false)

def dropOldestCancels : List TransferId → Table TransferId (Option TransferPlanId) →
    List TransferId × Table TransferId (Option TransferPlanId)
  | [], records => ([], records)
  | oldest :: order, records =>
    if (oldest :: order).length > maxPendingCancels then dropOldestCancels order (records.erase oldest)
    else (oldest :: order, records)

def recordPendingCancel (m : TransferManager) (transferId : TransferId) (planId : Option TransferPlanId) :
    TransferManager :=
  let order := if transferId ∈ m.cancelledBeforeEnqueue then m.pendingCancelOrder
    else m.pendingCancelOrder ++ [transferId]
  let kept := dropOldestCancels order (m.cancelledBeforeEnqueue.insert transferId planId)
  { m with cancelledBeforeEnqueue := kept.2, pendingCancelOrder := kept.1 }

def planOfRoot (m : TransferManager) (transferId : TransferId) : Option TransferPlanId :=
  (m.planRootJobs.entries.find? (fun entry => entry.2 = transferId)).map (fun entry => entry.1)

def pushPending (m : TransferManager) (queued : QueuedTransfer) : TransferManager :=
  { m with
    pendingPerPlan := Table.countUp queued.planId m.pendingPerPlan
    pendingRoots := if m.planRootJobs.lookup queued.planId = some queued.job.id then
      insert queued.job.id m.pendingRoots else m.pendingRoots
    pending := m.pending ++ [queued] }

def removePending (m : TransferManager) (position : Nat) : Option (QueuedTransfer × TransferManager) :=
  (m.pending[position]?).map fun queued =>
    (queued, { m with
      pending := m.pending.eraseIdx position
      pendingPerPlan := Table.countDown queued.planId m.pendingPerPlan
      pendingRoots := m.pendingRoots.erase queued.job.id })

def retainPendingNotPlan (m : TransferManager) (planId : TransferPlanId) : TransferManager :=
  { m with
    pending := m.pending.filter (fun queued => queued.planId ≠ planId)
    pendingPerPlan := m.pendingPerPlan.erase planId
    pendingRoots := match m.planRootJobs.lookup planId with
      | some rootId => m.pendingRoots.erase rootId
      | none => m.pendingRoots }

def hasRetry (m : TransferManager) (planId : TransferPlanId) : Bool :=
  m.retryRoutes.values.any (fun route => route.planId = planId)

def isIdle (m : TransferManager) (planId : TransferPlanId) : Bool :=
  planId ∉ m.pendingPerPlan && planId ∉ m.runningPerPlan && !m.hasRetry planId

def cleanupPlanIfIdle (m : TransferManager) (planId : TransferPlanId) : TransferManager :=
  if m.isIdle planId then
    { m with
      planPolicies := m.planPolicies.erase planId
      planRootJobs := m.planRootJobs.erase planId
      planChildrenStarted := m.planChildrenStarted.erase planId
      idleSessions := m.idleSessions.erase planId }.forgetCancellationsForPlan planId
  else m

def cancelTokens (planId : TransferPlanId) (running : Table TransferId RunningTransfer) :
    Table TransferId RunningTransfer :=
  running.mapValues (fun transfer => if transfer.planId = planId then { transfer with cancel := true } else transfer)

def interrupted (m : TransferManager) (planId : TransferPlanId) : List TransferId :=
  (m.pending.filter (fun queued => queued.planId = planId)).map (fun queued => queued.job.id) ++
    (m.running.entries.filter (fun entry => entry.2.planId = planId)).map (fun entry => entry.1)

/-- The tokens are cancelled before the event is handed to the channel. -/
def cancelPlan (m : TransferManager) (planId : TransferPlanId) : TransferManager × List TransferEvent :=
  let m := m.forgetCancellationsForPlan planId
  let stopped := { m.retainPendingNotPlan planId with running := cancelTokens planId m.running }
  if m.interrupted planId = [] then (stopped, [])
  else
    ({ stopped with
        planRootJobs := stopped.planRootJobs.erase planId
        planChildrenStarted := stopped.planChildrenStarted.erase planId }.cleanupPlanIfIdle planId,
      [.planCancelled planId])

def queueJobs (connection : ConnectionId) (planId : TransferPlanId) :
    TransferManager → List TransferJob → TransferManager × List TransferId
  | m, [] => (m, [])
  | m, job :: jobs =>
    match m.takePendingCancel job.id with
    | (m, true) =>
      let (m, skipped) := queueJobs connection planId m jobs
      (m, job.id :: skipped)
    | (m, false) => queueJobs connection planId (m.pushPending ⟨connection, planId, job⟩) jobs

def rootCancelled (m : TransferManager) (jobs : List TransferJob) : Bool :=
  match jobs.head? with
  | some root => root.id ∈ m.cancelledBeforeEnqueue
  | none => false

def adoptPolicy (m : TransferManager) (planId : TransferPlanId) (jobs : List TransferJob) : TransferManager :=
  match jobs.head? with
  | some job => { m with planPolicies := m.planPolicies.orInsert planId job.conflictPolicy }
  | none => m

def adoptRoot (m : TransferManager) (planId : TransferPlanId) (jobs : List TransferJob) : TransferManager :=
  match jobs.head? with
  | some rootJob => { m with planRootJobs := m.planRootJobs.orInsert planId rootJob.id }
  | none => m

def adopt (m : TransferManager) (planId : TransferPlanId) (jobs : List TransferJob) (recordRoot : Bool) :
    TransferManager :=
  let m := m.adoptPolicy planId jobs
  if recordRoot then m.adoptRoot planId jobs else m

def enqueue (m : TransferManager) (connection : ConnectionId) (planId : TransferPlanId) (jobs : List TransferJob)
    (recordRoot : Bool) : TransferManager × List TransferEvent :=
  if recordRoot && m.rootCancelled jobs then
    (m.forgetCancellationsForPlan planId, [.planCancelled planId])
  else
    let (m, skipped) := queueJobs connection planId (m.adopt planId jobs recordRoot) jobs
    let m := m.forgetCancellationsForPlan planId
    (if skipped ≠ [] then m.cleanupPlanIfIdle planId else m, skipped.map .skipped)

def reconnectBeforeRetrying : UserFacingError :=
  UserFacingError.withRetryable
    { code := .channelClosed
      title := "Reconnect before retrying"
      message := "The previous connection is no longer available. Reconnect this profile and retry the transfer." } true

def cancel (m : TransferManager) (transferId : TransferId) (planId : Option TransferPlanId) :
    TransferManager × List TransferEvent :=
  match m.planOfRoot transferId with
  | some planId => m.cancelPlan planId
  | none =>
    match (m.pending.findIdx? (fun queued => queued.job.id = transferId)).bind m.removePending with
    | some (queued, m) => (m.cleanupPlanIfIdle queued.planId, [.skipped transferId])
    | none =>
      if transferId ∈ m.running then
        ({ m with running := m.running.modify transferId (fun running => { running with cancel := true }) }, [])
      else (m.recordPendingCancel transferId planId, [])

def retry (m : TransferManager) (transferId : TransferId) (connected : Option ConnectionId) :
    TransferManager × List TransferEvent :=
  match m.retryRoutes.lookup transferId with
  | none => (m, [])
  | some route =>
    let m := { m with retryRoutes := m.retryRoutes.erase transferId }
    let m := (m.takePendingCancel transferId).1
    match connected with
    | some connection => m.enqueue connection route.planId [route.job] false
    | none =>
      ({ m with retryRoutes := m.retryRoutes.insert transferId route },
        [.failed ⟨transferId, reconnectBeforeRetrying⟩])

def handleRequest (m : TransferManager) : TransferManagerRequest → TransferManager × List TransferEvent
  | .enqueue connection planId jobs => m.enqueue connection planId jobs true
  | .cancel transferId planId => m.cancel transferId planId
  | .cancelPlan planId => m.cancelPlan planId
  | .forgetPlan planId => (m.forgetCancellationsForPlan planId, [])
  | .retry transferId connected => m.retry transferId connected

def returnIdleSession (m : TransferManager) (planId : TransferPlanId) (session : TransferSessionSlot) :
    TransferManager :=
  let sessions := (m.idleSessions.lookup planId).getD []
  { m with
    idleSessions := m.idleSessions.insert planId
      (if sessions.length < maxIdleSessionsPerPlan then sessions ++ [session] else sessions) }

def takeSession (idle : Table TransferPlanId (List TransferSessionSlot)) (planId : TransferPlanId)
    (direction : TransferDirection) : Option TransferSessionSlot × Table TransferPlanId (List TransferSessionSlot) :=
  match idle.lookup planId with
  | none => (none, idle)
  | some sessions =>
    match sessions.find? (fun session => session.direction = direction) with
    | none => (none, idle)
    | some session =>
      let rest := sessions.eraseP (fun session => session.direction = direction)
      (some session, if rest = [] then idle.erase planId else idle.insert planId rest)

def takeIdleSession (m : TransferManager) (planId : TransferPlanId) (direction : TransferDirection) :
    Option TransferSessionSlot × TransferManager :=
  let taken := takeSession m.idleSessions planId direction
  (taken.1, { m with idleSessions := taken.2 })

def handleCompleted (m : TransferManager) (completed : CompletedTransfer) : TransferManager :=
  let completedPlanId := (m.running.lookup completed.transferId).map (fun running => running.planId)
  let m := { m with running := m.running.erase completed.transferId }
  let m := match completedPlanId with
    | some planId => { m with runningPerPlan := Table.countDown planId m.runningPerPlan }
    | none => m
  let m := match completed.retryRoute with
    | some route => { m with retryRoutes := m.retryRoutes.insert completed.transferId route }
    | none => { m with retryRoutes := m.retryRoutes.erase completed.transferId }
  match completedPlanId with
  | none => m
  | some planId =>
    let m := match completed.reusableSession with
      | some session => m.returnIdleSession planId session
      | none => m
    m.cleanupPlanIfIdle planId

def runningOf (m : TransferManager) (planId : TransferPlanId) : Nat := (m.runningPerPlan.lookup planId).getD 0

def isEligible (m : TransferManager) (activeChannels : ConnectionId → Nat) (queued : QueuedTransfer) : Bool :=
  let running := m.runningOf queued.planId
  if running ≥ maxConcurrentPerPlan then false
  else if activeChannels queued.connection ≥ maxChannelsPerConnection then false
  else if queued.job.direction ≠ .download then true
  else
    match m.planRootJobs.lookup queued.planId with
    | none => running = 0
    | some rootId =>
      if queued.job.id = rootId then running = 0
      else rootId ∉ m.pendingRoots && rootId ∉ m.running

def takeDestinationClearPermission (m : TransferManager) (planId : TransferPlanId) (transferId : TransferId) :
    TransferManager × Bool :=
  let isPlanRoot := m.planRootJobs.lookup planId = some transferId
  let mayClear := isPlanRoot && planId ∉ m.planChildrenStarted
  ({ m with
      planChildrenStarted := if isPlanRoot then m.planChildrenStarted else insert planId m.planChildrenStarted },
    mayClear)

def nextQueuedPosition (m : TransferManager) (activeChannels : ConnectionId → Nat) : Option Nat :=
  if m.pending = [] then none
  else
    let plans := m.pendingPerPlan.keys
    let hasIdlePlan := plans.any (fun planId => m.runningOf planId = 0)
    let admissiblePlans := plans.filter (fun planId => m.runningOf planId < maxConcurrentPerPlan)
    if admissiblePlans = [] then none
    else
      let anyEligible := m.pending.findIdx? (fun queued =>
        admissiblePlans.contains queued.planId && m.isEligible activeChannels queued)
      if hasIdlePlan then
        (m.pending.findIdx? (fun queued => admissiblePlans.contains queued.planId &&
          m.runningOf queued.planId = 0 && m.isEligible activeChannels queued)).or anyEligible
      else anyEligible

end TransferManager

end MacSftp
