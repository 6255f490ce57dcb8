import MacSftp.Core.Types

namespace MacSftp

inductive TransferState
  | queued
  | planning
  | waitingForConflictDecision (planId : TransferPlanId) (requestId : ConflictRequestId)
  | running (bytesDone : Nat) (bytesTotal : Option Nat) (startedAt : Timestamp)
  | cancelling
  | completed
  | skipped
  | failed (error : UserFacingError) (retryable : Bool)
  deriving DecidableEq, Repr

def TransferState.isTerminal : TransferState → Bool
  | completed | skipped | failed .. => true
  | _ => false

def TransferState.isFailed : TransferState → Bool
  | failed .. => true
  | _ => false

inductive TransferPlanState
  | queued
  | planning
  | completed
  | cancelled
  | failed (error : UserFacingError)
  deriving DecidableEq, Repr

def TransferPlanState.isTerminal : TransferPlanState → Bool
  | completed | cancelled | failed .. => true
  | _ => false

structure TransferWarning where
  transferId : TransferId
  code : ErrorCode
  message : String
  detail : Option String := none
  deriving DecidableEq, Repr

structure TransferJob where
  id : TransferId
  direction : TransferDirection
  source : TransferEndpoint
  destination : TransferEndpoint
  state : TransferState
  metadataPolicy : MetadataPolicy
  conflictPolicy : ConflictPolicy
  warnings : List TransferWarning
  createdAt : Timestamp
  deriving DecidableEq, Repr

structure TransferPlan where
  id : TransferPlanId
  rootJobId : TransferId
  sourceRoot : TransferEndpoint
  destinationRoot : TransferEndpoint
  state : TransferPlanState
  plannedCount : Nat
  totalBytes : Option Nat
  childJobs : List TransferId
  conflictPolicy : ConflictPolicy
  deriving DecidableEq, Repr

structure TransferPlanSnapshot where
  plan : TransferPlan
  rootJob : TransferJob
  deriving DecidableEq, Repr

structure TransferPlanProgress where
  planId : TransferPlanId
  childJobs : List TransferJob
  plannedCount : Nat
  totalBytes : Option Nat
  deriving DecidableEq, Repr

structure TransferProgress where
  transferId : TransferId
  bytesDone : Nat
  bytesTotal : Option Nat
  deriving DecidableEq, Repr

structure TransferConflictPrompt where
  requestId : ConflictRequestId
  planId : TransferPlanId
  transferId : TransferId
  source : TransferEndpoint
  destination : TransferEndpoint
  sourceSize : Option Nat
  sourceModifiedAt : Option Timestamp
  deriving DecidableEq, Repr

structure ConflictRequest where
  id : ConflictRequestId
  planId : TransferPlanId
  transferId : TransferId
  source : TransferEndpoint
  destination : TransferEndpoint
  sourceSize : Option Nat
  sourceModifiedAt : Option Timestamp
  detectedAt : Timestamp
  deriving DecidableEq, Repr

def ConflictRequest.new (id : ConflictRequestId) (planId : TransferPlanId) (transferId : TransferId)
    (source destination : TransferEndpoint) (detectedAt : Timestamp) : ConflictRequest where
  id := id
  planId := planId
  transferId := transferId
  source := source
  destination := destination
  sourceSize := none
  sourceModifiedAt := none
  detectedAt := detectedAt

def ConflictRequest.withSourceDetails (request : ConflictRequest) (sourceSize : Option Nat)
    (sourceModifiedAt : Option Timestamp) : ConflictRequest :=
  { request with sourceSize := sourceSize, sourceModifiedAt := sourceModifiedAt }

structure TransferFailure where
  transferId : TransferId
  error : UserFacingError
  deriving DecidableEq, Repr

inductive TransferEvent
  | planStarted (snapshot : TransferPlanSnapshot)
  | planProgress (progress : TransferPlanProgress)
  | planCompleted (planId : TransferPlanId)
  | planCancelled (planId : TransferPlanId)
  | planFailed (planId : TransferPlanId) (error : UserFacingError)
  | conflict (prompt : TransferConflictPrompt)
  | running (job : TransferJob)
  | progress (progress : TransferProgress)
  | warning (warning : TransferWarning)
  | completed (transferId : TransferId)
  | skipped (transferId : TransferId)
  | failed (failure : TransferFailure)
  deriving DecidableEq, Repr

/-- The root plan and root job, built before planning moves to a worker. -/
def newPlan (command : StartTransferCommand) (planId : TransferPlanId) (rootJobId : TransferId)
    (createdAt : Timestamp) : TransferPlan × TransferJob :=
  let sourceRoot := command.sources.head?.getD (.local (.new ""))
  ({ id := planId
     rootJobId := rootJobId
     sourceRoot := sourceRoot
     destinationRoot := command.destination
     state := .planning
     plannedCount := 0
     totalBytes := some 0
     childJobs := []
     conflictPolicy := command.conflictPolicy },
   { id := rootJobId
     direction := command.direction
     source := sourceRoot
     destination := command.destination
     state := .planning
     metadataPolicy := command.metadataPolicy
     conflictPolicy := command.conflictPolicy
     warnings := []
     createdAt := createdAt })

end MacSftp
