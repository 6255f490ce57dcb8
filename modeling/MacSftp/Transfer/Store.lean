import MacSftp.Lib.Keyed
import MacSftp.Lib.Ordered
import MacSftp.Lib.Runs
import MacSftp.Transfer.Data
import Mathlib.Data.Finset.Dedup

namespace MacSftp

open Lib

inductive IdMatcher
  | empty
  | contiguous (first last : Nat)
  | sorted (ids : List TransferId)
  | set (ids : Finset TransferId)

def IdMatcher.new (ids : List TransferId) : IdMatcher :=
  match ids.head?, ids.getLast? with
  | some first, some last =>
    if last.raw ≥ first.raw ∧ last.raw - first.raw = ids.length - 1 ∧
        (ids.length ≤ 2 ∨ ids.IsChain (fun a b => a.raw + 1 = b.raw)) then
      .contiguous first.raw last.raw
    else if ids.IsChain (· ≤ ·) then
      .sorted ids
    else
      .set ids.toFinset
  | _, _ => .empty

def IdMatcher.contains (matcher : IdMatcher) (id : TransferId) : Bool :=
  match matcher with
  | empty => false
  | contiguous first last => id.raw ≥ first ∧ id.raw ≤ last
  | sorted ids => (binarySearchByKey (fun id => id) id ids).isOk
  | set ids => id ∈ ids

def planHasChild (plan : TransferPlan) (transferId : TransferId) : Bool :=
  match plan.childJobs.head?, plan.childJobs.getLast? with
  | some first, some last =>
    if first ≤ last ∧ transferId ≥ first ∧ transferId ≤ last ∧
        (binarySearchByKey (fun id => id) transferId plan.childJobs).isOk then
      true
    else
      plan.childJobs.contains transferId
  | _, _ => false

structure TransferStore where
  plans : List TransferPlan := []
  jobs : List TransferJob := []
  pendingConflicts : List ConflictRequest := []
  justFinishedPlan : Option TransferPlanId := none
  deriving DecidableEq, Repr

namespace TransferStore

def findPlan (s : TransferStore) (planId : TransferPlanId) : Option TransferPlan :=
  findKey (fun plan => plan.id) planId s.plans

def findJobIndex (s : TransferStore) (transferId : TransferId) : Option Nat :=
  match binarySearchByKey (fun job => job.id) transferId s.jobs with
  | .ok index => some index
  | .error _ => s.jobs.findIdx? (fun job => job.id = transferId)

def findJob (s : TransferStore) (transferId : TransferId) : Option TransferJob :=
  (s.findJobIndex transferId).bind (s.jobs[·]?)

/-- Looks a job up and rewrites it, unless `edit` leaves it as it is: the shape of every single-job update. -/
def editJob (s : TransferStore) (transferId : TransferId) (edit : TransferJob → Option TransferJob) :
    TransferStore × Bool :=
  match s.findJobIndex transferId with
  | none => (s, false)
  | some index =>
    match (s.jobs[index]?).bind edit with
    | none => (s, false)
    | some job => ({ s with jobs := s.jobs.set index job }, true)

def withState (state : TransferState) (job : TransferJob) : Option TransferJob :=
  if job.state = state then none else some { job with state := state }

def setJobState (s : TransferStore) (transferId : TransferId) (state : TransferState) : TransferStore × Bool :=
  s.editJob transferId (withState state)

def markCancelling (s : TransferStore) (transferId : TransferId) : TransferStore × Bool :=
  s.editJob transferId fun job =>
    match job.state with
    | .queued | .running .. => some { job with state := .cancelling }
    | _ => none

def applyProgress (s : TransferStore) (progress : TransferProgress) (now : Timestamp) : TransferStore × Bool :=
  s.editJob progress.transferId fun job =>
    match job.state with
    | .cancelling | .completed | .skipped | .failed .. => none
    | .running _ _ startedAt => withState (.running progress.bytesDone progress.bytesTotal startedAt) job
    | _ => withState (.running progress.bytesDone progress.bytesTotal now) job

def applyWarning (s : TransferStore) (warning : TransferWarning) : TransferStore × Bool :=
  s.editJob warning.transferId fun job =>
    if warning ∈ job.warnings then none else some { job with warnings := job.warnings ++ [warning] }

def removeConflict (s : TransferStore) (requestId : ConflictRequestId) : TransferStore × Bool :=
  let kept := s.pendingConflicts.filter (fun conflict => conflict.id ≠ requestId)
  ({ s with pendingConflicts := kept }, kept.length ≠ s.pendingConflicts.length)

def removeConflicts : TransferStore → List ConflictRequestId → TransferStore × Bool
  | s, [] => (s, false)
  | s, requestId :: rest =>
    let (s, removed) := s.removeConflict requestId
    let (s, more) := s.removeConflicts rest
    (s, removed || more)

def insertPlan (s : TransferStore) (plan : TransferPlan) : TransferStore × Bool :=
  if s.plans.any (fun existing => existing.id = plan.id) then (s, false)
  else ({ s with plans := s.plans ++ [plan] }, true)

def insertJob (s : TransferStore) (job : TransferJob) : TransferStore × Bool :=
  match binarySearchByKey (fun job => job.id) job.id s.jobs with
  | .ok _ => (s, false)
  | .error pos => ({ s with jobs := s.jobs.insertIdx pos job }, true)

def upsertJob (s : TransferStore) (job : TransferJob) : TransferStore × Bool :=
  match binarySearchByKey (fun job => job.id) job.id s.jobs with
  | .ok index =>
    if s.jobs[index]? = some job then (s, false)
    else ({ s with jobs := s.jobs.set index job }, true)
  | .error pos => ({ s with jobs := s.jobs.insertIdx pos job }, true)

def upsertConflict (s : TransferStore) (conflict : ConflictRequest) : TransferStore × Bool :=
  match findKey (fun existing => existing.id) conflict.id s.pendingConflicts with
  | some existing =>
    if existing = conflict then (s, false)
    else
      ({ s with pendingConflicts := updateKey (fun existing => existing.id) conflict.id (fun _ => conflict)
                  s.pendingConflicts }, true)
  | none => ({ s with pendingConflicts := s.pendingConflicts ++ [conflict] }, true)

def applyConflict (s : TransferStore) (prompt : TransferConflictPrompt) (now : Timestamp) : TransferStore × Bool :=
  let (s, waiting) :=
    s.setJobState prompt.transferId (.waitingForConflictDecision prompt.planId prompt.requestId)
  let conflict := (ConflictRequest.new prompt.requestId prompt.planId prompt.transferId prompt.source
    prompt.destination now).withSourceDetails prompt.sourceSize prompt.sourceModifiedAt
  let (s, upserted) := s.upsertConflict conflict
  (s, waiting || upserted)

def isMonotonicallyAscending (last firstNew : Option TransferId) : Bool :=
  match last, firstNew with
  | some last, some firstNew => firstNew > last
  | none, some _ => true
  | _, none => false

def extendChildren (children : List TransferId) (batch : List TransferJob) : List TransferId × Bool :=
  if isMonotonicallyAscending children.getLast? (batch.head?.map (fun job => job.id)) then
    (children ++ batch.map (fun job => job.id), true)
  else
    let matcher := IdMatcher.new children
    let toAdd := batch.filterMap (fun job => if matcher.contains job.id then none else some job.id)
    (children ++ toAdd, toAdd ≠ [])

def extendPlan (plan : TransferPlan) (progress : TransferPlanProgress) : TransferPlan × Bool :=
  let counted := progress.plannedCount > plan.plannedCount
  let extended := extendChildren plan.childJobs progress.childJobs
  ({ plan with
      plannedCount := if counted then progress.plannedCount else plan.plannedCount
      totalBytes := if counted then progress.totalBytes else plan.totalBytes
      childJobs := extended.1 }, counted || extended.2)

def insertEach : TransferStore → List TransferJob → TransferStore × Bool
  | s, [] => (s, false)
  | s, job :: rest =>
    let (s, inserted) := s.insertJob job
    let (s, more) := s.insertEach rest
    (s, inserted || more)

def insertJobs (s : TransferStore) (batch : List TransferJob) : TransferStore × Bool :=
  if isMonotonicallyAscending (s.jobs.getLast?.map (fun job => job.id)) (batch.head?.map (fun job => job.id)) then
    ({ s with jobs := s.jobs ++ batch }, true)
  else s.insertEach batch

def applyPlanProgress (s : TransferStore) (progress : TransferPlanProgress) : TransferStore × Bool :=
  match s.findPlan progress.planId with
  | none => s.insertJobs progress.childJobs
  | some plan =>
    if plan.state.isTerminal then (s, false)
    else
      let (extended, changed) := extendPlan plan progress
      let plans := updateKey (fun plan => plan.id) progress.planId (fun _ => extended) s.plans
      let (s, inserted) := { s with plans := plans }.insertJobs progress.childJobs
      (s, changed || inserted)

def setPlanState (s : TransferStore) (planIndex : Nat) (state : TransferPlanState) : TransferStore :=
  { s with plans := s.plans.modify planIndex (fun plan => { plan with state := state }) }

def planIndexOf (s : TransferStore) (planId : TransferPlanId) : Option (Nat × TransferPlan) :=
  (s.plans.findIdx? (fun plan => plan.id = planId)).bind
    (fun planIndex => (s.plans[planIndex]?).map (fun plan => (planIndex, plan)))

def applyPlanCompleted (s : TransferStore) (planId : TransferPlanId) : TransferStore × Bool :=
  match s.planIndexOf planId with
  | none => (s, false)
  | some (planIndex, plan) =>
    if plan.state.isTerminal then (s, false)
    else
      let planState := if plan.childJobs = [] then TransferPlanState.completed else .queued
      let rootState := if plan.childJobs = [] then TransferState.completed else .queued
      let (s, changed) := (s.setPlanState planIndex planState).setJobState plan.rootJobId rootState
      (s, plan.state ≠ planState || changed)

def childJobsSliceRange (s : TransferStore) (plan : TransferPlan) : Option (Nat × Nat) :=
  match plan.childJobs.head?, plan.childJobs.getLast? with
  | some firstId, some lastId =>
    match s.findJobIndex firstId, s.findJobIndex lastId with
    | some firstIdx, some lastIdx =>
      if lastIdx ≥ firstIdx ∧ lastIdx - firstIdx + 1 = plan.childJobs.length then some (firstIdx, lastIdx) else none
    | _, _ => none
  | _, _ => none

/-- Rewrites the plan's root and children that `stale` selects, as the three branches of a plan-level outcome do. -/
def settleJobs (s : TransferStore) (plan : TransferPlan) (stale : TransferJob → Bool) (state : TransferState) :
    TransferStore × Bool :=
  let settle := fun (job : TransferJob) => if stale job then { job with state := state } else job
  let settleRoot := s.editJob plan.rootJobId (fun job => if stale job then some { job with state := state } else none)
  if plan.childJobs = [] then settleRoot
  else
    match s.childJobsSliceRange plan with
    | some (lo, hi) =>
      let (s, changed) := settleRoot
      ({ s with jobs := modifyRange lo hi settle s.jobs }, changed || (slice lo hi s.jobs).any stale)
    | none =>
      let matcher := IdMatcher.new plan.childJobs
      let concerned := fun (job : TransferJob) => (job.id = plan.rootJobId || matcher.contains job.id) && stale job
      ({ s with jobs := s.jobs.map (fun job => if concerned job then { job with state := state } else job) },
        s.jobs.any concerned)

def setPlanTerminalState (s : TransferStore) (planId : TransferPlanId) (planState : TransferPlanState)
    (jobState : TransferState) : TransferStore × Bool :=
  match s.planIndexOf planId with
  | none => (s, false)
  | some (planIndex, plan) =>
    let (s, settled) := (s.setPlanState planIndex planState).settleJobs plan (fun job => job.state ≠ jobState) jobState
    let changed := plan.state ≠ planState || settled
    ({ s with justFinishedPlan := if changed then some planId else s.justFinishedPlan }, changed)

def setPlanCancelled (s : TransferStore) (planId : TransferPlanId) : TransferStore × Bool :=
  match s.planIndexOf planId with
  | none => (s, false)
  | some (planIndex, plan) =>
    match plan.state with
    | .cancelled | .failed _ => (s, false)
    | _ =>
      let (s, changed) := s.settleJobs plan (fun job => !job.state.isTerminal) .skipped
      if changed then ({ s.setPlanState planIndex .cancelled with justFinishedPlan := some planId }, true)
      else (s, false)

def countFinished : Nat → Bool → List TransferJob → Option (Nat × Bool)
  | finished, anyFailed, [] => some (finished, anyFailed)
  | finished, anyFailed, job :: rest =>
    match job.state with
    | .completed | .skipped => countFinished (finished + 1) anyFailed rest
    | .failed .. => countFinished (finished + 1) true rest
    | _ => none

def finishedWithFailures : UserFacingError where
  code := .unknown
  title := "Transfer finished with failures"
  message := "Some files could not be transferred."

/-- The child rows the finalizer looks at: the slice between first and last child when its length fits. -/
def childRows (s : TransferStore) (plan : TransferPlan) : List TransferJob :=
  match s.childJobsSliceRange plan with
  | some (lo, hi) => slice lo hi s.jobs
  | none => s.jobs.filter (fun job => (IdMatcher.new plan.childJobs).contains job.id)

def finishPlan (s : TransferStore) (planIndex : Nat) (plan : TransferPlan) (anyFailed : Bool) : TransferStore :=
  let planState := if anyFailed then TransferPlanState.failed finishedWithFailures else .completed
  let rootState := if anyFailed then TransferState.failed finishedWithFailures true else .completed
  let s := s.setPlanState planIndex planState
  { s with
    jobs := updateKey (fun job => job.id) plan.rootJobId (fun job => { job with state := rootState }) s.jobs
    justFinishedPlan := some plan.id }

def finalizePlan (s : TransferStore) (planIndex : Nat) (plan : TransferPlan) : TransferStore × Bool :=
  if plan.state.isTerminal then (s, false)
  else
    match countFinished 0 false (s.childRows plan).reverse with
    | none => (s, false)
    | some (finished, anyFailed) =>
      if finished ≠ plan.childJobs.length then (s, false)
      else (s.finishPlan planIndex plan anyFailed, true)

def finalizePlanForJob (s : TransferStore) (transferId : TransferId) : TransferStore × Bool :=
  match (s.plans.findIdx? (planHasChild · transferId)).bind
      (fun planIndex => (s.plans[planIndex]?).map (fun plan => (planIndex, plan))) with
  | some (planIndex, plan) => s.finalizePlan planIndex plan
  | none =>
    match s.plans.find? (fun plan => plan.rootJobId = transferId ∧ plan.childJobs = []) with
    | some plan => ({ s with justFinishedPlan := some plan.id }, false)
    | none => (s, false)

def setTransferTerminal (s : TransferStore) (transferId : TransferId) (state : TransferState) : TransferStore × Bool :=
  let (s, changed) := s.setJobState transferId state
  let conflictIds := (s.pendingConflicts.filter (fun conflict => conflict.transferId = transferId)).map
    (fun conflict => conflict.id)
  let (s, conflictsChanged) := s.removeConflicts conflictIds
  let (s, finalized) := s.finalizePlanForJob transferId
  (s, changed || conflictsChanged || finalized)

def applyEvent (s : TransferStore) (event : TransferEvent) (now : Timestamp) : TransferStore × Bool :=
  let s := { s with justFinishedPlan := none }
  match event with
  | .planStarted snapshot =>
    let (s, planInserted) := s.insertPlan snapshot.plan
    let (s, jobInserted) := s.insertJob snapshot.rootJob
    (s, planInserted || jobInserted)
  | .planProgress progress => s.applyPlanProgress progress
  | .planCompleted planId => s.applyPlanCompleted planId
  | .planCancelled planId => s.setPlanCancelled planId
  | .planFailed planId error => s.setPlanTerminalState planId (.failed error) (.failed error error.retryable)
  | .running job => s.upsertJob job
  | .conflict prompt => s.applyConflict prompt now
  | .progress progress => s.applyProgress progress now
  | .warning warning => s.applyWarning warning
  | .completed transferId => s.setTransferTerminal transferId .completed
  | .skipped transferId => s.setTransferTerminal transferId .skipped
  | .failed failure => s.setTransferTerminal failure.transferId (.failed failure.error failure.error.retryable)

def clearTerminal (s : TransferStore) : TransferStore × Bool :=
  let jobs := s.jobs.filter (fun job => !job.state.isTerminal)
  let remainingIds := (jobs.map (fun job => job.id)).toFinset
  let plans := s.plans.filter (fun plan => plan.rootJobId ∈ remainingIds || plan.childJobs.any (· ∈ remainingIds))
  ({ s with jobs := jobs, plans := plans }, jobs.length ≠ s.jobs.length)

end TransferStore

inductive StoreOp
  | applyEvent (event : TransferEvent) (now : Timestamp)
  | markCancelling (transferId : TransferId)
  | removeConflict (requestId : ConflictRequestId)
  | clearTerminal
  deriving DecidableEq, Repr

def TransferStore.apply (s : TransferStore) : StoreOp → TransferStore × Bool
  | .applyEvent event now => s.applyEvent event now
  | .markCancelling transferId => s.markCancelling transferId
  | .removeConflict requestId => s.removeConflict requestId
  | .clearTerminal => s.clearTerminal

def TransferStore.machine : Machine TransferStore StoreOp Bool := ⟨TransferStore.apply⟩

end MacSftp
