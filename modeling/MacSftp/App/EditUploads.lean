import MacSftp.App.EventPath
import MacSftp.Edit.Dispatches
import MacSftp.Manager.Accounts
import MacSftp.Runtime.Planning

namespace MacSftp

open Lib

/-- The app with its edit sessions and its drawer, the commands and the plans that are on their way, the transfer manager
with its tasks, and the events on their way back. -/
structure EditUploads where
  process : Process
  -- an upload of an edit session comes with the session's id
  commands : List (Option EditSessionId × StartTransferCommand) := []
  -- the commands whose planning failed, kept for a retry
  planningRetries : List (Option EditSessionId × StartTransferCommand) := []
  nextPlanId : Nat := 1
  nextTransferId : Nat := 1
  handoffs : List (ConnectionId × TransferPlanId × List TransferJob) := []
  transfers : TransferSystem := {}
  events : List TransferEvent := []

inductive EditUploadsOp
  | edit (op : EditOp) (delivered : Bool)
  -- a transfer that the user starts
  | start (command : StartTransferCommand)
  | plan (index : Nat) (connection : ConnectionId) (found : List (TransferEndpoint × TransferEndpoint))
      (totalBytes : Option Nat) (now : Timestamp)
  | planFails (index : Nat) (error : UserFacingError) (cancelled : Bool) (now : Timestamp)
  | retryPlan (index : Nat)
  | handOff (index : Nat)
  | transfer (op : TransferOp)
  -- what a running job tells before it ends
  | news (task : Nat) (event : TransferEvent)
  | hear (now : Timestamp) (readLocalFacts : LocalPath → Option LocalFileFacts)
  | drawer (op : StoreOp)

/-- An upload is asked for in the name of its session. -/
def EditDispatch.request (d : EditDispatch) : Option (Option EditSessionId × StartTransferCommand) :=
  match d.command with
  | .startTransfer command => some (if command.direction = .upload then some d.sessionId else none, command)
  | .checkRemoteEditSnapshot _ => none

def TransferOp.isEnqueue : TransferOp → Bool
  | .receive (.enqueue ..) => true
  | _ => false

def TransferTask.maySay (task : TransferTask) : TransferEvent → Bool
  | .running job => { job with state := task.job.state } = task.job
  | .progress progress => progress.transferId = task.job.id
  | .warning warning => warning.transferId = task.job.id
  | .conflict prompt => prompt.transferId = task.job.id
  | _ => false

namespace RemoteEditLifecycle

/-- A file in the session's own directory. -/
def isCopy (l : RemoteEditLifecycle) (sessionId : EditSessionId) : TransferEndpoint → Bool
  | .local path => (l.tempPath sessionId []).chars.isPrefixOf path.chars
  | .remote _ => false

/-- A file in the directory of this run's edits. -/
def isTemp (l : RemoteEditLifecycle) : TransferEndpoint → Bool
  | .local path => (l.editsDir.chars ++ '/' :: l.runId ++ ['/']).isPrefixOf path.chars
  | .remote _ => false

def uploadsCopy (l : RemoteEditLifecycle) (sessionId : EditSessionId) (job : TransferJob) : Bool :=
  job.direction = .upload && l.isCopy sessionId job.source

variable {l l' : RemoteEditLifecycle} {sessionId : EditSessionId}

theorem isCopy_congr (dir : l'.editsDir = l.editsDir) (run : l'.runId = l.runId) : l'.isCopy = l.isCopy := by
  funext sessionId endpoint
  cases endpoint <;> simp [isCopy, tempPath, dir, run]

theorem uploadsCopy_congr (dir : l'.editsDir = l.editsDir) (run : l'.runId = l.runId) : l'.uploadsCopy = l.uploadsCopy := by
  funext sessionId job
  rw [uploadsCopy, uploadsCopy, isCopy_congr dir run]

theorem isTemp_of_isCopy {endpoint : TransferEndpoint} (copy : l.isCopy sessionId endpoint = true) : l.isTemp endpoint = true := by
  cases endpoint with
  | remote path => cases copy
  | «local» path =>
    rw [isCopy, List.isPrefixOf_iff_prefix] at copy
    rw [isTemp, List.isPrefixOf_iff_prefix]
    refine List.IsPrefix.trans ⟨Nat.toDigits 10 sessionId.raw ++ ['/'], ?_⟩ copy
    simp [tempPath]

theorem isCopy_own {name : List Char} {other : EditSessionId}
    (copy : l.isCopy other (.local (l.tempPath sessionId name)) = true) : other = sessionId := by
  rw [isCopy, List.isPrefixOf_iff_prefix] at copy
  obtain ⟨rest, is⟩ := copy
  apply tempPath_id (l := l) (x := rest) (y := name)
  rw [tempPath, LocalPath.mk.injEq] at *
  simpa [tempPath] using is

end RemoteEditLifecycle

namespace PlanningTask

def childJobs (task : PlanningTask) : Nat → List (TransferEndpoint × TransferEndpoint) → List TransferJob
  | _, [] => []
  | id, (source, destination) :: rest => task.childJob ⟨id⟩ source destination :: task.childJobs (id + 1) rest

end PlanningTask

namespace EditUploads

def new (editsDir : LocalPath) (runId : List Char) : EditUploads where
  process := .new editsDir runId

def lifecycle (s : EditUploads) : RemoteEditLifecycle := s.process.editSessions

def edit (s : EditUploads) (op : EditOp) (delivered : Bool) : EditUploads :=
  if op.isOwn then
    let performed := s.lifecycle.perform op delivered
    { s with
      process := { s.process with editSessions := performed.1 }
      commands := s.commands ++ performed.2.filterMap EditDispatch.request }
  else s

def planningTask (s : EditUploads) (command : StartTransferCommand) (now : Timestamp) : PlanningTask where
  command := command
  planId := ⟨s.nextPlanId⟩
  rootJob := (newPlan command ⟨s.nextPlanId⟩ ⟨s.nextTransferId⟩ now).2
  hasConnection := true

def planStarted (s : EditUploads) (command : StartTransferCommand) (now : Timestamp) : TransferEvent :=
  .planStarted ⟨(newPlan command ⟨s.nextPlanId⟩ ⟨s.nextTransferId⟩ now).1,
    (newPlan command ⟨s.nextPlanId⟩ ⟨s.nextTransferId⟩ now).2⟩

def plan (s : EditUploads) (index : Nat) (connection : ConnectionId) (found : List (TransferEndpoint × TransferEndpoint))
    (totalBytes : Option Nat) (now : Timestamp) : EditUploads :=
  match s.commands[index]? with
  | none => s
  | some (_, command) =>
    let planId : TransferPlanId := ⟨s.nextPlanId⟩
    let jobs := (s.planningTask command now).childJobs (s.nextTransferId + 1) found
    { s with
      commands := s.commands.eraseIdx index
      nextPlanId := s.nextPlanId + 1
      nextTransferId := s.nextTransferId + 1 + jobs.length
      handoffs := s.handoffs ++ [(connection, planId, jobs)]
      events := s.events ++ [s.planStarted command now, .planProgress ⟨planId, jobs, jobs.length, totalBytes⟩,
        .planCompleted planId] }

/-- A cancelled plan is not kept for a retry. -/
def planFails (s : EditUploads) (index : Nat) (error : UserFacingError) (cancelled : Bool) (now : Timestamp) : EditUploads :=
  match s.commands[index]? with
  | none => s
  | some (sender, command) =>
    { s with
      commands := s.commands.eraseIdx index
      planningRetries := if cancelled then s.planningRetries else s.planningRetries ++ [(sender, command)]
      nextPlanId := s.nextPlanId + 1
      nextTransferId := s.nextTransferId + 1
      events := s.events ++ [s.planStarted command now, (s.planningTask command now).finishError error] ++
        if cancelled then [.planCancelled ⟨s.nextPlanId⟩] else [] }

def retryPlan (s : EditUploads) (index : Nat) : EditUploads :=
  match s.planningRetries[index]? with
  | none => s
  | some command => { s with planningRetries := s.planningRetries.eraseIdx index, commands := s.commands ++ [command] }

/-- The manager takes a plan when it waits for a message. -/
def handOff (s : EditUploads) (index : Nat) : EditUploads :=
  match s.handoffs[index]?, s.transfers.phase with
  | some (connection, planId, jobs), .ready =>
    { s with
      handoffs := s.handoffs.eraseIdx index
      transfers := s.transfers.receive (.enqueue connection planId jobs) }
  | _, _ => s

def transfer (s : EditUploads) (op : TransferOp) : EditUploads × List TransferTask :=
  if op.isEnqueue then (s, [])
  else
    let outputs := TransferSystem.machine.out s.transfers op
    ({ s with
        transfers := TransferSystem.machine.next s.transfers op
        events := s.events ++ TransferSystem.sentEvents [(op, outputs)] },
      TransferSystem.startedTasks outputs)

def news (s : EditUploads) (index : Nat) (event : TransferEvent) : EditUploads :=
  match s.transfers.tasks[index]? with
  | none => s
  | some task =>
    if task.stage = .running ∧ task.maySay event then { s with events := s.events ++ [event] } else s

def hear (s : EditUploads) (now : Timestamp) (readLocalFacts : LocalPath → Option LocalFileFacts) : EditUploads :=
  match s.events with
  | [] => s
  | event :: events => { s with events := events, process := s.process.dispatchTransferEvent event now readLocalFacts }

def drawer (s : EditUploads) : StoreOp → EditUploads
  | .applyEvent .. => s
  | op => { s with process := { s.process with transfers := (s.process.transfers.apply op).1 } }

def apply (s : EditUploads) : EditUploadsOp → EditUploads × List TransferTask
  | .edit op delivered => (s.edit op delivered, [])
  | .start command => ({ s with commands := s.commands ++ [(none, command)] }, [])
  | .plan index connection found totalBytes now => (s.plan index connection found totalBytes now, [])
  | .planFails index error cancelled now => (s.planFails index error cancelled now, [])
  | .retryPlan index => (s.retryPlan index, [])
  | .handOff index => (s.handOff index, [])
  | .transfer op => s.transfer op
  | .news index event => (s.news index event, [])
  | .hear now readLocalFacts => (s.hear now readLocalFacts, [])
  | .drawer op => (s.drawer op, [])

def machine : Machine EditUploads EditUploadsOp (List TransferTask) := ⟨apply⟩

/-- The session whose upload the step allows. -/
def authorized (s : EditUploads) : EditUploadsOp → Option EditSessionId
  | .edit op true => s.lifecycle.authorizedBy op
  | _ => none

/-- The job that the step puts back into the queue. -/
def retried (s : EditUploads) : EditUploadsOp → Option TransferJob
  | .transfer (.receive (.retry transferId (some connection))) =>
    (s.transfers.puts (.receive (.retry transferId (some connection)))).head?.map Prod.snd
  | _ => none

/-- The files that an edit upload is to read. -/
def sourcesOf (command : Option EditSessionId × StartTransferCommand) : List TransferEndpoint :=
  if command.1.isSome then command.2.sources else []

def editSources (s : EditUploads) : List TransferEndpoint := (s.commands ++ s.planningRetries).flatMap sourcesOf

def handedJobs (s : EditUploads) : List TransferJob := s.handoffs.flatMap fun handoff => handoff.2.2

/-- Uploads of the session's copy that are still to start. -/
def outstanding (s : EditUploads) (sessionId : EditSessionId) : Nat :=
  s.editSources.countP (s.lifecycle.isCopy sessionId) + s.handedJobs.countP (s.lifecycle.uploadsCopy sessionId) +
    s.transfers.manager.jobsQueued (s.lifecycle.uploadsCopy sessionId)

/-- The plan of an edit upload finds its one file, and the user uploads none of the copies himself. -/
def PlansCopies (s : EditUploads) : EditUploadsOp → Prop
  | .plan index _ found _ _ =>
    match s.commands[index]? with
    | none => True
    | some (some _, command) => found = command.sources.map fun source => (source, command.destination)
    | some (none, command) => command.direction = .upload → ∀ child ∈ found, s.lifecycle.isTemp child.1 = false
  | _ => True

instance (s : EditUploads) (op : EditUploadsOp) : Decidable (s.PlansCopies op) := by
  unfold PlansCopies
  split
  · split <;> infer_instance
  · infer_instance

structure Kept (s : EditUploads) (l : RemoteEditLifecycle) : Prop where
  valid : s.lifecycle.store.Valid
  paths : s.lifecycle.TempPaths
  editsDir : s.lifecycle.editsDir = l.editsDir
  runId : s.lifecycle.runId = l.runId

end EditUploads

end MacSftp
