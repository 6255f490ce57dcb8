import MacSftp.Jobs.Links
import MacSftp.Jobs.Paths
import MacSftp.Lib.Programs
import MacSftp.Runtime.Planning
import MacSftp.Session.Resolve

namespace MacSftp.DownloadPlanning

open Lib

/-- An entry of a listing, as the client gives it: with its whole path. -/
structure DirEntry where
  path : List Char
  kind : FileKind
  size : Option Nat
  deriving DecidableEq, Repr

structure Metadata where
  kind : FileKind
  size : Option Nat
  deriving DecidableEq, Repr

/-- How `send_async` in a `select!` with the token ends. -/
inductive Sent
  | delivered
  | cancelled
  | closed
  deriving DecidableEq, Repr

/-- How the wait for one of the directory scans ends, of which so many are in flight. -/
inductive Joined (scans : Nat)
  | cancelled
  | aborted
  | panicked
  | listed (scan : Fin scans) (result : Except SftpError (List DirEntry))

inductive PlanOp
  | isCancelled
  | fetchTransferId
  -- an event that is given up when the plan is cancelled, and one that is not
  | send (event : TransferEvent)
  | post (event : TransferEvent)
  -- no answer comes when the plan is cancelled
  | symlinkMetadata (path : List Char)
  | joinNext (inFlight : List (List Char))

def PlanOp.Ans : PlanOp → Type
  | isCancelled => Bool
  | fetchTransferId => Nat
  | send _ => Sent
  | post _ => Bool
  | symlinkMetadata _ => Option (Except SftpError Metadata)
  | joinNext inFlight => Joined inFlight.length

/-- The walk stops with an error, or the model has not been given enough steps. -/
inductive PlanStop
  | failed (error : UserFacingError)
  | unfinished
  deriving DecidableEq, Repr

abbrev PlanM := Program PlanOp PlanOp.Ans PlanStop

def ask (op : PlanOp) : PlanM op.Ans := Program.perform op

def fail {α : Type} (error : UserFacingError) : PlanM α := .throw (.failed error)

def failWith {α : Type} (code : ErrorCode) (title message : String) :
    PlanM α := fail { code := code, title := title, message := message }

/-- `?` on an answer of the server. -/
def orFail {α : Type} (title : String) : Except SftpError α → PlanM α
  | .ok a => pure a
  | .error error => fail (Session.remotePlanningError title error)

def isCancelled : PlanM Bool := ask .isCancelled

def ensureNotCancelled : PlanM Unit := do
  let cancelled ← isCancelled
  if cancelled then fail cancelledTransferError else pure ()

def sendProgress : List TransferEvent → PlanM Unit
  | [] => pure ()
  | event :: events => do
    let sent : Sent ← ask (.send event)
    match sent with
    | .delivered => sendProgress events
    | .cancelled => fail cancelledTransferError
    | .closed => failWith .channelClosed "Preparation Stopped" "Transfer preparation updates stopped arriving."

def maxConcurrentDirScans : Nat := 8

/-- Scans are started for the directories on top of the stack, while there is room. -/
def spawnScans : List (List Char) → List (List Char) → List (List Char) × List (List Char)
  | inFlight, [] => (inFlight, [])
  | inFlight, current :: pending =>
    if inFlight.length < maxConcurrentDirScans then spawnScans (inFlight ++ [current]) pending else (inFlight, current :: pending)

/-- The way to an entry from the directory that is downloaded, without slashes in front. -/
def relativePath (root path : List Char) : Option (List Char) :=
  if root <+: path then some ((path.drop root.length).dropWhile (· = '/')) |>.filter (· ≠ []) else none

def isNormal : Component → Bool
  | .normal _ => true
  | _ => false

def localDownloadDestination (destinationRoot : LocalPath) (relative : List Char) : PlanM LocalPath :=
  if relative.any isBidiOrControl ∨ (components relative).any (fun component => !isNormal component) then
    failWith .unknown "Download Preparation Failed" "The remote directory contains an unsafe path. Refresh and try again."
  else pure ⟨joinPath destinationRoot.chars relative⟩

/-- What stays the same while a plan is made. -/
structure RemoteDownloadPlanner where
  command : StartTransferCommand
  planId : TransferPlanId
  createdAt : Timestamp

namespace RemoteDownloadPlanner

def childJob (plan : RemoteDownloadPlanner) (id : TransferId) (source : RemotePath) (destination : LocalPath) : TransferJob where
  id := id
  direction := .download
  source := .remote source
  destination := .local destination
  state := .queued
  metadataPolicy := plan.command.metadataPolicy
  conflictPolicy := plan.command.conflictPolicy
  warnings := []
  createdAt := plan.createdAt

def emitChild (plan : RemoteDownloadPlanner) (planner : Planner) (source : RemotePath) (destination : LocalPath)
    (size : Option Nat) :
    PlanM Planner := do
  ensureNotCancelled
  let id : Nat ← ask .fetchTransferId
  let emitted := planner.emitChild plan.planId (plan.childJob ⟨id⟩ source destination) size
  sendProgress emitted.2
  return emitted.1

/-- One entry of a listing, with the stack of directories that are still to be scanned. -/
def planEntry (plan : RemoteDownloadPlanner) (root : RemotePath) (destinationRoot : LocalPath) (planner : Planner)
    (pending : List (List Char)) (entry : DirEntry) : PlanM (Planner × List (List Char)) := do
  ensureNotCancelled
  match relativePath root.chars entry.path with
  | none => failWith .unknown "Download Preparation Failed" "The remote directory changed while it was being scanned. Try again."
  | some relative =>
    let destination ← localDownloadDestination destinationRoot relative
    if entry.kind = .dir then
      let planner ← plan.emitChild planner ⟨entry.path⟩ destination (some 0)
      return (planner, entry.path :: pending)
    else
      let planner ← plan.emitChild planner ⟨entry.path⟩ destination entry.size
      return (planner, pending)

def planEntries (plan : RemoteDownloadPlanner) (root : RemotePath) (destinationRoot : LocalPath) (planner : Planner)
    (pending : List (List Char)) : List DirEntry → PlanM (Planner × List (List Char))
  | [] => return (planner, pending)
  | entry :: entries => do
    let (planner, pending) ← plan.planEntry root destinationRoot planner pending entry
    planEntries plan root destinationRoot planner pending entries

/-- The loop of `plan_directory`, with the stack of directories, top first, and the scans that are in flight. -/
def scanLoop (plan : RemoteDownloadPlanner) (root : RemotePath) (destinationRoot : LocalPath) :
    Nat → Planner → List (List Char) → List (List Char) → PlanM Planner
  | 0, _, _, _ => .throw .unfinished
  | fuel + 1, planner, pending, inFlight => do
    ensureNotCancelled
    let spawned := spawnScans inFlight pending
    if spawned.1 = [] then return planner
    else
      let joined : Joined spawned.1.length ← ask (.joinNext spawned.1)
      match joined with
      | .cancelled | .aborted => fail cancelledTransferError
      | .panicked => failWith .unknown "Download Preparation Failed" "The directory listing task failed."
      | .listed scan result =>
        let entries ← orFail "Server Folder Unavailable" result
        let (planner, pending) ← plan.planEntries root destinationRoot planner spawned.2 entries
        scanLoop plan root destinationRoot fuel planner pending (spawned.1.eraseIdx scan)

def planDirectory (plan : RemoteDownloadPlanner) (fuel : Nat) (root : RemotePath) (destinationRoot : LocalPath)
    (planner : Planner) :
    PlanM Planner :=
  plan.scanLoop root destinationRoot fuel planner [root.chars] []

def metadata (source : RemotePath) : PlanM Metadata := do
  let known : Option (Except SftpError Metadata) ← ask (.symlinkMetadata source.chars)
  match known with
  | none => fail cancelledTransferError
  | some answer => orFail "Server Item Unavailable" answer

def plan (plan : RemoteDownloadPlanner) (fuel : Nat) : PlanM Planner := do
  ensureNotCancelled
  if plan.command.direction ≠ .download then
    failWith .unknown "Invalid download plan" "The requested transfer is not a download."
  else
    match plan.command.sources, plan.command.destination with
    | [.remote source], .local destination =>
      let metadata ← metadata source
      if metadata.kind = .dir then
        let planner ← plan.emitChild {} source destination (some 0)
        plan.planDirectory fuel source destination planner
      else plan.emitChild {} source destination metadata.size
    | [.remote _], .remote _ => failWith .unknown "Invalid download destination" "Downloads require a local destination."
    | [.local _], _ => failWith .unknown "Invalid download source" "Downloads require a remote file or directory."
    | _, _ => failWith .unknown "Choose one download source" "Select one remote file or directory and try again."

/-- Whether the event arrives makes no difference. -/
def finishError (plan : RemoteDownloadPlanner) (error : UserFacingError) : PlanM Unit := do
  let _ : Bool ← ask (.post (if error.code = .cancelled then .planCancelled plan.planId else .planFailed plan.planId error))
  return ()

def finish (plan : RemoteDownloadPlanner) (planner : Planner) : PlanM Bool := do
  if ← isCancelled then
    plan.finishError cancelledTransferError
    return false
  else
    match ← (sendProgress (planner.flushProgress plan.planId).2).attempt with
    | .error (.failed error) =>
      plan.finishError error
      return false
    | .error .unfinished => .throw .unfinished
    | .ok () =>
      if ← isCancelled then
        plan.finishError cancelledTransferError
        return false
      else ask (.post (.planCompleted plan.planId))

/-- The jobs, or nothing when planning has been cancelled or has failed. -/
def planRemoteDownload (plan : RemoteDownloadPlanner) (fuel : Nat) : PlanM (Option (List TransferJob)) := do
  match ← (plan.plan fuel).attempt with
  | .ok planner => return if ← plan.finish planner then some planner.childJobs else none
  | .error (.failed error) =>
    plan.finishError error
    return none
  | .error .unfinished => .throw .unfinished

end RemoteDownloadPlanner

end MacSftp.DownloadPlanning
