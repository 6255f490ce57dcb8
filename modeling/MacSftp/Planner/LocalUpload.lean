import MacSftp.Core.Paths
import MacSftp.Jobs.Paths
import MacSftp.Lib.Programs
import MacSftp.Runtime.Planning

namespace MacSftp.UploadPlanning

open Lib

inductive IoErrorKind
  | notFound
  | permissionDenied
  | other
  deriving DecidableEq, Repr

structure IoError where
  kind : IoErrorKind
  text : String
  deriving DecidableEq, Repr

inductive LocalFileType
  | directory
  | symlink
  | file
  deriving DecidableEq, Repr

structure LocalMetadata where
  fileType : LocalFileType
  len : Nat
  deriving DecidableEq, Repr

/-- What the planner asks of the file system, of the token, of the shared id counter and of the event channel. An entry
of a directory is known by its path. -/
inductive PlanOp
  | isCancelled
  | fetchTransferId
  | send (event : TransferEvent)
  | symlinkMetadata (path : List Char)
  | readDir (path : List Char)
  | entryFileType (path : List Char)
  | entryMetadata (path : List Char)

def PlanOp.Ans : PlanOp → Type
  | isCancelled => Bool
  | fetchTransferId => Nat
  | send _ => Bool
  | symlinkMetadata _ => Except IoError LocalMetadata
  | readDir _ => Except IoError (List (Except IoError (List Char)))
  | entryFileType _ => Except IoError LocalFileType
  | entryMetadata _ => Except IoError LocalMetadata

/-- The walk stops with an error, or the model has not been given enough steps. -/
inductive PlanStop
  | failed (error : UserFacingError)
  | unfinished
  deriving DecidableEq, Repr

abbrev PlanM := Program PlanOp PlanOp.Ans PlanStop

def ask (op : PlanOp) : PlanM op.Ans := Program.perform op

def fail {α : Type} (error : UserFacingError) : PlanM α := .throw (.failed error)

def unsafeName (name : List Char) : Bool := name.any isBidiOrControl

def planningIoError (title : String) (error : IoError) : UserFacingError where
  code :=
    match error.kind with
    | .notFound => .notFound
    | .permissionDenied => .permissionDenied
    | .other => .unknown
  title := title
  message := "Check the source files and permissions, then try again."
  detail := some error.text
  retryable := true

def cancelledError : UserFacingError :=
  { code := .cancelled, title := "Preparation Cancelled", message := "Transfer preparation was cancelled." }

/-- `?` on a result of the file system. -/
def orFail {α : Type} (title : String) : Except IoError α → PlanM α
  | .ok a => pure a
  | .error error => fail (planningIoError title error)

def isCancelled : PlanM Bool := ask .isCancelled

def sendEvent (event : TransferEvent) : PlanM Bool := ask (.send event)

def ensureNotCancelled : PlanM Unit := do
  let cancelled ← isCancelled
  if cancelled then fail cancelledError else pure ()

def sendProgress : List TransferEvent → PlanM Unit
  | [] => pure ()
  | event :: events => do
    let delivered ← sendEvent event
    if delivered then sendProgress events
    else
      fail { code := .channelClosed, title := "Preparation Stopped",
             message := "Transfer preparation updates stopped arriving." }

/-- The type from the directory entry, or else from the file system. -/
def entryFileType (path : List Char) : PlanM LocalFileType := do
  let known ← ask (.entryFileType path)
  match known with
  | .ok fileType => pure fileType
  | .error _ =>
    let metadata ← ask (.symlinkMetadata path)
    orFail "Item Couldn’t Be Checked" (Except.map LocalMetadata.fileType metadata)

def entryMetadata (path : List Char) : PlanM LocalMetadata := do
  let known ← ask (.entryMetadata path)
  match known with
  | .ok metadata => pure metadata
  | .error _ =>
    let metadata ← ask (.symlinkMetadata path)
    orFail "Item Couldn’t Be Checked" metadata

/-- What stays the same while a plan is made. -/
structure LocalUploadPlanner where
  command : StartTransferCommand
  planId : TransferPlanId
  createdAt : Timestamp

/-- A directory to be read, with where it goes. -/
abbrev PlannedDirectory := List Char × RemotePath

namespace LocalUploadPlanner

def childJob (plan : LocalUploadPlanner) (direction : TransferDirection) (id : TransferId) (source destination : TransferEndpoint) :
    TransferJob where
  id := id
  direction := direction
  source := source
  destination := destination
  state := .queued
  metadataPolicy := plan.command.metadataPolicy
  conflictPolicy := plan.command.conflictPolicy
  warnings := []
  createdAt := plan.createdAt

def emitChild (plan : LocalUploadPlanner) (planner : Planner) (source : List Char) (destination : RemotePath) (size : Nat) :
    PlanM Planner := do
  ensureNotCancelled
  let id ← ask .fetchTransferId
  let emitted := planner.emitChild plan.planId (plan.childJob .upload ⟨id⟩ (.local ⟨source⟩) (.remote destination)) (some size)
  sendProgress emitted.2
  return emitted.1

/-- An entry whose name is safe. -/
def planNamed (plan : LocalUploadPlanner) (planner : Planner) (path : List Char) (destination : RemotePath)
    (subdirectories : List PlannedDirectory) : PlanM (Planner × List PlannedDirectory) := do
  let fileType ← entryFileType path
  match fileType with
  | .directory =>
    let planner ← plan.emitChild planner path destination 0
    return (planner, subdirectories ++ [(path, destination)])
  | .symlink =>
    let planner ← plan.emitChild planner path destination 0
    return (planner, subdirectories)
  | .file =>
    let metadata ← entryMetadata path
    let planner ← plan.emitChild planner path destination metadata.len
    return (planner, subdirectories)

/-- One entry of a directory, with the subdirectories that have been found so far. -/
def planEntry (plan : LocalUploadPlanner) (planner : Planner) (directory : PlannedDirectory) (entry : Except IoError (List Char))
    (subdirectories : List PlannedDirectory) : PlanM (Planner × List PlannedDirectory) := do
  ensureNotCancelled
  let name ← orFail "Item Couldn’t Be Read" entry
  if unsafeName name then
    fail
      { code := .unknown
        title := "Unsafe File Name"
        message := "The folder contains an item with an unsafe name that cannot be uploaded safely." }
  else plan.planNamed planner (joinPath directory.1 name) (directory.2.join name) subdirectories

def planEntries (plan : LocalUploadPlanner) (directory : PlannedDirectory) (planner : Planner)
    (subdirectories : List PlannedDirectory) :
    List (Except IoError (List Char)) → PlanM (Planner × List PlannedDirectory)
  | [] => return (planner, subdirectories)
  | entry :: entries => do
    let (planner, subdirectories) ← plan.planEntry planner directory entry subdirectories
    planEntries plan directory planner subdirectories entries

/-- The loop of `plan_directory`. The top of the stack comes first, so pushing the subdirectories last one first leaves
the first of them on top. -/
def planDirectory (plan : LocalUploadPlanner) : Nat → Planner → List PlannedDirectory → PlanM Planner
  | _, planner, [] => return planner
  | 0, _, _ :: _ => .throw .unfinished
  | fuel + 1, planner, directory :: dirStack => do
    ensureNotCancelled
    let listed ← ask (.readDir directory.1)
    let entries ← orFail "Folder Couldn’t Be Read" listed
    let (planner, subdirectories) ← plan.planEntries directory planner [] entries
    planDirectory plan fuel planner (subdirectories.reverse.foldl (fun stack subdirectory => subdirectory :: stack) dirStack)

/-- Where a source that is no directory goes: alone, to the destination itself. -/
def itemDestination (plan : LocalUploadPlanner) (destinationRoot : RemotePath) (name : Option (List Char)) : PlanM RemotePath :=
  if plan.command.sources.length = 1 then
    if (name.map unsafeName).getD false then
      fail
        { code := .unknown
          title := "Unsafe File Name"
          message := "The file has an unsafe name that cannot be uploaded safely." }
    else pure destinationRoot
  else
    match name with
    | none =>
      fail
        { code := .notFound
          title := "Item Has No Name"
          message := "Choose a file or folder with a valid name and try again." }
    | some name =>
      if unsafeName name then
        fail
          { code := .unknown
            title := "Unsafe Item Name"
            message := "The item has an unsafe name that cannot be uploaded safely." }
      else pure (destinationRoot.join name)

def planSource (plan : LocalUploadPlanner) (fuel : Nat) (planner : Planner) (source : LocalPath) (destinationRoot : RemotePath) :
    PlanM Planner := do
  ensureNotCancelled
  let known ← ask (.symlinkMetadata source.chars)
  let metadata ← orFail "Upload Item Unavailable" known
  if metadata.fileType = .directory then
    match fileName source.chars with
    | none =>
      fail { code := .notFound, title := "Folder Has No Name", message := "Choose a folder with a valid name and try again." }
    | some name =>
      if unsafeName name then
        fail
          { code := .unknown
            title := "Unsafe Folder Name"
            message := "The folder has an unsafe name that cannot be uploaded safely." }
      else
        let destination := destinationRoot.join name
        let planner ← plan.emitChild planner source.chars destination 0
        plan.planDirectory fuel planner [(source.chars, destination)]
  else
    let destination ← plan.itemDestination destinationRoot (fileName source.chars)
    plan.emitChild planner source.chars destination (if metadata.fileType = .symlink then 0 else metadata.len)

def planSources (plan : LocalUploadPlanner) (fuel : Nat) (destinationRoot : RemotePath) (planner : Planner) :
    List TransferEndpoint → PlanM Planner
  | [] => return planner
  | .remote _ :: _ =>
    fail { code := .unknown, title := "Invalid Upload Source", message := "Select files or folders on your Mac to upload." }
  | .local source :: sources => do
    let planner ← plan.planSource fuel planner source destinationRoot
    planSources plan fuel destinationRoot planner sources

def planSingleDownload (plan : LocalUploadPlanner) : PlanM Planner := do
  ensureNotCancelled
  match plan.command.sources, plan.command.destination with
  | [.remote source], .local destination =>
    let id ← ask .fetchTransferId
    let counted : Planner := { plannedCount := 1, totalBytes := none }
    let queued := counted.queueProgress plan.planId (plan.childJob .download ⟨id⟩ (.remote source) (.local destination))
    sendProgress queued.2
    return queued.1
  | [_], _ =>
    fail
      { code := .unknown
        title := "Invalid download source or destination"
        message := "Downloads require a remote source file and local destination file." }
  | _, _ =>
    fail
      { code := .unknown
        title := "Choose one file to download"
        message := "Multi-file and directory downloads are not available yet." }

def planUpload (plan : LocalUploadPlanner) (fuel : Nat) : PlanM Planner :=
  match plan.command.destination with
  | .local _ =>
    fail { code := .unknown, title := "Invalid Upload Destination", message := "Choose a destination folder on the server." }
  | .remote destinationRoot =>
    if plan.command.sources = [] then
      fail
        { code := .notFound
          title := "Nothing Selected"
          message := "Select at least one file or folder on your Mac and try again." }
    else plan.planSources fuel destinationRoot {} plan.command.sources

/-- Whether the event arrives makes no difference. -/
def finishError (plan : LocalUploadPlanner) (error : UserFacingError) : PlanM Unit := do
  let _ ← sendEvent (if error.code = .cancelled then .planCancelled plan.planId else .planFailed plan.planId error)
  return ()

def finish (plan : LocalUploadPlanner) (planner : Planner) : PlanM Bool := do
  if ← isCancelled then
    plan.finishError cancelledError
    return false
  else
    match ← (sendProgress (planner.flushProgress plan.planId).2).attempt with
    | .error (.failed error) =>
      plan.finishError error
      return false
    | .error .unfinished => .throw .unfinished
    | .ok () =>
      if ← isCancelled then
        plan.finishError cancelledError
        return false
      else sendEvent (.planCompleted plan.planId)

/-- The jobs, or nothing when planning has been cancelled or has failed. -/
def planLocalUpload (plan : LocalUploadPlanner) (fuel : Nat) : PlanM (Option (List TransferJob)) := do
  match ← (if plan.command.direction = .download then plan.planSingleDownload else plan.planUpload fuel).attempt with
  | .ok planner => return if ← plan.finish planner then some planner.childJobs else none
  | .error (.failed error) =>
    plan.finishError error
    return none
  | .error .unfinished => .throw .unfinished

end LocalUploadPlanner

end MacSftp.UploadPlanning
