import MacSftp.Jobs.Download
import MacSftp.Manager.System

namespace MacSftp

open Lib

def destinationExists (job : TransferJob) : JobM Bool :=
  match job.destination with
  | .remote destination => do
    let found : Except SftpError FileAttributes ← perform (.stat destination)
    match found with
    | .ok _ => pure true
    | .error error =>
      if error.status = some .noSuchFile then pure false
      else
        Program.throw (transferError .unknown "Server Destination Unavailable"
          "The remote destination could not be checked. Try again." (sftpStatusGuidance error))
  | .local destination => do
    let found : Except IoError LocalMetadata ← perform (.symlinkMetadata destination)
    match found with
    | .ok _ => pure true
    | .error error =>
      if error.kind = .notFound then pure false
      else Program.throw (localTransferError "Download Destination Unavailable" error)

def remoteIsDir (destination : RemotePath) : JobM Bool := do
  let found : Except SftpError FileAttributes ← perform (.lstat destination)
  match found with
  | .ok attributes => pure (attributes.kind = .dir)
  | .error error =>
    if error.status = some .noSuchFile then pure false
    else
      Program.throw (transferError .unknown "Server Folder Unavailable"
        "The remote destination could not be checked. Try again." (sftpStatusGuidance error))

def localIsDir (destination : LocalPath) : JobM Bool := do
  let found : Except IoError LocalMetadata ← perform (.symlinkMetadata destination)
  match found with
  | .ok metadata => pure (metadata.kind = .dir)
  | .error error =>
    if error.kind = .notFound then pure false
    else Program.throw (localTransferError "Download Folder Unavailable" error)

def directoriesCanMerge (job : TransferJob) : JobM Bool :=
  match job.source, job.destination with
  | .local source, .remote destination => do
    let found : Except IoError LocalMetadata ← perform (.symlinkMetadata source)
    let metadata ← orThrow (localTransferError "Upload Item Unavailable") found
    if metadata.kind ≠ .dir then pure false else remoteIsDir destination
  | .remote source, .local destination => do
    let found : Except SftpError FileAttributes ← perform (.lstat source)
    let attributes ← orThrow (fun error => transferError .unknown "Server Item Unavailable"
      "The remote source could not be checked. Try again." (sftpStatusGuidance error)) found
    if attributes.kind ≠ .dir then pure false else localIsDir destination
  | _, _ => pure false

def conflictSourceDetails (job : TransferJob) : JobM (Option Nat × Option Timestamp) :=
  match job.source with
  | .local source => do
    let found : Except IoError LocalMetadata ← perform (.symlinkMetadata source)
    match found with
    | .ok metadata => pure (some metadata.len, metadata.modified)
    | .error _ => pure (none, none)
  | .remote source => do
    let found : Except SftpError FileAttributes ← perform (.lstat source)
    match found with
    | .ok attributes => pure (attributes.size, attributes.mtime.map Timestamp.fromSecsSinceEpoch)
    | .error _ => pure (none, none)

def renamedEndpoint (newName : List Char) : TransferEndpoint → TransferEndpoint
  | .remote path =>
    let parent := ((rsplitOnce path.chars).map Prod.fst).getD []
    .remote ⟨if parent = [] then newName else parent ++ '/' :: newName⟩
  | .local path => .local ⟨joinPath ((parentPath path.chars).getD []) newName⟩

def renameDestination (job : TransferJob) (newName : List Char) : Except UserFacingError TransferJob :=
  if newName = [] ∨ newName = ['.'] ∨ newName = ['.', '.'] ∨ '/' ∈ newName then
    .error (notRetryable .notFound "Invalid destination name"
      "Choose a non-empty file name without path separators or parent-directory names.")
  else .ok { job with destination := renamedEndpoint newName job.destination }

/-- `str::rsplit_once('.')` of a file name. -/
def splitExtension (name : List Char) : Option (List Char × List Char) :=
  match name.reverse.dropWhile (· ≠ '.') with
  | [] => none
  | _ :: front => some (front.reverse, (name.reverse.takeWhile (· ≠ '.')).reverse)

def copyName (name : List Char) : List Char :=
  match splitExtension name with
  | some (stem, extension) =>
    if stem = [] then name ++ " (copy)".toList else stem ++ " (copy).".toList ++ extension
  | none => name ++ " (copy)".toList

def copyNameForDestination (destination : TransferEndpoint) : List Char :=
  let path :=
    match destination with
    | .local path => path.chars
    | .remote path => path.chars
  copyName (((rsplitOnce path).map Prod.snd).getD path)

def renameTo (job : TransferJob) (newName : List Char) : JobM TransferJob := do
  let renamed ← orThrow id (renameDestination job newName)
  let taken ← destinationExists renamed
  failIf taken (notRetryable .fileExists "Destination already exists" "Choose another name and try again.")
  pure renamed

def applyToPlan (applyToAll : Bool) (planId : TransferPlanId) (policy : ConflictPolicy) : JobM Unit :=
  if applyToAll then perform (.setPlanPolicy planId policy) else pure ()

def settleWaiters (applyToAll : Bool) (planId : TransferPlanId) (decision : ConflictDecision) : JobM Unit :=
  if applyToAll then perform (.resolveWaitersForPlan planId decision) else pure ()

def applyDecision (job : TransferJob) (planId : TransferPlanId) : ConflictDecision → JobM TransferJob
  | .overwrite applyToAll => do
    applyToPlan applyToAll planId .overwriteAll
    settleWaiters applyToAll planId (.overwrite false)
    pure { job with conflictPolicy := .overwriteAll }
  | .skip applyToAll => do
    applyToPlan applyToAll planId .skipAll
    settleWaiters applyToAll planId (.skip false)
    Program.throw cancelledTransferError
  | .rename newName applyToAll => do
    let renamed ← renameTo job newName.toList
    applyToPlan applyToAll planId (.renameAll (.explicitName newName))
    pure renamed
  | .cancelJob => Program.throw cancelledTransferError

def askForDecision (job : TransferJob) (planId : TransferPlanId) : JobM ConflictDecision := do
  let requestId : ConflictRequestId ← perform .nextRequestId
  let _ : Unit ← perform (.registerWaiter requestId planId)
  let details ← conflictSourceDetails job
  let received : Bool ← perform (.emit (.transfer (.conflict
    ⟨requestId, planId, job.id, job.source, job.destination, details.1, details.2⟩)))
  failIf (!received) transferStoppedError
  let decision : ConflictDecision ← perform (.decision requestId)
  let _ : Unit ← perform (.removeWaiter requestId)
  pure decision

def resolveExisting (job : TransferJob) (planId : TransferPlanId) : JobM TransferJob :=
  match job.conflictPolicy with
  | .overwriteAll => pure job
  | .skipAll => Program.throw cancelledTransferError
  | .renameAll .appendCopySuffix => renameTo job (copyNameForDestination job.destination)
  | .renameAll (.explicitName name) => renameTo job name.toList
  | .ask => do
    let decision ← askForDecision job planId
    applyDecision job planId decision

/-- Gives the job as it goes on, with its destination and policy settled. -/
def resolveTransferConflict (job : TransferJob) (planId : TransferPlanId) : JobM TransferJob :=
  if job.conflictPolicy = .overwriteAll then pure job
  else do
    let found ← destinationExists job
    if found then do
      let merge ← directoriesCanMerge job
      if merge then pure job else resolveExisting job planId
    else pure job

/-- The transfer proper, over a raw session. -/
def transferFile (chunkSize : UInt32) (job : TransferJob) (connectionKey : String) (mayClearDestination : Bool) : JobM Unit :=
  match job.direction with
  | .upload => uploadSingleFilePipelined chunkSize job connectionKey
  | .download => downloadSingleFilePipelined chunkSize job mayClearDestination

end MacSftp
