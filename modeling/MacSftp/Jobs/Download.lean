import MacSftp.Jobs.Upload
import MacSftp.Jobs.Links

namespace MacSftp

open Lib

def cleanupLocalTemp (temporary : LocalPath) (transferId : TransferId) (residualTransferId : Option TransferId) : JobM Bool :=
  if ¬partMark <:+: temporary.chars then pure false
  else do
    let removed : Except IoError Unit ← perform (.removeFile temporary)
    let cleaned ← (match removed with
      | .ok () => pure true
      | .error error =>
        if error.kind = .notFound then pure true
        else warnRemains "Local" (String.ofList temporary.chars) error.text transferId : JobM Bool)
    emitClearedIf cleaned residualTransferId temporary.chars
    pure cleaned

def commitLocalTemp (temporary destination : LocalPath) : JobM Unit := do
  let linked : Except IoError Unit ← perform (.hardLink temporary destination)
  orThrow localDestinationCreateError linked

def verifyLocalHardlink (temporary : LocalPath) (transferId : TransferId) : JobM Unit := do
  let probe : LocalPath := ⟨commitProbe temporary.chars⟩
  let stale ← cleanupLocalTemp probe transferId none
  failIf (!stale) (retryable .unknown "Download Preparation Failed"
    "A previous temporary download file could not be removed. Retry the transfer.")
  let linked : Except IoError Unit ← perform (.hardLink temporary probe)
  orThrow (localTransferError "Atomic download is not supported") linked
  let cleaned ← cleanupLocalTemp probe transferId none
  failIf (!cleaned) (retryable .unknown "Download Preparation Failed"
    "A temporary download file could not be cleaned up. Retry the transfer.")

def removeLocalDestination (destination : LocalPath) : JobM Unit := do
  let found : Except IoError LocalMetadata ← perform (.symlinkMetadata destination)
  match found with
  | .ok metadata => do
    let removed : Except IoError Unit ←
      (if metadata.kind = .dir then perform (.removeDirAll destination) else perform (.removeFile destination))
    orThrow (localTransferError "Downloaded File Replacement Failed") removed
  | .error error =>
    if error.kind = .notFound then pure ()
    else Program.throw (localTransferError "Download Destination Unavailable" error)

def removeDownloadedFileDestination (destination : LocalPath) : JobM Unit := do
  let found : Except IoError LocalMetadata ← perform (.symlinkMetadata destination)
  failIf (match found with | .ok metadata => metadata.kind = .dir | .error _ => false)
    (notRetryable .fileExists "Destination Changed Type"
      "The destination path is a folder, but the server item is a file or link. Resolve the conflict manually.")
  removeLocalDestination destination

/-- The path and its parents, as `Path::parent` gives them. -/
def localAncestors : Nat → List Char → List (List Char)
  | 0, _ => []
  | fuel + 1, path =>
    if path = [] then []
    else
      match parentPath path with
      | none => [path]
      | some parent => path :: localAncestors fuel parent

/-- Marks the directories up to the first one that is marked already. -/
def markUnverified : List (List Char) → JobM Unit
  | [] => pure ()
  | directory :: rest => do
    let verified : Bool ← perform (.directoryVerified directory)
    if verified then pure ()
    else do
      perform (.markDirectoryVerified directory)
      markUnverified rest

def createLocalDirectory (directory : LocalPath) : JobM Unit := do
  let verified : Bool ← perform (.directoryVerified directory.chars)
  if verified then pure ()
  else do
    -- the creation goes on when the wait for it is cancelled
    let created : Except IoError Unit ← perform (.createDirAll directory)
    let cancelled : Bool ← perform .isCancelled
    failIf cancelled cancelledTransferError
    orThrow (localTransferError "Download Folder Creation Failed") created
    markUnverified (localAncestors (directory.chars.length + 1) directory.chars)

def ensureLocalParentDirectory (destination : LocalPath) : JobM Unit :=
  match parentPath destination.chars with
  | none => pure ()
  | some parent => if parent = [] then pure () else createLocalDirectory ⟨parent⟩

def maskPermissions (permissions : Nat) (isDir : Bool) : Nat :=
  if isDir then permissions % 512 ||| 0o700 else permissions % 512

def setDownloadedTimes (destination : LocalPath) : Option Nat → JobM (Except IoError Unit)
  | some mtime => perform (.setTimes destination mtime)
  | none => pure (.ok ())

def setDownloadedPermissions (destination : LocalPath) (sourceIsDir : Bool) : Option Nat → JobM (Except IoError Unit)
  | some permissions => do
    let isDir ← (if sourceIsDir then pure true
      else do
        let found : Except IoError LocalMetadata ← perform (.metadata destination)
        match found with
        | .ok metadata => pure (metadata.kind = .dir)
        | .error _ => pure false : JobM Bool)
    perform (.setPermissions destination (maskPermissions permissions isDir))
  | none => pure (.ok ())

def warnMetadata (job : TransferJob) : Except IoError Unit → JobM Unit
  | .ok () => pure ()
  | .error error => emitMetadataWarning job.id error.text

def preserveDownloadMetadata (job : TransferJob) (source : FileAttributes) : JobM Unit :=
  match job.destination with
  | .remote _ => pure ()
  | .local destination => do
    let permissions := if job.metadataPolicy.preservePermissions then source.permissions else none
    let mtime := if job.metadataPolicy.preserveMtime then source.mtime else none
    let set ← setDownloadedPermissions destination (source.kind = .dir) permissions
    match set with
    | .ok () => do
      let stamped ← setDownloadedTimes destination mtime
      warnMetadata job stamped
    | .error error => warnMetadata job (.error error)

def downloadSymlinkRaw (job : TransferJob) : JobM Unit :=
  match job.source, job.destination with
  | .remote source, .local destination => do
    emitTransferRunning job (some 0)
    let cancelled : Bool ← perform .isCancelled
    failIf cancelled cancelledTransferError
    let link : Except SftpError (List Char) ← perform (.readlink source)
    let target ← orThrow (fun error => transferError .unsupportedSymlink "Server Link Unavailable"
      "The remote symlink target could not be read. Check server support and try again." (sftpStatusGuidance error)) link
    let root : Option LocalPath ← perform .destinationRoot
    orThrow id (validateDownloadSymlinkTarget root destination target)
    ifOverwriting job (removeDownloadedFileDestination destination)
    ensureLocalParentDirectory destination
    let created : Except IoError Unit ← perform (.symlinkLocal target destination)
    orThrow (localTransferError "Local Link Creation Failed") created
  | _, _ =>
    Program.throw (notRetryable .unsupportedSymlink "Invalid symlink download"
      "The remote symlink source or local destination is invalid.")

def downloadDirectory (job : TransferJob) (source : FileAttributes) (mayClearDestination : Bool) : JobM Unit :=
  match job.destination with
  | .local destination => do
    emitTransferRunning job (some 0)
    let cancelled : Bool ← perform .isCancelled
    failIf cancelled cancelledTransferError
    -- only the root directory of a plan, before any child has started
    (if mayClearDestination then ifOverwriting job (removeLocalDestination destination) else pure () : JobM Unit)
    createLocalDirectory destination
    preserveDownloadMetadata job source
  | .remote _ =>
    Program.throw (notRetryable .unknown "Invalid download directory" "The download destination is invalid.")

def openLocalTemp (temporary : LocalPath) (transferId : TransferId) : JobM Unit := do
  let opened : Except IoError Unit ← perform (.createNew temporary)
  match opened with
  | .ok () => pure ()
  | .error openError =>
    if openError.kind = .alreadyExists then do
      -- a previous attempt of this job may have left a temporary file
      let cleaned ← cleanupLocalTemp temporary transferId none
      if cleaned then do
        let reopened : Except IoError Unit ← perform (.createNew temporary)
        orThrow localDestinationCreateError reopened
      else Program.throw (localDestinationCreateError openError)
    else Program.throw (localDestinationCreateError openError)

def downloadReader (chunkSize : UInt32) (source : FileAttributes) : PipelinedDownloadReader :=
  ((PipelinedDownloadReader.new source.size source.size_lt).withChunkSize chunkSize.toNat
    chunkSize.toNat_lt).withWindowCapacity (optimalWindowCapacity chunkSize)

def copyFromRemote (source : RemotePath) (temporary : LocalPath) (reader : PipelinedDownloadReader) : JobM Unit := do
  let opened : Except SftpError Unit ← perform (.openRead source)
  orThrow (fun error => transferError .unknown "Server File Unavailable"
    "The remote file could not be opened. Check permissions and try again." (sftpStatusGuidance error)) opened
  let result : Except UserFacingError Nat ← perform (.download temporary reader)
  let _ : Except SftpError Unit ← perform (.close source)
  let _ ← orThrow id result

/-- Reserves the space of a download whose size is known. -/
def reserve (temporary : LocalPath) : Option Nat → JobM Unit
  | some total =>
    if total = 0 then pure ()
    else do
      let grown : Except IoError Unit ← perform (.setLen temporary total)
      orThrow (localTransferError "Download Preparation Failed") grown
  | none => pure ()

def confirmLocalHardlink (temporary destination : LocalPath) (transferId : TransferId) : JobM Unit := do
  let confirmed : Bool ← perform (.hardlinkCommitConfirmed (localCommitDirectory destination))
  if confirmed then pure ()
  else do
    orCleanup (verifyLocalHardlink temporary transferId) (cleanupLocalTemp temporary transferId (some transferId))
    perform (.confirmHardlinkCommit (localCommitDirectory destination))

def prepareDownloadDestination (job : TransferJob) (destination temporary : LocalPath) : JobM Unit :=
  ifOverwriting job do
    confirmLocalHardlink temporary destination job.id
    orCleanup (removeDownloadedFileDestination destination) (cleanupLocalTemp temporary job.id (some job.id))

def downloadFile (chunkSize : UInt32) (job : TransferJob) (source : RemotePath) (destination : LocalPath)
    (attributes : FileAttributes) : JobM Unit := do
  emitTransferRunning job attributes.size
  ensureLocalParentDirectory destination
  let temporary := localTemporaryPath destination job.id
  openLocalTemp temporary job.id
  let createdAt ← perform .now
  emitResidualTempCreated ⟨"local", job.direction, job.id, temporary.chars, createdAt⟩
  orCleanup (reserve temporary attributes.size) (cleanupLocalTemp temporary job.id (some job.id))
  orCleanup (copyFromRemote source temporary (downloadReader chunkSize attributes))
    (cleanupLocalTemp temporary job.id (some job.id))
  prepareDownloadDestination job destination temporary
  orCleanup (commitLocalTemp temporary destination) (cleanupLocalTemp temporary job.id (some job.id))
  let _ ← cleanupLocalTemp temporary job.id (some job.id)
  preserveDownloadMetadata job attributes

def downloadSingleFilePipelined (chunkSize : UInt32) (job : TransferJob) (mayClearDestination : Bool) : JobM Unit :=
  match job.source, job.destination with
  | .remote source, .local destination => do
    let found : Except SftpError FileAttributes ← perform (.lstat source)
    let attributes ← orThrow (fun error => transferError .unknown "Server File Unavailable"
      "The remote file could not be read. Check permissions and try again." (sftpStatusGuidance error)) found
    match attributes.kind with
    | .symlink => downloadSymlinkRaw job
    | .dir => downloadDirectory job attributes mayClearDestination
    | .file | .other => downloadFile chunkSize job source destination attributes
  | _, _ => Program.throw (notRetryable .unknown "Invalid download job" "The download source or destination is invalid.")

end MacSftp
