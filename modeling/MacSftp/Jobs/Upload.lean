import MacSftp.Jobs.Operations

namespace MacSftp

open Lib

def optimalWindowCapacity (chunkSize : UInt32) : Nat :=
  if chunkSize = 0 then 32 else max 16 (min (8 * 1024 * 1024 / chunkSize.toNat) 128)

/-- `if let Err(error) = body { cleanup; return Err(error) }` -/
def orCleanup (body : JobM Unit) (cleanup : JobM Bool) : JobM Unit := do
  let result ← body.attempt
  match result with
  | .ok () => pure ()
  | .error error => do
    let _ ← cleanup
    Program.throw error

def ifOverwriting (job : TransferJob) (body : JobM Unit) : JobM Unit :=
  if job.conflictPolicy = .overwriteAll then body else pure ()

def emitClearedIf (cleaned : Bool) (residualTransferId : Option TransferId) (path : List Char) : JobM Unit :=
  match residualTransferId with
  | some id => if cleaned then emitResidualTempCleared id path else pure ()
  | none => pure ()

def warnRemains (side path text : String) (transferId : TransferId) : JobM Bool := do
  emitTemporaryFileWarning transferId s!"{side} temporary file remains at {path}: {text}"
  pure false

def cleanupRemoteTempRaw (temporary : RemotePath) (transferId : TransferId) (residualTransferId : Option TransferId) :
    JobM Bool := do
  let removed : Except SftpError Unit ← perform (.remove temporary)
  let cleaned ← (match removed with
    | .ok () => pure true
    | .error error =>
      if error.status = some .noSuchFile then pure true
      else warnRemains "Remote" (String.ofList temporary.chars) error.text transferId : JobM Bool)
  emitClearedIf cleaned residualTransferId temporary.chars
  pure cleaned

def commitRemoteTempRaw (temporary destination : RemotePath) : JobM Unit := do
  let linked : Except SftpError Unit ← perform (.hardlink temporary destination)
  orThrow (fun error =>
    if error.status = some .opUnsupported then
      retryable .unknown "Atomic upload is not supported"
        "This server does not support the required atomic upload commit. Try another server or reconnect."
    else remoteDestinationCreateError error) linked

def verifyRemoteHardlinkRaw (temporary : RemotePath) (transferId : TransferId) : JobM Unit := do
  let probe : RemotePath := ⟨commitProbe temporary.chars⟩
  let stale ← cleanupRemoteTempRaw probe transferId none
  failIf (!stale) (retryable .unknown "Upload Preparation Failed"
    "A previous temporary upload file could not be removed. Retry the transfer.")
  let linked : Except SftpError Unit ← perform (.hardlink temporary probe)
  orThrow (fun error =>
    if error.status = some .opUnsupported then
      retryable .unknown "Atomic upload is not supported"
        "This server does not support the required atomic upload commit. Try another server or reconnect."
    else
      transferError .unknown "Atomic upload is not supported"
        "The server could not verify the required atomic upload commit. Try again." (sftpStatusGuidance error)) linked
  let cleaned ← cleanupRemoteTempRaw probe transferId none
  failIf (!cleaned) (retryable .unknown "Upload Preparation Failed"
    "A temporary upload file could not be cleaned up. Retry the transfer.")

def removeRemoteDestinationRaw (destination : RemotePath) : JobM Unit := do
  let removed : Except SftpError Unit ← perform (.remove destination)
  match removed with
  | .ok () => pure ()
  | .error error =>
    if error.status = some .noSuchFile then pure ()
    else
      Program.throw (transferError .unknown "Server File Replacement Failed"
        "The existing remote file could not be removed. Check permissions and try again." (sftpStatusGuidance error))

/-- The path as far as each of its components. -/
def remoteAncestors (directory : List Char) : List (List Char) :=
  let start := if directory.head? = some '/' then ['/'] else []
  let push (current component : List Char) : List Char :=
    if current ≠ [] ∧ current.getLast? ≠ some '/' then current ++ '/' :: component else current ++ component
  (((directory.splitOn '/').filter (· ≠ [])).scanl push start).tail

def markVerified : List (List Char) → JobM Unit
  | [] => pure ()
  | directory :: rest => do
    perform (.markDirectoryVerified directory)
    markVerified rest

def folderCreationError (error : SftpError) : UserFacingError :=
  transferError .unknown "Server Folder Creation Failed"
    "The remote directory could not be created. Check permissions and try again." (sftpStatusGuidance error)

def makeRemoteDirectory (current : RemotePath) : JobM Unit := do
  let made : Except SftpError Unit ← perform (.mkdir current)
  match made with
  | .ok () => perform (.markDirectoryVerified current.chars)
  | .error error =>
    if error.status = some .failure then do
      let found : Except SftpError FileAttributes ← perform (.stat current)
      let _ ← orThrow folderCreationError found
      perform (.markDirectoryVerified current.chars)
    else Program.throw (folderCreationError error)

/-- One turn of the walk over the components of a directory. -/
def createRemoteComponent (current : RemotePath) : JobM Unit := do
  let cancelled : Bool ← perform .isCancelled
  failIf cancelled cancelledTransferError
  let verified : Bool ← perform (.directoryVerified current.chars)
  if verified then pure ()
  else do
    let cancelled : Bool ← perform .isCancelled
    failIf cancelled cancelledTransferError
    let found : Except SftpError FileAttributes ← perform (.stat current)
    match found with
    | .ok attributes => if attributes.kind = .dir then perform (.markDirectoryVerified current.chars) else pure ()
    | .error error =>
      if error.status = some .noSuchFile then makeRemoteDirectory current
      else
        Program.throw (transferError .unknown "Server Folder Unavailable"
          "The remote destination could not be checked. Try again." (sftpStatusGuidance error))

def createRemoteComponents : List (List Char) → JobM Unit
  | [] => pure ()
  | current :: rest => do
    createRemoteComponent ⟨current⟩
    createRemoteComponents rest

def statIsDir (directory : RemotePath) : JobM Bool := do
  let cancelled : Bool ← perform .isCancelled
  if cancelled then pure false
  else do
    let found : Except SftpError FileAttributes ← perform (.stat directory)
    match found with
    | .ok attributes => pure (attributes.kind = .dir)
    | .error _ => pure false

def createRemoteDirectoryRaw (directory : RemotePath) : JobM Unit := do
  let verified : Bool ← perform (.directoryVerified directory.chars)
  if verified then pure ()
  else do
    let isDir ← statIsDir directory
    if isDir then markVerified (directory.chars :: remoteAncestors directory.chars)
    else createRemoteComponents (remoteAncestors directory.chars)

def ensureRemoteParentDirectoryRaw (destination : RemotePath) : JobM Unit :=
  match rsplitOnce destination.chars with
  | none => pure ()
  | some (parent, _) => if parent = [] then pure () else createRemoteDirectoryRaw ⟨parent⟩

/-- Whole seconds, where the time is after the epoch and they fit into 32 bits. -/
def mtimeSeconds (time : Timestamp) : Option Nat :=
  if time.nanos < 0 then none
  else
    let seconds := time.nanos.toNat / 1000000000
    if seconds < 2 ^ 32 then some seconds else none

def preserveUploadMetadataRaw (job : TransferJob) (metadata : LocalMetadata) : JobM Unit :=
  match job.destination with
  | .local _ => pure ()
  | .remote destination =>
    let permissions := if job.metadataPolicy.preservePermissions then some metadata.mode else none
    let mtime := if job.metadataPolicy.preserveMtime then metadata.modified.bind mtimeSeconds else none
    if permissions = none ∧ mtime = none then pure ()
    else do
      let set : Except SftpError Unit ← perform (.setstat destination permissions mtime)
      match set with
      | .ok () => pure ()
      | .error error => emitMetadataWarning job.id error.text

def uploadSymlinkRaw (job : TransferJob) : JobM Unit :=
  match job.source, job.destination with
  | .local source, .remote destination => do
    emitTransferRunning job (some 0)
    let cancelled : Bool ← perform .isCancelled
    failIf cancelled cancelledTransferError
    let link : Except IoError (List Char) ← perform (.readLink source)
    let target ← orThrow (localTransferError "Link Destination Unavailable") link
    ensureRemoteParentDirectoryRaw destination
    ifOverwriting job (removeRemoteDestinationRaw destination)
    let created : Except SftpError Unit ← perform (.symlink target destination)
    orThrow (fun error => transferError .unsupportedSymlink "Server Link Creation Failed"
      "The remote symlink could not be created. Check server support and try again." (sftpStatusGuidance error)) created
  | _, _ =>
    Program.throw (notRetryable .unsupportedSymlink "Invalid symlink upload"
      "The symlink source or remote destination is invalid.")

def openRemoteTemp (temporary : RemotePath) (transferId : TransferId) : JobM Unit := do
  let opened : Except SftpError Unit ← perform (.openNew temporary)
  match opened with
  | .ok () => pure ()
  | .error openError => do
    -- a previous attempt of this job may have left a temporary file
    let cleaned ← cleanupRemoteTempRaw temporary transferId none
    if cleaned then do
      let reopened : Except SftpError Unit ← perform (.openNew temporary)
      orThrow remoteDestinationCreateError reopened
    else Program.throw (remoteDestinationCreateError openError)

def uploadWriter (chunkSize : UInt32) (metadata : LocalMetadata) : PipelinedUploadWriter :=
  ((PipelinedUploadWriter.new (some metadata.len) (fun _ known => Option.some.inj known ▸ metadata.len_lt)).withChunkSize
    chunkSize.toNat chunkSize.toNat_lt).withWindowCapacity (optimalWindowCapacity chunkSize)

def copyToRemote (source : LocalPath) (temporary : RemotePath) (writer : PipelinedUploadWriter) : JobM Unit := do
  let file : Except IoError Unit ← perform (.openFile source)
  orThrow (localTransferError "Upload Item Unavailable") file
  let answer : List SourceRead × Except UserFacingError Nat ← perform (.upload temporary writer)
  let closed : Except SftpError Unit ← perform (.close temporary)
  let _ ← orThrow id answer.2
  orThrow (fun error => transferError .unknown "Transfer Write Failed"
    "The remote file could not be closed after writing." (sftpStatusGuidance error)) closed

/-- What the policy to overwrite does before the commit. -/
def replaceRemoteDestination (temporary destination : RemotePath) (transferId : TransferId) : JobM Unit := do
  let confirmed : Bool ← perform (.hardlinkCommitConfirmed (commitDirectory destination))
  if confirmed then removeRemoteDestinationRaw destination
  else do
    verifyRemoteHardlinkRaw temporary transferId
    perform (.confirmHardlinkCommit (commitDirectory destination))
    removeRemoteDestinationRaw destination

def uploadFile (chunkSize : UInt32) (job : TransferJob) (connectionKey : String) (source : LocalPath)
    (destination : RemotePath) (metadata : LocalMetadata) : JobM Unit := do
  emitTransferRunning job (some metadata.len)
  ensureRemoteParentDirectoryRaw destination
  let temporary := remoteTemporaryPath destination job.id
  openRemoteTemp temporary job.id
  let createdAt ← perform .now
  emitResidualTempCreated ⟨connectionKey, job.direction, job.id, temporary.chars, createdAt⟩
  orCleanup (copyToRemote source temporary (uploadWriter chunkSize metadata)) (cleanupRemoteTempRaw temporary job.id (some job.id))
  ifOverwriting job (replaceRemoteDestination temporary destination job.id)
  orCleanup (commitRemoteTempRaw temporary destination) (cleanupRemoteTempRaw temporary job.id (some job.id))
  let _ ← cleanupRemoteTempRaw temporary job.id (some job.id)
  preserveUploadMetadataRaw job metadata

def uploadSingleFilePipelined (chunkSize : UInt32) (job : TransferJob) (connectionKey : String) : JobM Unit :=
  match job.source, job.destination with
  | .local source, .remote destination => do
    let found : Except IoError LocalMetadata ← perform (.symlinkMetadata source)
    let metadata ← orThrow (localTransferError "Upload Item Unavailable") found
    match metadata.kind with
    | .symlink => uploadSymlinkRaw job
    | .dir => do
      emitTransferRunning job (some 0)
      createRemoteDirectoryRaw destination
      preserveUploadMetadataRaw job metadata
    | .other =>
      Program.throw (notRetryable .unknown "Upload source is not a file" "Choose a regular file or directory to upload.")
    | .file => uploadFile chunkSize job connectionKey source destination metadata
  | _, _ => Program.throw (notRetryable .unknown "Invalid upload job" "The upload source or destination is invalid.")

end MacSftp
