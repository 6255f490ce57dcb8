import MacSftp.Lib.Programs
import MacSftp.Jobs.Paths
import MacSftp.Pipeline.Reader
import MacSftp.Pipeline.Writer
import MacSftp.Transfer.Data

namespace MacSftp

open Lib

inductive StatusCode
  | ok
  | eof
  | noSuchFile
  | permissionDenied
  | failure
  | badMessage
  | noConnection
  | connectionLost
  | opUnsupported
  deriving DecidableEq, Repr

/-- An error of the SFTP client. Only a reply of the server carries a status. -/
structure SftpError where
  status : Option StatusCode
  text : String
  deriving DecidableEq, Repr

def sftpStatusGuidance (error : SftpError) : String :=
  match error.status with
  | some .noSuchFile => "The remote file or folder does not exist."
  | some .permissionDenied => "The server denied permission for this path."
  | some .failure => "The server reported an error processing this request."
  | some .badMessage => "The server received or sent an invalid SFTP message."
  | some .noConnection | some .connectionLost => "The SFTP connection was closed or lost."
  | some .opUnsupported => "The server does not support this SFTP operation."
  | some _ => "Check the remote server status and permissions."
  | none => "The SFTP connection encountered a protocol or communication error."

inductive FileKind
  | file
  | dir
  | symlink
  | other
  deriving DecidableEq, Repr

structure FileAttributes where
  kind : FileKind
  size : Option Nat := none
  permissions : Option Nat := none
  mtime : Option Nat := none
  size_lt : ∀ total, size = some total → total < 2 ^ 64

structure LocalMetadata where
  kind : FileKind
  len : Nat
  mode : Nat
  modified : Option Timestamp
  len_lt : len < 2 ^ 64

inductive ConflictDecision
  | overwrite (applyToAll : Bool)
  | skip (applyToAll : Bool)
  | rename (newName : String) (applyToAll : Bool)
  | cancelJob
  deriving DecidableEq, Repr

structure ResidualTempRecord where
  connectionKey : String
  direction : TransferDirection
  transferId : TransferId
  path : List Char
  createdAt : Timestamp
  deriving DecidableEq, Repr

/-- What a job sends to the application. -/
inductive JobEvent
  | transfer (event : TransferEvent)
  | residualTempCreated (record : ResidualTempRecord)
  | residualTempCleared (transferId : TransferId) (path : List Char)
  deriving DecidableEq, Repr

/-- What a job asks of the server, of the local file system and of the rest of the process. -/
inductive JobOp
  | stat (path : RemotePath)
  | lstat (path : RemotePath)
  | mkdir (path : RemotePath)
  | openNew (path : RemotePath)
  | openRead (path : RemotePath)
  | close (path : RemotePath)
  | upload (path : RemotePath) (writer : PipelinedUploadWriter)
  | remove (path : RemotePath)
  | hardlink (path link : RemotePath)
  | symlink (target : List Char) (link : RemotePath)
  | setstat (path : RemotePath) (permissions mtime : Option Nat)
  | readlink (path : RemotePath)
  | symlinkMetadata (path : LocalPath)
  | readLink (path : LocalPath)
  | openFile (path : LocalPath)
  | createDirAll (path : LocalPath)
  | createNew (path : LocalPath)
  | setLen (path : LocalPath) (len : Nat)
  | download (path : LocalPath) (reader : PipelinedDownloadReader)
  | removeFile (path : LocalPath)
  | removeDirAll (path : LocalPath)
  | hardLink (path link : LocalPath)
  | symlinkLocal (target : List Char) (link : LocalPath)
  | metadata (path : LocalPath)
  | setPermissions (path : LocalPath) (mode : Nat)
  | setTimes (path : LocalPath) (mtime : Nat)
  | isCancelled
  | now
  | emit (event : JobEvent)
  | directoryVerified (directory : List Char)
  | markDirectoryVerified (directory : List Char)
  | hardlinkCommitConfirmed (directory : List Char)
  | confirmHardlinkCommit (directory : List Char)
  | destinationRoot
  | setDestinationRoot (root : LocalPath)
  | nextRequestId
  | registerWaiter (id : ConflictRequestId) (planId : TransferPlanId)
  | decision (id : ConflictRequestId)
  | removeWaiter (id : ConflictRequestId)
  | setPlanPolicy (planId : TransferPlanId) (policy : ConflictPolicy)
  | resolveWaitersForPlan (planId : TransferPlanId) (decision : ConflictDecision)

/-- An upload is answered with the source it read, a decision is `cancelJob` also when the token is cancelled. -/
def JobOp.Answer : JobOp → Type
  | .stat _ | .lstat _ => Except SftpError FileAttributes
  | .mkdir _ | .openNew _ | .openRead _ | .close _ | .remove _ | .hardlink .. | .symlink .. | .setstat .. => Except SftpError Unit
  | .readlink _ => Except SftpError (List Char)
  | .upload .. => List SourceRead × Except UserFacingError Nat
  | .download .. => Except UserFacingError Nat
  | .symlinkMetadata _ | .metadata _ => Except IoError LocalMetadata
  | .readLink _ => Except IoError (List Char)
  | .openFile _ | .createDirAll _ | .createNew _ | .setLen .. | .removeFile _ | .removeDirAll _ | .hardLink ..
  | .symlinkLocal .. | .setPermissions .. | .setTimes .. => Except IoError Unit
  | .isCancelled | .emit _ | .directoryVerified _ | .hardlinkCommitConfirmed _ => Bool
  | .now => Timestamp
  | .destinationRoot => Option LocalPath
  | .nextRequestId => ConflictRequestId
  | .decision _ => ConflictDecision
  | .markDirectoryVerified _ | .confirmHardlinkCommit _ | .setDestinationRoot _ | .registerWaiter .. | .removeWaiter _
  | .setPlanPolicy .. | .resolveWaitersForPlan .. => Unit

abbrev JobM := Program JobOp JobOp.Answer UserFacingError

def perform (op : JobOp) : JobM op.Answer := Program.perform op

/-- `map_err(..)?` -/
def orThrow {ε α : Type} (mapErr : ε → UserFacingError) : Except ε α → JobM α
  | .ok a => pure a
  | .error e => Program.throw (mapErr e)

def failIf (cond : Bool) (error : UserFacingError) : JobM Unit := if cond then Program.throw error else pure ()

def notRetryable (code : ErrorCode) (title message : String) : UserFacingError := ⟨code, title, message, none, false⟩

def retryable (code : ErrorCode) (title message : String) : UserFacingError := ⟨code, title, message, none, true⟩

def remoteDestinationCreateError (error : SftpError) : UserFacingError :=
  let code : ErrorCode :=
    match error.status with
    | some .permissionDenied => .permissionDenied
    | some .failure => .fileExists
    | _ => .unknown
  transferError code "Server File Creation Failed"
    "The remote destination already exists or could not be created. Refresh and try again." (sftpStatusGuidance error)

def localDestinationCreateError (error : IoError) : UserFacingError :=
  if error.kind = .alreadyExists then
    retryable .fileExists "Download destination already exists"
      "The local destination appeared while the transfer was starting. Try again."
  else localTransferError "Downloaded File Creation Failed" error

def emitTransferWarning (transferId : TransferId) (code : ErrorCode) (message detail : String) : JobM Unit := do
  let _ ← perform (.emit (.transfer (.warning ⟨transferId, code, message, some detail⟩)))

def emitMetadataWarning (transferId : TransferId) (detail : String) : JobM Unit :=
  emitTransferWarning transferId .metadataPreservationFailed "File data transferred, but metadata could not be preserved." detail

def emitTemporaryFileWarning (transferId : TransferId) (detail : String) : JobM Unit :=
  emitTransferWarning transferId .unknown "Temporary transfer file could not be removed." detail

def emitResidualTempCreated (record : ResidualTempRecord) : JobM Unit := do
  let _ ← perform (.emit (.residualTempCreated record))

def emitResidualTempCleared (transferId : TransferId) (path : List Char) : JobM Unit := do
  let _ ← perform (.emit (.residualTempCleared transferId path))

def emitTransferRunning (job : TransferJob) (bytesTotal : Option Nat) : JobM Unit := do
  let startedAt ← perform .now
  let received ← perform (.emit (.transfer (.running { job with state := .running 0 bytesTotal startedAt })))
  failIf (!received) transferStoppedError

end MacSftp
