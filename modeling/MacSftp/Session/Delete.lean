import MacSftp.Core.Paths
import MacSftp.Session.Operations

namespace MacSftp.Session

open Lib Program

inductive FsPath
  | «local» (path : LocalPath)
  | remote (path : RemotePath)
  deriving DecidableEq, Repr

structure FsEntryRef where
  path : FsPath
  isDir : Bool
  deriving DecidableEq, Repr

/-- The deletion stops with an error, or the model has not been given enough steps. -/
inductive DeleteStop
  | failed (error : UserFacingError)
  | unfinished
  deriving DecidableEq, Repr

abbrev DeleteM := SessionM DeleteStop

def fail {α : Type} (error : UserFacingError) : DeleteM α := .throw (.failed error)

def remoteFsError (title : String) (error : SftpError) : UserFacingError where
  code :=
    match error.status with
    | some .noSuchFile => .notFound
    | some .permissionDenied => .permissionDenied
    | _ => .unknown
  title := title
  message := "Check the server path and permissions, then try again."
  detail := some (sftpStatusGuidance error)
  retryable := true

/-- `map_err(..)?` on an answer of the server. -/
def orFail {α : Type} (title : String) : Except SftpError α → DeleteM α
  | .ok a => pure a
  | .error error => fail (remoteFsError title error)

def rootDeletionError : UserFacingError := ⟨.unknown, "Invalid Path", "The root directory cannot be deleted.", none, false⟩

def requireRemotePath (path : FsPath) (label : String) : DeleteM RemotePath :=
  match path with
  | .remote path => pure path
  | .local _ => fail ⟨.unknown, "Invalid remote path", "The " ++ label ++ " was not a remote path.", none, false⟩

/-- The root, or a dot alone between slashes. -/
def refusesDeletion (path : RemotePath) : Bool :=
  trimSlashes path.chars = [] || trimSlashes path.chars = ['.'] || trimSlashes path.chars = ['.', '.']

/-- An entry of a directory, with what removes a directory among them. -/
def removeEntry (removeDirectory : RemotePath → DeleteM Unit) (path : RemotePath) (entry : DirEntry) : DeleteM Unit :=
  if entry.fileType = .dir then removeDirectory (path.join entry.name)
  else do
    let removed : Except SftpError Unit ← ask (.removeFile (path.join entry.name))
    orFail "The item couldn’t be deleted." removed

def removeEntries (removeDirectory : RemotePath → DeleteM Unit) (path : RemotePath) : List DirEntry → DeleteM Unit
  | [] => pure ()
  | entry :: entries =>
    if entry.name = ['.'] ∨ entry.name = ['.', '.'] then removeEntries removeDirectory path entries
    else do
      removeEntry removeDirectory path entry
      removeEntries removeDirectory path entries

/-- `fuel` bounds how deep the recursion goes. -/
def removeRemoteDirRecursive : Nat → RemotePath → DeleteM Unit
  | 0, _ => .throw .unfinished
  | fuel + 1, path =>
    if refusesDeletion path then fail rootDeletionError
    else do
      let listing : Except SftpError (List DirEntry) ← ask (.readDir path)
      let entries ← orFail "Folder Couldn’t Be Read" listing
      removeEntries (removeRemoteDirRecursive fuel) path entries
      let removed : Except SftpError Unit ← ask (.removeDir path)
      orFail "The folder couldn’t be deleted." removed

def deleteEntry (fuel : Nat) (entry : FsEntryRef) : DeleteM Unit := do
  let path ← requireRemotePath entry.path "delete path"
  if refusesDeletion path then fail rootDeletionError
  else if entry.isDir then removeRemoteDirRecursive fuel path
  else do
    let removed : Except SftpError Unit ← ask (.removeFile path)
    orFail "The item couldn’t be deleted." removed

/-- `FsOp::Delete` of `execute_remote_fs_op`. -/
def deleteEntries (fuel : Nat) : List FsEntryRef → DeleteM Unit
  | [] => pure ()
  | entry :: entries => do
    deleteEntry fuel entry
    deleteEntries fuel entries

end MacSftp.Session
