import MacSftp.Jobs.Operations
import MacSftp.Lib.SymbolicLinks
import MacSftp.Panes.Visible

namespace MacSftp.Session

open Lib

structure DirEntry where
  name : List Char
  fileType : FileKind
  deriving DecidableEq, Repr

/-- What the actor asks of its SFTP session. -/
inductive SessionOp
  | symlinkMetadata (path : RemotePath)
  | metadata (path : RemotePath)
  | canonicalize (path : RemotePath)
  | readLink (path : RemotePath)
  | readDir (path : RemotePath)
  | removeFile (path : RemotePath)
  | removeDir (path : RemotePath)
  deriving DecidableEq, Repr

def SessionOp.Answer : SessionOp → Type
  | .symlinkMetadata _ | .metadata _ => Except SftpError FileAttributes
  | .canonicalize _ | .readLink _ => Except SftpError (List Char)
  | .readDir _ => Except SftpError (List DirEntry)
  | .removeFile _ | .removeDir _ => Except SftpError Unit

def SessionOp.failed : (op : SessionOp) → op.Answer → Bool
  | .symlinkMetadata _, answer | .metadata _, answer => !answer.isOk
  | .canonicalize _, answer | .readLink _, answer => !answer.isOk
  | .readDir _, answer => !answer.isOk
  | .removeFile _, answer | .removeDir _, answer => !answer.isOk

/-- The looks at what a path names. -/
def SessionOp.lookups : SessionOp → Nat
  | .symlinkMetadata _ => 1
  | _ => 0

abbrev SessionM (ε : Type) := Program SessionOp SessionOp.Answer ε

def ask {ε : Type} (op : SessionOp) : SessionM ε op.Answer := Program.perform op

/-- The components of a path that are no detours: empty ones and dots lead nowhere. -/
def segments (text : List Char) : List (List Char) := (text.splitOn '/').filter fun c => c ≠ [] ∧ c ≠ ['.']

def pathStep (segment : List Char) : PathStep (List Char) := if segment = ['.', '.'] then .up else .name segment

/-- A path in the server's reading. -/
def pathText (text : List Char) : PathText (List Char) where
  absolute := text.head? = some '/'
  steps := (segments text).map pathStep
  directory := (text.splitOn '/').getLastD [] = [] ∨ (text.splitOn '/').getLastD [] = ['.']

inductive ServerNode
  | file
  | directory
  | link (target : List Char)
  | other
  deriving DecidableEq, Repr

def ServerNode.kind : ServerNode → FileKind
  | file => .file
  | directory => .dir
  | link _ => .symlink
  | other => .other

def ServerNode.linkText : ServerNode → Option (PathText (List Char))
  | link target => some (pathText target)
  | _ => none

end MacSftp.Session
