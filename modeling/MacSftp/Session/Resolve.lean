import MacSftp.Core.Paths
import MacSftp.Session.Operations

namespace MacSftp.Session

open Lib

def maxLinkHops : Nat := 16

def remotePlanningError (title : String) (error : SftpError) : UserFacingError :=
  let code : ErrorCode :=
    match error.status with
    | some .noSuchFile => .notFound
    | some .permissionDenied => .permissionDenied
    | _ => .unknown
  transferError code title "Check the remote source and permissions, then try again." (sftpStatusGuidance error)

def unresolvableLinkError : UserFacingError where
  code := .unsupportedSymlink
  title := "Link Cannot Be Resolved"
  message := "The link target cannot be resolved safely on this server. Open the file from its real location instead."
  retryable := false

def linkLoopError : UserFacingError where
  code := .unsupportedSymlink
  title := "Link Loop Detected"
  message := "The link points back to itself and cannot be followed."

structure RemoteEntryResolution where
  path : RemotePath
  kind : Panes.FileKind
  target : Option RemotePath
  size : Option Nat
  modifiedAt : Option Timestamp
  error : Option UserFacingError

def entryKind : FileKind → Panes.FileKind
  | .dir => .directory
  | .file => .file
  | .symlink => .symlink
  | .other => .other

def modifiedAt (metadata : FileAttributes) : Option Timestamp := metadata.mtime.map Timestamp.fromSecsSinceEpoch

def unresolved (path : RemotePath) (error : UserFacingError) :
    RemoteEntryResolution := ⟨path, .symlink, none, none, none, some error⟩

def targetEscapesThroughParent (target : List Char) : Bool := (target.splitOn '/').any (· = ['.', '.'])

/-- A target that is empty, has characters that cannot be shown, or climbs. -/
def refusedTarget (target : List Char) : Bool :=
  target.isEmpty || target.contains (Char.ofNat 0) || target.any isBidiOrControl || targetEscapesThroughParent target

def writeThroughStart (path : RemotePath) (canonical target : Option (List Char)) : Option RemotePath :=
  match canonical, target with
  | some canonical, _ =>
    if canonical.head? ≠ some '/' ∨ canonical.contains (Char.ofNat 0) ∨
      canonical.any isBidiOrControl then none else some ⟨canonical⟩
  | none, some target => if refusedTarget target then none else some (path.resolveLinkTarget target)
  | none, none => none

/-- The loop over the hops that are left. -/
def followHops (path : RemotePath) : Nat → RemotePath → SessionM Empty RemoteEntryResolution
  | 0, _ => pure (unresolved path linkLoopError)
  | hops + 1, current => do
    let metadata : Except SftpError FileAttributes ← ask (.symlinkMetadata current)
    match metadata with
    | .error error => pure (unresolved path (remotePlanningError "Server Link Unavailable" error))
    | .ok metadata =>
      if metadata.kind ≠ .symlink then
        pure ⟨path, entryKind metadata.kind, if entryKind metadata.kind = .file then some current else none, metadata.size,
          modifiedAt metadata, none⟩
      else do
        let targetText : Except SftpError (List Char) ← ask (.readLink current)
        match targetText with
        | .error error => pure (unresolved path (remotePlanningError "Server Link Unavailable" error))
        | .ok targetText =>
          if refusedTarget targetText then pure (unresolved path unresolvableLinkError)
          else followHops path hops (current.resolveLinkTarget targetText)

/-- From the place where the write-through walk starts, if there is one. -/
def followFrom (path : RemotePath) : Option RemotePath → SessionM Empty RemoteEntryResolution
  | some current => followHops path maxLinkHops current
  | none => pure (unresolved path unresolvableLinkError)

/-- A link that does not lead to a directory: the start of the walk, by the server's `realpath` or by the link's own text. -/
def resolveLink (path : RemotePath) : SessionM Empty RemoteEntryResolution := do
  let canonical : Except SftpError (List Char) ← ask (.canonicalize path)
  match canonical with
  | .ok canonical => followFrom path (writeThroughStart path (some canonical) none)
  | .error _ => do
    let targetText : Except SftpError (List Char) ← ask (.readLink path)
    match targetText with
    | .error error => pure (unresolved path (remotePlanningError "Server Link Unavailable" error))
    | .ok targetText => followFrom path (writeThroughStart path none (some targetText))

def resolveRemoteEntry (path : RemotePath) : SessionM Empty RemoteEntryResolution := do
  let metadata : Except SftpError FileAttributes ← ask (.symlinkMetadata path)
  match metadata with
  | .error error =>
    pure ⟨path, .unknown, none, none, none, some (remotePlanningError "Server Item Unavailable" error)⟩
  | .ok metadata =>
    if metadata.kind ≠ .symlink then pure ⟨path, entryKind metadata.kind, none, metadata.size, modifiedAt metadata, none⟩
    else do
      let followed : Except SftpError FileAttributes ← ask (.metadata path)
      match followed with
      | .error error => pure (unresolved path (remotePlanningError "Server Link Unavailable" error))
      | .ok followed =>
        if followed.kind = .dir then pure ⟨path, .directory, none, followed.size, modifiedAt followed, none⟩
        else resolveLink path

end MacSftp.Session
