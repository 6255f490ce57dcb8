import MacSftp.Edit.Session

namespace MacSftp

structure PendingEdit where
  remotePath : RemotePath
  ioPath : RemotePath
  size : Option Nat
  modifiedAt : Option Timestamp
  sessionEpoch : Nat
  connectionKey : ConnectionKey
  tabId : TabId
  profileId : ProfileId
  deriving DecidableEq, Repr

inductive ConflictChoice
  | overwrite
  | discardLocal
  | later
  deriving DecidableEq, Repr

inductive EditNotice
  | stillDownloading
  | checkingServerFile
  | reviewConflictBeforeReopen
  | linkRepointed (conflict : Bool)
  | phaseBlocked (phase : EditPhase)
  | wrongConnection
  | localChangedDuringCheck
  | serverCheckFailed
  | downloadFailed (fileName : List Char)
  | uploaded
  | uploadFailed
  | unsafeFileName
  deriving DecidableEq, Repr

structure CheckRemoteEditSnapshotCommand where
  tabId : TabId
  sessionEpoch : Nat
  editSessionId : EditSessionId
  checkId : EditCheckId
  path : RemotePath
  deriving DecidableEq, Repr

inductive AppCommand
  | startTransfer (command : StartTransferCommand)
  | checkRemoteEditSnapshot (command : CheckRemoteEditSnapshotCommand)
  deriving DecidableEq, Repr

def AppCommand.isUpload : AppCommand → Bool
  | .startTransfer command => command.direction = .upload
  | .checkRemoteEditSnapshot _ => false

inductive DispatchRollback
  | revertCheck
  | restoreConflict
  | abortDownload
  deriving DecidableEq, Repr

inductive EditEffect
  | dispatch (tabId : TabId) (sessionId : EditSessionId) (command : AppCommand) (rollback : DispatchRollback)
  | openEditor (tabId : TabId) (tempPath : LocalPath)
  | deleteTempDir (path : LocalPath)
  | rebaseListing (tabId : TabId) (path : RemotePath) (snapshot : RemoteSnapshot)
  | notice (tabId : TabId) (notice : EditNotice)
  deriving DecidableEq, Repr

inductive BeginEdit
  | start (pending : PendingEdit) (effects : List EditEffect)
  | handled (effects : List EditEffect)
  deriving DecidableEq, Repr

structure StartedEdit where
  sessionId : EditSessionId
  tempPath : LocalPath
  command : AppCommand
  deriving DecidableEq, Repr

inductive UploadRequest
  | check (command : CheckRemoteEditSnapshotCommand)
  | rejected (notice : EditNotice)
  deriving DecidableEq, Repr

inductive EditCheckOutcome
  | matched (snapshot : RemoteSnapshot)
  | failed
  deriving DecidableEq, Repr

structure EditCheckResult where
  tabId : TabId
  sessionEpoch : Nat
  sessionId : EditSessionId
  checkId : EditCheckId
  path : RemotePath
  outcome : EditCheckOutcome
  deriving DecidableEq, Repr

structure EditTransferFinished where
  direction : TransferDirection
  source : TransferEndpoint
  destination : TransferEndpoint
  succeeded : Bool
  deriving DecidableEq, Repr

structure LocalFileFacts where
  size : Nat
  mtime : Timestamp
  deriving DecidableEq, Repr

def LocalFileFacts.baseline (facts : LocalFileFacts) : LocalBaseline := ⟨facts.size, facts.mtime⟩

structure RemoteEditLifecycle where
  store : EditSessionStore
  editsDir : LocalPath
  runId : List Char
  deriving Repr

def safeFileName (path : RemotePath) : Option (List Char) :=
  (fileName path.chars).filter (fun name => name ≠ [] ∧ ¬name.any isBidiOrControl)

def fileNameOf (path : RemotePath) : List Char := (fileName path.chars).getD []

def buildEditUploadCommand (session : EditSession) : AppCommand :=
  .startTransfer {
    tabId := session.tabId
    sessionEpoch := session.sessionEpoch
    profileId := session.profileId
    direction := .upload
    sources := [.local session.localTempPath]
    destination := .remote session.ioPath
    metadataPolicy := {}
    conflictPolicy := .overwriteAll }

namespace RemoteEditLifecycle

def new (editsDir : LocalPath) (runId : List Char) : RemoteEditLifecycle := ⟨.new, editsDir, runId⟩

def reapTab (l : RemoteEditLifecycle) (tabId : TabId) : RemoteEditLifecycle × List EditEffect :=
  ({ l with store := (l.store.removeForTab tabId).1 },
    (l.store.removeForTab tabId).2.map (fun s => .deleteTempDir s.localTempPath))

def reopen (pending : PendingEdit) (existing : EditSession) : List EditEffect :=
  match existing.phase with
  | .editing => [.openEditor existing.tabId existing.localTempPath]
  | .uploadingBack => [.openEditor existing.tabId existing.localTempPath]
  | .downloading => [.notice pending.tabId .stillDownloading]
  | .checkingRemote => [.notice pending.tabId .checkingServerFile]
  | .remoteConflict => [.notice pending.tabId .reviewConflictBeforeReopen]

def beginDedup (l : RemoteEditLifecycle) (pending : PendingEdit) (isTabLive : TabId → Bool)
    (reaped : List EditEffect) : RemoteEditLifecycle × BeginEdit :=
  match l.store.findActive pending.connectionKey pending.ioPath with
  | none => (l, .start pending reaped)
  | some existing =>
    if isTabLive existing.tabId then (l, .handled (reopen pending existing))
    else ((l.reapTab existing.tabId).1, .start pending (reaped ++ (l.reapTab existing.tabId).2))

def begin (l : RemoteEditLifecycle) (pending : PendingEdit) (isTabLive : TabId → Bool) :
    RemoteEditLifecycle × BeginEdit :=
  match l.store.findActiveForRemotePath pending.connectionKey pending.remotePath with
  | none => l.beginDedup pending isTabLive []
  | some existing =>
    if existing.ioPath = pending.ioPath then l.beginDedup pending isTabLive []
    else if isTabLive existing.tabId then
      (l, .handled [.notice pending.tabId (.linkRepointed (existing.phase = .remoteConflict))])
    else (l.reapTab existing.tabId).1.beginDedup pending isTabLive (l.reapTab existing.tabId).2

def tempPath (l : RemoteEditLifecycle) (id : EditSessionId) (name : List Char) : LocalPath :=
  ⟨l.editsDir.chars ++ '/' :: l.runId ++ '/' :: Nat.toDigits 10 id.raw ++ '/' :: name⟩

def downloadSession (pending : PendingEdit) (id : EditSessionId) (tempPath : LocalPath) : EditSession where
  id := id
  remotePath := pending.remotePath
  ioPath := pending.ioPath
  tabId := pending.tabId
  sessionEpoch := pending.sessionEpoch
  profileId := pending.profileId
  connectionKey := pending.connectionKey
  localTempPath := tempPath
  phase := .downloading
  remoteSnapshot := ⟨pending.size, pending.modifiedAt⟩
  pendingCheckId := none
  checkingLocalMtime := none
  localModified := false
  localBaseline := none

def downloadCommand (pending : PendingEdit) (tempPath : LocalPath) : AppCommand :=
  .startTransfer {
    tabId := pending.tabId
    sessionEpoch := pending.sessionEpoch
    profileId := pending.profileId
    direction := .download
    sources := [.remote pending.ioPath]
    destination := .local tempPath
    metadataPolicy := {}
    conflictPolicy := .overwriteAll }

def startDownload (l : RemoteEditLifecycle) (pending : PendingEdit) :
    RemoteEditLifecycle × Except EditNotice StartedEdit :=
  match safeFileName pending.remotePath with
  | none => (l, .error .unsafeFileName)
  | some name =>
    let (store, id) := l.store.takeNextId
    let temp := l.tempPath id name
    ({ l with store := store.register (downloadSession pending id temp) },
      .ok ⟨id, temp, downloadCommand pending temp⟩)

def abortDownload (l : RemoteEditLifecycle) (id : EditSessionId) : RemoteEditLifecycle × List EditEffect :=
  match l.store.get id with
  | none => (l, [])
  | some session =>
    if session.phase ≠ .downloading then (l, [])
    else ({ l with store := l.store.remove id }, [.deleteTempDir session.localTempPath])

def requestUpload (l : RemoteEditLifecycle) (id : EditSessionId) (sessionEpoch : Nat)
    (connectionKey : ConnectionKey) (checkingLocalMtime : Timestamp) : RemoteEditLifecycle × UploadRequest :=
  -- The check id is spent even when the request is refused.
  let (store, checkId) := l.store.takeNextCheckId
  match store.get id with
  | none => ({ l with store := store }, .rejected .serverCheckFailed)
  | some session =>
    if session.phase ≠ .editing then ({ l with store := store }, .rejected (.phaseBlocked session.phase))
    else if session.connectionKey ≠ connectionKey then ({ l with store := store }, .rejected .wrongConnection)
    else
      ({ l with store := store.getMut id (fun s => { s with
          phase := .checkingRemote
          sessionEpoch := sessionEpoch
          pendingCheckId := some checkId
          checkingLocalMtime := some checkingLocalMtime }) },
        .check ⟨session.tabId, sessionEpoch, id, checkId, session.ioPath⟩)

def revertCheck (l : RemoteEditLifecycle) (id : EditSessionId) : RemoteEditLifecycle :=
  { l with store := l.store.getMut id EditSession.reverted }

def applicable (session : EditSession) (result : EditCheckResult) : Bool :=
  session.phase = .checkingRemote ∧ session.pendingCheckId = some result.checkId ∧
    session.checkingLocalMtime.isSome ∧ session.ioPath = result.path ∧
    result.tabId = session.tabId ∧ result.sessionEpoch = session.sessionEpoch

def onCheckResult (l : RemoteEditLifecycle) (result : EditCheckResult)
    (currentLocalMtime : Option Timestamp) : RemoteEditLifecycle × List EditEffect :=
  match l.store.get result.sessionId with
  | none => (l, [])
  | some session =>
    if ¬applicable session result then (l, [])
    else if currentLocalMtime ≠ session.checkingLocalMtime then
      (l.revertCheck result.sessionId, [.notice session.tabId .localChangedDuringCheck])
    else
      match result.outcome with
      | .matched snapshot =>
        if snapshot = session.remoteSnapshot then
          ({ l with store := l.store.getMut result.sessionId (fun s =>
              { s with phase := .uploadingBack, pendingCheckId := none, checkingLocalMtime := none }) },
            [.dispatch session.tabId result.sessionId (buildEditUploadCommand session) .revertCheck])
        else
          ({ l with store := l.store.getMut result.sessionId (fun s =>
              { s with phase := .remoteConflict, pendingCheckId := none, checkingLocalMtime := none }) }, [])
      | .failed => (l.revertCheck result.sessionId, [.notice session.tabId .serverCheckFailed])

def localEndpoint : TransferEndpoint → TransferEndpoint → Option LocalPath
  | _, .local path => some path
  | .local path, _ => some path
  | _, _ => none

def matchesPhase (session : EditSession) (finished : EditTransferFinished) : Bool :=
  match session.phase with
  | .downloading => finished.direction = .download ∧ finished.source = .remote session.ioPath
  | .uploadingBack => finished.direction = .upload ∧ finished.destination = .remote session.ioPath
  | _ => false

def finishDownload (l : RemoteEditLifecycle) (session : EditSession) (facts : Option LocalFileFacts) :
    RemoteEditLifecycle × List EditEffect :=
  ({ l with store := l.store.getMut session.id (fun s =>
      { s with phase := .editing, localModified := false, localBaseline := facts.map (·.baseline) }) },
    [.openEditor session.tabId session.localTempPath])

def failDownload (l : RemoteEditLifecycle) (session : EditSession) : RemoteEditLifecycle × List EditEffect :=
  ({ l with store := l.store.remove session.id },
    [.deleteTempDir session.localTempPath,
      .notice session.tabId (.downloadFailed (fileNameOf session.remotePath))])

def LocalFileFacts.uploadedSnapshot (facts : LocalFileFacts) : RemoteSnapshot :=
  (RemoteSnapshot.mk (some facts.size) (some facts.mtime)).truncatedToSecs

def finishUpload (l : RemoteEditLifecycle) (session : EditSession) (facts : Option LocalFileFacts) :
    RemoteEditLifecycle × List EditEffect :=
  ({ l with store := l.store.getMut session.id (fun s =>
      { s with
        phase := .editing
        localModified := false
        localBaseline := facts.map (·.baseline)
        remoteSnapshot := (facts.map LocalFileFacts.uploadedSnapshot).getD s.remoteSnapshot }) },
    (facts.map (fun f => EditEffect.rebaseListing session.tabId session.ioPath
      (LocalFileFacts.uploadedSnapshot f))).toList ++ [.notice session.tabId .uploaded])

def failUpload (l : RemoteEditLifecycle) (session : EditSession) : RemoteEditLifecycle × List EditEffect :=
  ({ l with store := l.store.getMut session.id (fun s => { s with phase := .editing }) },
    [.notice session.tabId .uploadFailed])

def onTransferFinished (l : RemoteEditLifecycle) (finished : EditTransferFinished)
    (localFacts : Option LocalFileFacts) : RemoteEditLifecycle × List EditEffect :=
  match localEndpoint finished.source finished.destination with
  | none => (l, [])
  | some temp =>
    match l.store.findByTempPath temp with
    | none => (l, [])
    | some session =>
      if ¬matchesPhase session finished then (l, [])
      else
        match session.phase with
        | .downloading =>
          if finished.succeeded then l.finishDownload session localFacts else l.failDownload session
        | .uploadingBack =>
          if finished.succeeded then l.finishUpload session localFacts else l.failUpload session
        | _ => (l, [])

def discardLocal (l : RemoteEditLifecycle) (session : EditSession) : RemoteEditLifecycle × List EditEffect :=
  let pending : PendingEdit := {
    remotePath := session.remotePath
    ioPath := session.ioPath
    size := session.remoteSnapshot.size
    modifiedAt := session.remoteSnapshot.modifiedAt
    sessionEpoch := session.sessionEpoch
    connectionKey := session.connectionKey
    tabId := session.tabId
    profileId := session.profileId }
  let (l, started) := { l with store := l.store.remove session.id }.startDownload pending
  match started with
  | .ok edit => (l, [.deleteTempDir session.localTempPath,
      .dispatch session.tabId edit.sessionId edit.command .abortDownload])
  | .error notice => (l, [.deleteTempDir session.localTempPath, .notice session.tabId notice])

def resolveConflict (l : RemoteEditLifecycle) (id : EditSessionId) (choice : ConflictChoice) :
    RemoteEditLifecycle × List EditEffect :=
  match l.store.get id with
  | none => (l, [])
  | some session =>
    if session.phase ≠ .remoteConflict then (l, [])
    else
      match choice with
      | .overwrite =>
        ({ l with store := l.store.getMut id (fun s => { s with phase := .uploadingBack }) },
          [.dispatch session.tabId id (buildEditUploadCommand session) .restoreConflict])
      | .discardLocal => l.discardLocal session
      | .later => ({ l with store := l.store.getMut id (fun s => { s with phase := .editing }) }, [])

def dispatchFailed (l : RemoteEditLifecycle) (id : EditSessionId) (rollback : DispatchRollback) :
    RemoteEditLifecycle × List EditEffect :=
  match rollback with
  | .revertCheck => (l.revertCheck id, [])
  | .restoreConflict =>
    ({ l with store := l.store.getMut id (fun s =>
        if s.phase = .uploadingBack then { s with phase := .remoteConflict } else s) }, [])
  | .abortDownload => l.abortDownload id

def recordLocalModified (l : RemoteEditLifecycle) (id : EditSessionId) (tempPath : LocalPath)
    (facts : Option LocalFileFacts) : RemoteEditLifecycle × Bool :=
  match l.store.get id with
  | none => (l, false)
  | some session =>
    if session.phase ≠ .editing ∨ session.localTempPath ≠ tempPath then (l, false)
    else if facts.isSome ∧ session.localBaseline = facts.map (·.baseline) then (l, false)
    else ({ l with store := l.store.getMut id (fun s => { s with localModified := true }) }, true)

def listedBaseline (listing : List (RemotePath × RemoteSnapshot)) (session : EditSession) :
    Option (EditSessionId × RemoteSnapshot) :=
  if session.ioPath ≠ session.remotePath then none
  else
    match listing.find? (fun entry => entry.1 = session.remotePath) with
    | none => none
    | some (_, listed) =>
      if session.remoteSnapshot.agreesAtSecondGranularity listed then some (session.id, listed) else none

def adoptListingBaselines (l : RemoteEditLifecycle) (tabId : TabId)
    (listing : List (RemotePath × RemoteSnapshot)) : RemoteEditLifecycle :=
  let adopt := fun (store : EditSessionStore) (adoption : EditSessionId × RemoteSnapshot) =>
    store.getMut adoption.1 (fun s => { s with remoteSnapshot := adoption.2 })
  { l with store := ((l.store.editingSessionsForTab tabId).filterMap (listedBaseline listing)).foldl adopt l.store }

def updateEpochForTab (l : RemoteEditLifecycle) (tabId : TabId) (sessionEpoch : Nat) : RemoteEditLifecycle :=
  { l with store := l.store.updateEpochForTab tabId sessionEpoch }

def removeForTab (l : RemoteEditLifecycle) (tabId : TabId) : RemoteEditLifecycle × List EditSession :=
  ({ l with store := (l.store.removeForTab tabId).1 }, (l.store.removeForTab tabId).2)

end RemoteEditLifecycle

end MacSftp
