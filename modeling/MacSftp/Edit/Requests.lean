import MacSftp.Edit.Transitions

namespace MacSftp

open Lib EditSessionStore

inductive ConnectionState
  | empty
  | connecting (sessionEpoch : Nat)
  | awaitingHostKey (sessionEpoch : Nat)
  | connected (sessionEpoch : Nat)
  | reconnecting (sessionEpoch : Nat)
  | disconnected
  | failed
  deriving DecidableEq, Repr

structure TabState where
  id : TabId
  connection : ConnectionState
  connectionKey : Option ConnectionKey
  profileId : Option ProfileId
  deriving DecidableEq, Repr

def connectedEditSession (tab : TabState) : Option (Nat × ConnectionKey) :=
  match tab.connection, tab.connectionKey with
  | .connected sessionEpoch, some connectionKey => some (sessionEpoch, connectionKey)
  | _, _ => none

structure Workspace where
  id : Nat
  tabs : List TabState
  largeEditConfirm : Option PendingEdit
  deriving DecidableEq, Repr

def Workspace.findTab (workspace : Workspace) (tabId : TabId) : Option TabState :=
  findKey TabState.id tabId workspace.tabs

structure EditApp where
  editSessions : RemoteEditLifecycle
  windows : List Workspace
  deriving Repr

def editSizeWarnThreshold : Nat := 100 * 1024 * 1024

def EditOp.isFollowUp : EditOp → Bool
  | .begin .. | .startDownload .. => false
  | _ => true

structure EditFollowUp where
  op : EditOp
  followUp : op.isFollowUp = true

inductive EditAppOp
  | openTab (window : Nat) (tab : TabState)
  | connectTab (window : Nat) (tabId : TabId) (connectionKey : ConnectionKey) (profileId : Option ProfileId)
      (nextEpoch : Nat)
  | connectionChanged (window : Nat) (tabId : TabId) (connection : ConnectionState)
  | beginEditResolved (window : Nat) (tabId : TabId) (remotePath ioPath : RemotePath) (size : Option Nat)
      (modifiedAt : Option Timestamp) (sent : Bool)
  | confirmLargeEdit (window : Nat) (sent : Bool)
  | cancelLargeEdit (window : Nat)
  | closeTab (window : Nat) (tabId : TabId)
  | closeWindow (window : Nat)
  | cleanupOrphanedEditSessions
  | lifecycle (followUp : EditFollowUp)

namespace EditApp

def tabIds (app : EditApp) : List TabId := app.windows.flatMap (fun window => window.tabs.map TabState.id)

def window (app : EditApp) (id : Nat) : Option Workspace := findKey Workspace.id id app.windows

def updateWindow (app : EditApp) (id : Nat) (f : Workspace → Workspace) : EditApp :=
  { app with windows := updateKey Workspace.id id f app.windows }

def updateTab (app : EditApp) (id : Nat) (tabId : TabId) (f : TabState → TabState) : EditApp :=
  app.updateWindow id (fun window => { window with tabs := updateKey TabState.id tabId f window.tabs })

def openTab (app : EditApp) (id : Nat) (tab : TabState) : EditApp :=
  match app.window id with
  | some _ => app.updateWindow id (fun window => { window with tabs := window.tabs ++ [tab] })
  | none => { app with windows := app.windows ++ [⟨id, [tab], none⟩] }

def connectTab (app : EditApp) (id : Nat) (tabId : TabId) (connectionKey : ConnectionKey)
    (profileId : Option ProfileId) (nextEpoch : Nat) : EditApp :=
  let app := app.updateTab id tabId (fun tab => { tab with
    connection := .reconnecting nextEpoch, connectionKey := some connectionKey, profileId := profileId })
  { app with editSessions := app.editSessions.updateEpochForTab tabId nextEpoch }

def refreshProfile (tab : Option TabState) (pending : PendingEdit) : PendingEdit :=
  match tab with
  | some tab => { pending with profileId := tab.profileId.getD ⟨0⟩ }
  | none => pending

/-- Registers the session and sends its download; an undelivered command takes the session back. -/
def startEditDownload (app : EditApp) (tab : Option TabState) (pending : PendingEdit) (sent : Bool) : EditApp :=
  match app.editSessions.startDownload (refreshProfile tab pending) with
  | (editSessions, .error _) => { app with editSessions := editSessions }
  | (editSessions, .ok started) =>
    if sent then { app with editSessions := editSessions }
    else { app with editSessions := (editSessions.abortDownload started.sessionId).1 }

def requestedEdit (app : EditApp) (id : Nat) (tabId : TabId) (remotePath ioPath : RemotePath)
    (size : Option Nat) (modifiedAt : Option Timestamp) : Option (TabState × PendingEdit) :=
  ((app.window id).bind (·.findTab tabId)).bind fun tab =>
    (connectedEditSession tab).bind fun live =>
      if (safeFileName remotePath).isNone ∨ (remotePath ≠ ioPath ∧ (safeFileName ioPath).isNone) then none
      else some (tab, {
        remotePath := remotePath
        ioPath := ioPath
        size := size
        modifiedAt := modifiedAt
        sessionEpoch := live.1
        connectionKey := live.2
        tabId := tab.id
        profileId := tab.profileId.getD ⟨0⟩ })

def openEdit (app : EditApp) (id : Nat) (tab : TabState) (pending : PendingEdit) (sent : Bool) : EditApp :=
  match app.editSessions.begin pending (fun tabId => decide (tabId ∈ app.tabIds)) with
  | (editSessions, .handled _) => { app with editSessions := editSessions }
  | (editSessions, .start pending _) =>
    let app := { app with editSessions := editSessions }
    if pending.size.getD 0 > editSizeWarnThreshold then
      app.updateWindow id (fun window => { window with largeEditConfirm := some pending })
    else app.startEditDownload (some tab) pending sent

def beginEditResolved (app : EditApp) (id : Nat) (tabId : TabId) (remotePath ioPath : RemotePath)
    (size : Option Nat) (modifiedAt : Option Timestamp) (sent : Bool) : EditApp :=
  match app.requestedEdit id tabId remotePath ioPath size modifiedAt with
  | none => app
  | some (tab, pending) => app.openEdit id tab pending sent

/-- What a confirmed large edit starts: the pending edit with the live tab's epoch, connection and profile. -/
def confirmedEdit (app : EditApp) (id : Nat) : Option (TabState × PendingEdit) :=
  (app.window id).bind fun window =>
    window.largeEditConfirm.bind fun pending =>
      (window.findTab pending.tabId).bind fun tab =>
        (connectedEditSession tab).map fun live =>
          (tab, { pending with
            sessionEpoch := live.1, connectionKey := live.2, profileId := tab.profileId.getD ⟨0⟩ })

def cancelLargeEdit (app : EditApp) (id : Nat) : EditApp :=
  app.updateWindow id (fun window => { window with largeEditConfirm := none })

def confirmLargeEdit (app : EditApp) (id : Nat) (sent : Bool) : EditApp :=
  match app.confirmedEdit id with
  | none => app.cancelLargeEdit id
  | some (tab, pending) => (app.cancelLargeEdit id).startEditDownload (some tab) pending sent

def closeTab (app : EditApp) (id : Nat) (tabId : TabId) : EditApp :=
  match (app.window id).bind (·.findTab tabId) with
  | none => app
  | some _ =>
    let app := app.updateWindow id (fun window => { window with
      tabs := window.tabs.eraseP (fun tab => tab.id = tabId)
      largeEditConfirm := window.largeEditConfirm.filter (fun pending => pending.tabId ≠ tabId) })
    { app with editSessions := (app.editSessions.removeForTab tabId).1 }

def cleanupOrphanedEditSessions (app : EditApp) : EditApp :=
  let orphaned := (app.editSessions.store.sessions.map EditSession.tabId).filter (fun tabId => tabId ∉ app.tabIds)
  { app with editSessions := orphaned.foldl (fun editSessions tabId => (editSessions.removeForTab tabId).1)
              app.editSessions }

def apply (app : EditApp) : EditAppOp → EditApp
  | .openTab window tab => app.openTab window tab
  | .connectTab window tabId connectionKey profileId nextEpoch =>
    app.connectTab window tabId connectionKey profileId nextEpoch
  | .connectionChanged window tabId connection =>
    app.updateTab window tabId (fun tab => { tab with connection := connection })
  | .beginEditResolved window tabId remotePath ioPath size modifiedAt sent =>
    app.beginEditResolved window tabId remotePath ioPath size modifiedAt sent
  | .confirmLargeEdit window sent => app.confirmLargeEdit window sent
  | .cancelLargeEdit window => app.cancelLargeEdit window
  | .closeTab window tabId => app.closeTab window tabId
  | .closeWindow window => { app with windows := app.windows.eraseP (fun w => w.id = window) }
  | .cleanupOrphanedEditSessions => app.cleanupOrphanedEditSessions
  | .lifecycle followUp => { app with editSessions := (app.editSessions.apply followUp.op).1 }

def machine : Machine EditApp EditAppOp Unit := ⟨fun app op => (app.apply op, ())⟩

def new (editsDir : LocalPath) (runId : List Char) : EditApp := ⟨.new editsDir runId, []⟩

end EditApp

end MacSftp
