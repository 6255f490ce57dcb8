import MacSftp.Tabs.Store

namespace MacSftp.Tabs

open Lib

structure KeyboardInteractivePrompt where
  requestId : Nat
  scope : RemoteEventScope
  name : String
  instruction : String
  prompts : List (String × Bool)
  deriving DecidableEq, Repr

structure TransferConflictPrompt where
  requestId : ConflictRequestId
  planId : TransferPlanId
  transferId : TransferId
  source : TransferEndpoint
  destination : TransferEndpoint
  sourceSize : Option Nat
  sourceModifiedAt : Option Timestamp
  deriving DecidableEq, Repr

inductive ModalRequest
  | hostKey (prompt : HostKeyPrompt)
  | keyboardInteractive (prompt : KeyboardInteractivePrompt)
  | transferConflict (prompt : TransferConflictPrompt)
  deriving DecidableEq, Repr

/-- The session a modal is bound to. -/
def ModalRequest.scope : ModalRequest → Option RemoteEventScope
  | .hostKey prompt => some prompt.scope
  | .keyboardInteractive prompt => some prompt.scope
  | .transferConflict _ => none

inductive WindowEvent
  | tabConnecting (tabId : TabId)
  | hostKeyUnknown (prompt : HostKeyPrompt)
  | hostKeyMismatch (scope : RemoteEventScope) (details : HostKeyMismatchDetails)
  | tabConnected (scope : RemoteEventScope) (remoteRoot : RemotePath)
  | tabDisconnected (scope : RemoteEventScope) (reason : DisconnectReason)
  | authFailed (scope : RemoteEventScope) (reason : UserFacingError)
  | keyboardInteractivePrompt (prompt : KeyboardInteractivePrompt)
  | remoteDirLoading (scope : RemoteEventScope)
  | remoteDirLoaded (scope : RemoteEventScope)
  | remoteOperationFailed (scope : RemoteEventScope)
  | remoteEntryResolved (scope : RemoteEventScope)
  | remoteEntryResolveFailed (tabId : TabId) (sessionEpoch : Nat)
  | fsOperationFailed (tabId : TabId) (sessionEpoch : Nat)
  deriving DecidableEq, Repr

def WindowEvent.remoteScope : WindowEvent → Option RemoteEventScope
  | .tabConnected scope _ | .tabDisconnected scope _ | .authFailed scope _ | .remoteDirLoading scope | .remoteDirLoaded scope
  | .remoteOperationFailed scope | .remoteEntryResolved scope | .hostKeyMismatch scope _ => some scope
  | .keyboardInteractivePrompt prompt => some prompt.scope
  | .hostKeyUnknown prompt => some prompt.scope
  | .remoteEntryResolveFailed _ _ | .tabConnecting _ | .fsOperationFailed _ _ => none

structure AppState where
  tabs : TabStore := {}
  modals : List ModalRequest := []
  deriving DecidableEq, Repr

/-- How a session's event may change the connection of its tab. -/
inductive SessionChange
  | awaitHostKey (requestId : Nat)
  | completeConnect (connectedAt : Timestamp)
  | disconnect (reason : DisconnectReason)
  | fail (error : UserFacingError)
  deriving DecidableEq, Repr

def SessionChange.apply (sessionId : SessionId) : SessionChange → TabState → TabState
  | .awaitHostKey requestId => TabState.awaitHostKey sessionId requestId
  | .completeConnect connectedAt => TabState.completeConnect sessionId connectedAt
  | .disconnect reason => TabState.disconnect reason
  | .fail error => TabState.fail error

def SessionChange.ends : SessionChange → Bool
  | .disconnect _ | .fail _ => true
  | .awaitHostKey _ | .completeConnect _ => false

inductive AppOp
  | openTab (tabId : TabId) (title : String)
  | closeTab (tabId : TabId)
  | activateTab (tabId : TabId)
  | beginConnect (tabId : TabId) (sessionId : SessionId)
  | beginReconnect (tabId : TabId) (sessionId : SessionId)
  | onEvent (event : WindowEvent) (change : SessionChange)
  | disconnectTab (tabId : TabId)
  | present (request : ModalRequest)
  | drainExpiredModals
  deriving DecidableEq, Repr

namespace AppState

def shouldAcceptEvent (state : AppState) (event : WindowEvent) : Bool :=
  match event.remoteScope with
  | some scope => state.tabs.acceptsRemoteEvent scope
  | none => true

def modalExpired (tabs : TabStore) : ModalRequest → Bool
  | .hostKey prompt => !tabs.acceptsRemoteEvent prompt.scope
  | .keyboardInteractive prompt => !tabs.acceptsRemoteEvent prompt.scope
  | .transferConflict _ => false

/-- The loop of `retain`: what is kept of the rest, and what has expired after it. -/
def retainModals (tabs : TabStore) : List ModalRequest → List ModalRequest → List ModalRequest × List ModalRequest
  | [], expired => ([], expired)
  | request :: rest, expired =>
    if modalExpired tabs request then retainModals tabs rest (expired ++ [request])
    else
      let ended := retainModals tabs rest expired
      (request :: ended.1, ended.2)

def drainExpiredModals (state : AppState) : AppState × List ModalRequest :=
  let ended := retainModals state.tabs state.modals []
  ({ state with modals := ended.1 }, ended.2)

def updateTab (state : AppState) (tabId : TabId) (f : TabState → TabState) : AppState :=
  { state with tabs := state.tabs.updateTab tabId f }

/-- A change of a tab's connection is made only for an event that passes the guard. -/
def onEvent (state : AppState) (event : WindowEvent) (change : SessionChange) : AppState :=
  if state.shouldAcceptEvent event then
    match event.remoteScope with
    | some scope => state.updateTab scope.tabId (change.apply scope.sessionId)
    | none => state
  else state

def apply (state : AppState) : AppOp → AppState × List ModalRequest
  | .openTab tabId title => ({ state with tabs := state.tabs.openTab (.new tabId title) }, [])
  | .closeTab tabId => ({ state with tabs := (state.tabs.closeTab tabId).1 }, [])
  | .activateTab tabId => ({ state with tabs := (state.tabs.activateTab tabId).1 }, [])
  | .beginConnect tabId sessionId => (state.updateTab tabId (TabState.beginConnect sessionId), [])
  | .beginReconnect tabId sessionId => (state.updateTab tabId (TabState.beginReconnect sessionId), [])
  | .onEvent event change => (state.onEvent event change, [])
  | .disconnectTab tabId => (state.updateTab tabId (TabState.disconnect .userRequested), [])
  | .present request => ({ state with modals := state.modals ++ [request] }, [])
  | .drainExpiredModals => state.drainExpiredModals

def machine : Machine AppState AppOp (List ModalRequest) := ⟨apply⟩

end AppState

end MacSftp.Tabs
