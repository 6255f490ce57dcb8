import MacSftp.Edit.Operations
import MacSftp.Tabs.Stale

namespace MacSftp.EditChecks

open Lib Tabs

/-- A tab of some window, with what the edit flow reads of it. Tab ids are given out once for all windows. -/
structure EditTab where
  state : Tabs.TabState
  connectionKey : Option ConnectionKey := none
  deriving DecidableEq, Repr

def EditTab.id (tab : EditTab) : TabId := tab.state.id

def EditTab.map (f : Tabs.TabState → Tabs.TabState) (tab : EditTab) : EditTab := { tab with state := f tab.state }

inductive RuntimeCommand
  | connectTab (scope : RemoteEventScope)
  | disconnectTab (tabId : TabId)
  | closeTab (tabId : TabId)
  | closeTabs (tabIds : List TabId)
  | checkRemoteEditSnapshot (command : CheckRemoteEditSnapshotCommand)
  deriving DecidableEq, Repr

structure CheckRequest where
  editSessionId : EditSessionId
  checkId : EditCheckId
  path : RemotePath
  deriving DecidableEq, Repr

def requestOf (command : CheckRemoteEditSnapshotCommand) : CheckRequest :=
  ⟨command.editSessionId, command.checkId, command.path⟩

/-- Where the task of a session stands. `lost` is after `TabDisconnected` and before the mailbox is dropped. -/
inductive ActorPhase
  | connecting
  | serving
  | lost
  | closed
  | failed
  | stopped
  deriving DecidableEq, Repr

def ActorPhase.served : ActorPhase → Bool
  | .connecting | .failed => false
  | .serving | .lost | .closed | .stopped => true

def ActorPhase.mailboxOpen : ActorPhase → Bool
  | .connecting | .serving | .lost => true
  | .closed | .failed | .stopped => false

structure RemoteSessionActor where
  scope : RemoteEventScope
  phase : ActorPhase := .connecting
  cancelled : Bool := false
  mailbox : List CheckRequest := []
  deriving DecidableEq, Repr

def RemoteSessionActor.sessionId (actor : RemoteSessionActor) : SessionId := actor.scope.sessionId

inductive RuntimeEvent
  | hostKeyUnknown (scope : RemoteEventScope) (requestId : Nat)
  | hostKeyMismatch (scope : RemoteEventScope) (error : UserFacingError)
  | authFailed (scope : RemoteEventScope) (reason : UserFacingError)
  | tabConnected (scope : RemoteEventScope)
  | tabDisconnected (scope : RemoteEventScope) (reason : Tabs.DisconnectReason)
  | remoteEditSnapshotChecked (scope : RemoteEventScope) (request : CheckRequest) (snapshot : RemoteSnapshot)
  | remoteEditSnapshotCheckFailed (scope : RemoteEventScope) (request : CheckRequest)
  | remoteEditSnapshotDispatchFailed (command : CheckRemoteEditSnapshotCommand)
  deriving DecidableEq, Repr

/-- What an attempt that does not succeed tells the tab, if it tells it anything. -/
inductive AttemptOutcome
  | hostKeyMismatch (error : UserFacingError)
  | authFailed (reason : UserFacingError)
  | tabDisconnected (reason : Tabs.DisconnectReason)
  | silent
  deriving DecidableEq, Repr

def AttemptOutcome.events (scope : RemoteEventScope) : AttemptOutcome → List RuntimeEvent
  | .hostKeyMismatch error => [.hostKeyMismatch scope error]
  | .authFailed reason => [.authFailed scope reason]
  | .tabDisconnected reason => [.tabDisconnected scope reason]
  | .silent => []

inductive ActorMove
  | prompts (requestId : Nat)
  | connects
  | fails (outcome : AttemptOutcome)
  | serves (metadata : Option RemoteSnapshot)
  | loses (reason : Tabs.DisconnectReason)
  | closes
  | stops
  deriving DecidableEq, Repr

inductive CheckOp
  | openTab (title : String)
  | closeTab (tabId : TabId) (sent : Bool)
  | closeWindow (tabIds : List TabId)
  | connectWith (tabId : TabId) (connectionKey : ConnectionKey) (sent : Bool)
  | cancelConnect (tabId : TabId) (sent : Bool)
  | acceptHostKey (tabId : TabId) (requestId : Nat) (sent : Bool)
  | rejectHostKey (tabId : TabId) (requestId : Nat) (sent : Bool)
  | uploadSelectedEdit (id : EditSessionId) (localMtime : Option Timestamp) (sent : Bool)
  | edit (op : EditOp)
  | onEvent (localMtime : Option Timestamp) (now : Timestamp)
  | release (position : Nat)
  | dispatch (mailboxFull : Bool)
  | actor (sessionId : SessionId) (move : ActorMove)

/-- The interface of all windows, the command channel into the runtime, the session tasks, and the events that
come back. `parked` are the sends that still wait for room in the command channel. -/
structure CheckSystem where
  tabs : List EditTab
  edits : RemoteEditLifecycle
  commands : List RuntimeCommand
  parked : List RuntimeCommand
  sessions : TabId → Option (SessionId × Nat)
  actors : List RemoteSessionActor
  events : List RuntimeEvent
  nextTabId : Nat
  nextSessionId : Nat

/-- The operations of the edit flow that are no step of a check. -/
def besidesChecks : EditOp → Bool
  | .requestUpload .. | .onCheckResult .. | .updateEpochForTab .. => false
  | _ => true

def connectionInFlight : Tabs.ConnectionState → Bool
  | .connecting .. | .awaitingHostKey .. | .reconnecting .. => true
  | _ => false

def connectedEditSession (tab : EditTab) : Option (Nat × ConnectionKey) :=
  match tab.state.connection, tab.connectionKey with
  | .connected _ epoch _, some key => some (epoch, key)
  | _, _ => none

def isReconnect : Tabs.ConnectionState → Bool
  | .connected .. => true
  | _ => false

def beginAttempt (sessionId : SessionId) (connectionKey : ConnectionKey) (tab : EditTab) : EditTab where
  state := if isReconnect tab.state.connection then tab.state.beginReconnect sessionId else tab.state.beginConnect sessionId
  connectionKey := some connectionKey

def resumeConnecting (requestId : Nat) (tab : Tabs.TabState) : Tabs.TabState :=
  match tab.connection with
  | .awaitingHostKey sessionId epoch pending =>
    if pending = requestId then { tab with connection := .connecting sessionId epoch } else tab
  | _ => tab

def declineHostKey (requestId : Nat) (tab : Tabs.TabState) : Tabs.TabState :=
  match tab.connection with
  | .awaitingHostKey _ _ pending => if pending = requestId then tab.disconnect .userRequested else tab
  | _ => tab

namespace CheckSystem

def new (editsDir : LocalPath) (runId : List Char) : CheckSystem where
  tabs := []
  edits := .new editsDir runId
  commands := []
  parked := []
  sessions := fun _ => none
  actors := []
  events := []
  nextTabId := 1
  nextSessionId := 1

def findTab (s : CheckSystem) (tabId : TabId) : Option EditTab := findKey EditTab.id tabId s.tabs

def updateTab (s : CheckSystem) (tabId : TabId) (f : EditTab → EditTab) : CheckSystem :=
  { s with tabs := updateKey EditTab.id tabId f s.tabs }

def closeTabs (s : CheckSystem) (closed : TabId → Bool) : CheckSystem :=
  { s with tabs := s.tabs.filter (fun tab => !closed tab.id) }

def acceptsRemoteScope (s : CheckSystem) (scope : RemoteEventScope) : Bool :=
  match s.findTab scope.tabId with
  | some tab => tab.state.acceptsRemoteEvent scope
  | none => false

def post (s : CheckSystem) (command : RuntimeCommand) : CheckSystem := { s with commands := s.commands ++ [command] }

def park (s : CheckSystem) (command : RuntimeCommand) : CheckSystem := { s with parked := s.parked ++ [command] }

def emit (s : CheckSystem) (events : List RuntimeEvent) : CheckSystem := { s with events := s.events ++ events }

def applyEdit (s : CheckSystem) (op : EditOp) : CheckSystem := { s with edits := (s.edits.apply op).1 }

def openTab (s : CheckSystem) (title : String) : CheckSystem :=
  { s with tabs := s.tabs ++ [{ state := .new ⟨s.nextTabId⟩ title }], nextTabId := s.nextTabId + 1 }

def closeTab (s : CheckSystem) (tabId : TabId) (sent : Bool) : CheckSystem :=
  match s.findTab tabId with
  | none => s
  | some _ =>
    let s := (s.closeTabs (· = tabId)).applyEdit (.removeForTab tabId)
    if sent then s.post (.closeTab tabId) else s.park (.closeTab tabId)

/-- The sweep after a window is gone: every session whose tab no window holds. -/
def cleanupOrphanedEditSessions (s : CheckSystem) : CheckSystem :=
  (((s.edits.store.sessions.map EditSession.tabId).dedup).filter (fun tabId => (s.findTab tabId).isNone)).foldl
    (fun s tabId => s.applyEdit (.removeForTab tabId)) s

def closeWindow (s : CheckSystem) (tabIds : List TabId) : CheckSystem :=
  -- the window's tabs, and those it closed earlier whose release the runtime has not confirmed
  let registered := tabIds.filter (·.raw < s.nextTabId)
  ((s.closeTabs (· ∈ registered)).park (.closeTabs registered)).cleanupOrphanedEditSessions

def connectWith (s : CheckSystem) (tabId : TabId) (connectionKey : ConnectionKey) (sent : Bool) : CheckSystem :=
  match s.findTab tabId with
  | none => s
  | some tab =>
    if connectionInFlight tab.state.connection then s
    else
      -- The session id is spent even when the command cannot be sent.
      let sessionId : SessionId := ⟨s.nextSessionId⟩
      let s := { s with nextSessionId := s.nextSessionId + 1 }
      if sent then
        ((s.post (.connectTab ⟨tabId, sessionId, tab.state.sessionEpoch + 1⟩)).updateTab tabId
          (beginAttempt sessionId connectionKey)).applyEdit (.updateEpochForTab tabId (tab.state.sessionEpoch + 1))
      else s

def rejectHostKey (s : CheckSystem) (tabId : TabId) (requestId : Nat) (sent : Bool) : CheckSystem :=
  if sent then s.updateTab tabId (EditTab.map (declineHostKey requestId)) else s

def acceptHostKey (s : CheckSystem) (tabId : TabId) (requestId : Nat) (sent : Bool) : CheckSystem :=
  if sent then s.updateTab tabId (EditTab.map (resumeConnecting requestId)) else s

def cancelConnect (s : CheckSystem) (tabId : TabId) (sent : Bool) : CheckSystem :=
  match s.findTab tabId with
  | none => s
  | some tab =>
    match tab.state.connection with
    | .awaitingHostKey _ _ requestId => s.rejectHostKey tabId requestId sent
    | .connecting .. | .reconnecting .. =>
      if sent then (s.post (.disconnectTab tabId)).updateTab tabId (EditTab.map (Tabs.TabState.disconnect .userRequested)) else s
    | _ => s

def uploadSelectedEdit (s : CheckSystem) (id : EditSessionId) (localMtime : Option Timestamp) (sent : Bool) : CheckSystem :=
  match s.edits.store.get id with
  | none => s
  | some session =>
    if session.phase ≠ .editing then s
    else
      match (s.findTab session.tabId).bind connectedEditSession, localMtime with
      | some (epoch, key), some mtime =>
        let requested := s.applyEdit (.requestUpload id epoch key mtime)
        match (s.edits.requestUpload id epoch key mtime).2 with
        | .check command =>
          if sent then requested.post (.checkRemoteEditSnapshot command) else requested.applyEdit (.revertCheck id)
        | .rejected _ => requested
      | _, _ => s

def applyRemoteEditCheckEvent (s : CheckSystem) (scope : Option RemoteEventScope) (result : EditCheckResult)
    (localMtime : Option Timestamp) : CheckSystem :=
  if scope.any (fun scope => !s.acceptsRemoteScope scope) then s
  else
    match s.edits.store.get result.sessionId with
    | none => s
    | some _ => s.applyEdit (.onCheckResult result localMtime)

def scopedResult (scope : RemoteEventScope) (request : CheckRequest) (outcome : EditCheckOutcome) : EditCheckResult :=
  ⟨scope.tabId, scope.sessionEpoch, request.editSessionId, request.checkId, request.path, outcome⟩

def dispatchResult (command : CheckRemoteEditSnapshotCommand) : EditCheckResult :=
  ⟨command.tabId, command.sessionEpoch, command.editSessionId, command.checkId, command.path, .failed⟩

def handleWindowEvent (s : CheckSystem) (scope : RemoteEventScope) (f : Tabs.TabState → Tabs.TabState) : CheckSystem :=
  if s.acceptsRemoteScope scope then s.updateTab scope.tabId (EditTab.map f) else s

def handleEvent (s : CheckSystem) (localMtime : Option Timestamp) (now : Timestamp) : RuntimeEvent → CheckSystem
  | .hostKeyUnknown scope requestId => s.handleWindowEvent scope (Tabs.TabState.awaitHostKey scope.sessionId requestId)
  | .hostKeyMismatch scope error => s.handleWindowEvent scope (Tabs.TabState.fail error)
  | .authFailed scope reason => s.handleWindowEvent scope (Tabs.TabState.fail reason)
  | .tabConnected scope => s.handleWindowEvent scope (Tabs.TabState.completeConnect scope.sessionId now)
  | .tabDisconnected scope reason =>
    if s.acceptsRemoteScope scope then
      (s.handleWindowEvent scope (Tabs.TabState.disconnect reason)).applyEdit (.updateEpochForTab scope.tabId scope.sessionEpoch)
    else s
  | .remoteEditSnapshotChecked scope request snapshot =>
    s.applyRemoteEditCheckEvent (some scope) (scopedResult scope request (.matched snapshot)) localMtime
  | .remoteEditSnapshotCheckFailed scope request =>
    s.applyRemoteEditCheckEvent (some scope) (scopedResult scope request .failed) localMtime
  | .remoteEditSnapshotDispatchFailed command => s.applyRemoteEditCheckEvent none (dispatchResult command) localMtime

def onEvent (s : CheckSystem) (localMtime : Option Timestamp) (now : Timestamp) : CheckSystem :=
  match s.events with
  | [] => s
  | event :: events => { s with events := events }.handleEvent localMtime now event

/-- A send that has waited goes through. Which of them does is up to the channel. -/
def release (s : CheckSystem) (position : Nat) : CheckSystem :=
  match s.parked[position]? with
  | none => s
  | some command => { s with parked := s.parked.eraseIdx position }.post command

def updateActor (s : CheckSystem) (sessionId : SessionId) (f : RemoteSessionActor → RemoteSessionActor) : CheckSystem :=
  { s with actors := updateKey RemoteSessionActor.sessionId sessionId f s.actors }

/-- What `sessions.remove` followed by `shutdown_in_background` does. -/
def shutdownSession (s : CheckSystem) (tabId : TabId) : CheckSystem :=
  match s.sessions tabId with
  | none => s
  | some (sessionId, _) =>
    { s with sessions := fun other => if other = tabId then none else s.sessions other }.updateActor sessionId
      (fun actor => { actor with cancelled := true })

def connectTab (s : CheckSystem) (scope : RemoteEventScope) : CheckSystem :=
  let s := s.shutdownSession scope.tabId
  { s with
    actors := s.actors ++ [{ scope := scope }]
    sessions := fun tabId => if tabId = scope.tabId then some (scope.sessionId, scope.sessionEpoch) else s.sessions tabId }

def routeCheckRemoteEditSnapshot (s : CheckSystem) (command : CheckRemoteEditSnapshotCommand) (mailboxFull : Bool) : CheckSystem :=
  let failed := s.emit [.remoteEditSnapshotDispatchFailed command]
  match s.sessions command.tabId with
  | none => failed
  | some (sessionId, epoch) =>
    if epoch ≠ command.sessionEpoch then failed
    else
      match findKey RemoteSessionActor.sessionId sessionId s.actors with
      | none => failed
      | some actor =>
        if actor.phase.mailboxOpen ∧ !mailboxFull then
          s.updateActor sessionId (fun actor => { actor with mailbox := actor.mailbox ++ [requestOf command] })
        else failed

def dispatch (s : CheckSystem) (mailboxFull : Bool) : CheckSystem :=
  match s.commands with
  | [] => s
  | command :: commands =>
    let s := { s with commands := commands }
    match command with
    | .connectTab scope => s.connectTab scope
    | .disconnectTab tabId => s.shutdownSession tabId
    | .closeTab tabId => s.shutdownSession tabId
    | .closeTabs tabIds => tabIds.foldl shutdownSession s
    | .checkRemoteEditSnapshot command => s.routeCheckRemoteEditSnapshot command mailboxFull

def checkedEvent (scope : RemoteEventScope) (request : CheckRequest) : Option RemoteSnapshot → RuntimeEvent
  | some snapshot => .remoteEditSnapshotChecked scope request snapshot
  | none => .remoteEditSnapshotCheckFailed scope request

def actorMove (s : CheckSystem) (actor : RemoteSessionActor) (move : ActorMove) : CheckSystem :=
  let goes := fun phase mailbox => s.updateActor actor.sessionId (fun actor => { actor with phase := phase, mailbox := mailbox })
  match move with
  -- The attempt that a session waits for may outlive the session's own task.
  | .prompts requestId => if actor.phase.served then s else s.emit [.hostKeyUnknown actor.scope requestId]
  | .connects =>
    if actor.phase = .connecting then (goes .serving actor.mailbox).emit [.tabConnected actor.scope] else s
  | .fails outcome => if actor.phase.served then s else (goes .failed []).emit (outcome.events actor.scope)
  | .serves metadata =>
    match actor.mailbox with
    | [] => s
    | request :: rest =>
      if actor.phase = .serving then (goes .serving rest).emit [checkedEvent actor.scope request metadata] else s
  | .loses reason =>
    if actor.phase = .serving then (goes .lost actor.mailbox).emit [.tabDisconnected actor.scope reason] else s
  | .closes => if actor.phase = .lost then goes .closed [] else s
  | .stops =>
    if actor.cancelled ∧ actor.phase = .serving then goes .stopped []
    else if actor.cancelled ∧ actor.phase = .connecting then goes .failed []
    else s

def step (s : CheckSystem) : CheckOp → CheckSystem
  | .openTab title => s.openTab title
  | .closeTab tabId sent => s.closeTab tabId sent
  | .closeWindow tabIds => s.closeWindow tabIds
  | .connectWith tabId connectionKey sent => s.connectWith tabId connectionKey sent
  | .cancelConnect tabId sent => s.cancelConnect tabId sent
  | .acceptHostKey tabId requestId sent => s.acceptHostKey tabId requestId sent
  | .rejectHostKey tabId requestId sent => s.rejectHostKey tabId requestId sent
  | .uploadSelectedEdit id localMtime sent => s.uploadSelectedEdit id localMtime sent
  | .edit op => if besidesChecks op then s.applyEdit op else s
  | .onEvent localMtime now => s.onEvent localMtime now
  | .release position => s.release position
  | .dispatch mailboxFull => s.dispatch mailboxFull
  | .actor sessionId move =>
    match findKey RemoteSessionActor.sessionId sessionId s.actors with
    | none => s
    | some actor => s.actorMove actor move

def machine : Machine CheckSystem CheckOp Unit := ⟨fun s op => (s.step op, ())⟩

end CheckSystem

end MacSftp.EditChecks
