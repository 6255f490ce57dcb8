import MacSftp.Connect.Settings
import MacSftp.Lib.Keyed
import MacSftp.Lib.Runs

namespace MacSftp.Tabs

open Lib

inductive DisconnectReason
  | userRequested
  | runtimeShutdown
  | connectionLost
  | error (error : UserFacingError)
  deriving DecidableEq, Repr

inductive ConnectionState
  | empty
  | connecting (sessionId : SessionId) (sessionEpoch : Nat)
  | awaitingHostKey (sessionId : SessionId) (sessionEpoch : Nat) (requestId : Nat)
  | connected (sessionId : SessionId) (sessionEpoch : Nat) (connectedAt : Timestamp)
  | reconnecting (sessionId previousSessionId : SessionId) (sessionEpoch : Nat)
  | disconnected (reason : DisconnectReason)
  | failed (error : UserFacingError)
  deriving DecidableEq, Repr

def ConnectionState.matchesSession (connection : ConnectionState) (sessionId : SessionId) (sessionEpoch : Nat) : Bool :=
  match connection with
  | .connecting current epoch | .awaitingHostKey current epoch _ | .connected current epoch _ | .reconnecting current _ epoch =>
    current = sessionId ∧ epoch = sessionEpoch
  | .empty | .disconnected _ | .failed _ => false

structure TabState where
  id : TabId
  sessionEpoch : Nat := 0
  title : String
  connection : ConnectionState := .empty
  deriving DecidableEq, Repr

namespace TabState

def new (id : TabId) (title : String) : TabState where
  id := id
  title := title

def acceptsRemoteEvent (tab : TabState) (scope : RemoteEventScope) : Bool :=
  tab.id = scope.tabId ∧ tab.sessionEpoch = scope.sessionEpoch ∧
    tab.connection.matchesSession scope.sessionId scope.sessionEpoch

def beginConnect (sessionId : SessionId) (tab : TabState) : TabState :=
  { tab with sessionEpoch := tab.sessionEpoch + 1, connection := .connecting sessionId (tab.sessionEpoch + 1) }

def awaitHostKey (sessionId : SessionId) (requestId : Nat) (tab : TabState) : TabState :=
  { tab with connection := .awaitingHostKey sessionId tab.sessionEpoch requestId }

def completeConnect (sessionId : SessionId) (connectedAt : Timestamp) (tab : TabState) : TabState :=
  { tab with connection := .connected sessionId tab.sessionEpoch connectedAt }

def beginReconnect (sessionId : SessionId) (tab : TabState) : TabState :=
  let previousSessionId :=
    match tab.connection with
    | .connected sessionId _ _ => sessionId
    | _ => ⟨0⟩
  { tab with
    sessionEpoch := tab.sessionEpoch + 1
    connection := .reconnecting sessionId previousSessionId (tab.sessionEpoch + 1) }

def disconnect (reason : DisconnectReason) (tab : TabState) : TabState :=
  { tab with connection := .disconnected reason }

def fail (error : UserFacingError) (tab : TabState) : TabState :=
  { tab with connection := .failed error }

end TabState

structure TabStore where
  tabs : List TabState := []
  activeTabId : Option TabId := none
  recentTabs : List TabId := []
  deriving DecidableEq, Repr

namespace TabStore

def findTab (store : TabStore) (tabId : TabId) : Option TabState := findKey TabState.id tabId store.tabs

/-- A change made through `find_tab_mut`. -/
def updateTab (store : TabStore) (tabId : TabId) (f : TabState → TabState) : TabStore :=
  { store with tabs := updateKey TabState.id tabId f store.tabs }

def acceptsRemoteEvent (store : TabStore) (scope : RemoteEventScope) : Bool :=
  match store.findTab scope.tabId with
  | some tab => tab.acceptsRemoteEvent scope
  | none => false

def touchRecentTab (store : TabStore) (tabId : TabId) : TabStore :=
  { store with recentTabs := tabId :: store.recentTabs.filter (· ≠ tabId) }

def openTab (store : TabStore) (tab : TabState) : TabStore :=
  touchRecentTab { store with
    activeTabId := if store.activeTabId.isNone then some tab.id else store.activeTabId
    tabs := store.tabs ++ [tab] } tab.id

def activateTab (store : TabStore) (tabId : TabId) : TabStore × Bool :=
  match store.findTab tabId with
  | none => (store, false)
  | some _ => (touchRecentTab { store with activeTabId := some tabId } tabId, true)

/-- What `close_tab` does before it touches the tab that is active now. -/
def withoutTab (store : TabStore) (tabId : TabId) : TabStore :=
  let tabs := store.tabs.eraseP (fun tab => tab.id = tabId)
  { tabs := tabs
    activeTabId := if store.activeTabId = some tabId then tabs.head?.map TabState.id else store.activeTabId
    recentTabs := store.recentTabs.filter (· ≠ tabId) }

def closeTab (store : TabStore) (tabId : TabId) : TabStore × Option TabState :=
  match store.findTab tabId with
  | none => (store, none)
  | some removed =>
    let rest := store.withoutTab tabId
    match rest.activeTabId with
    | some active => (rest.touchRecentTab active, some removed)
    | none => (rest, some removed)

def ids (store : TabStore) : List TabId := store.tabs.map TabState.id

theorem findTab_eq_none {store : TabStore} {tabId : TabId} : store.findTab tabId = none ↔ tabId ∉ store.ids := by
  simp [findTab, findKey_eq_none, ids]

theorem findTab_isSome {store : TabStore} {tabId : TabId} {tab : TabState} (found : store.findTab tabId = some tab) :
    tabId ∈ store.ids := by
  obtain ⟨mem, same⟩ := findKey_mem TabState.id found
  exact List.mem_map.mpr ⟨tab, mem, same⟩

theorem ids_openTab (store : TabStore) (tab : TabState) : (store.openTab tab).ids = store.ids ++ [tab.id] := by
  simp [openTab, touchRecentTab, ids]

theorem findTab_openTab (store : TabStore) (tab : TabState) (tabId : TabId) :
    (store.openTab tab).findTab tabId = (store.findTab tabId).or (if tab.id = tabId then some tab else none) := by
  change (store.tabs ++ [tab]).find? _ = _
  rw [List.find?_append, findTab, findKey]
  by_cases same : tab.id = tabId <;> simp [same]

theorem ids_updateTab (store : TabStore) (tabId : TabId) {f : TabState → TabState} (same : ∀ tab, (f tab).id = tab.id) :
    (store.updateTab tabId f).ids = store.ids := updateKey_map TabState.id tabId TabState.id same store.tabs

theorem findTab_updateTab {store : TabStore} (nodup : store.ids.Nodup) (tabId : TabId) {f : TabState → TabState}
    (same : ∀ tab, (f tab).id = tab.id) (other : TabId) :
    (store.updateTab tabId f).findTab other = if other = tabId then (store.findTab other).map f else store.findTab other :=
  findKey_updateKey_eq TabState.id same nodup other

theorem ids_activateTab (store : TabStore) (tabId : TabId) : (store.activateTab tabId).1.ids = store.ids := by
  unfold activateTab
  cases store.findTab tabId <;> rfl

theorem findTab_activateTab (store : TabStore) (tabId other : TabId) :
    (store.activateTab tabId).1.findTab other = store.findTab other := by
  unfold activateTab
  cases store.findTab tabId <;> rfl

theorem tabs_withoutTab {store : TabStore} (nodup : store.ids.Nodup) (tabId : TabId) :
    (store.withoutTab tabId).tabs = store.tabs.filter (fun tab => tab.id ≠ tabId) :=
  eraseP_eq_filter TabState.id nodup

theorem ids_withoutTab {store : TabStore} (nodup : store.ids.Nodup) (tabId : TabId) :
    (store.withoutTab tabId).ids = store.ids.filter (· ≠ tabId) := by
  rw [ids, tabs_withoutTab nodup, ids, List.filter_map]
  rfl

theorem mem_withoutTab {store : TabStore} (nodup : store.ids.Nodup) {tabId other : TabId} :
    other ∈ (store.withoutTab tabId).ids ↔ other ∈ store.ids ∧ other ≠ tabId := by
  rw [ids_withoutTab nodup, List.mem_filter]
  simp

theorem tabs_closeTab {store : TabStore} (nodup : store.ids.Nodup) (tabId : TabId) :
    (store.closeTab tabId).1.tabs = store.tabs.filter (fun tab => tab.id ≠ tabId) := by
  rw [← tabs_withoutTab nodup, closeTab]
  cases found : store.findTab tabId with
  | none =>
    have absent : ∀ tab ∈ store.tabs, ¬ tab.id = tabId := findKey_eq_none TabState.id |>.mp found
    exact (List.eraseP_of_forall_not (by simpa using absent)).symm
  | some tab => cases active : (store.withoutTab tabId).activeTabId <;> simp [active, touchRecentTab]

theorem ids_closeTab {store : TabStore} (nodup : store.ids.Nodup) (tabId : TabId) :
    (store.closeTab tabId).1.ids = store.ids.filter (· ≠ tabId) := by
  rw [ids, tabs_closeTab nodup, ids, List.filter_map]
  rfl

theorem findTab_closeTab {store : TabStore} (nodup : store.ids.Nodup) (tabId other : TabId) :
    (store.closeTab tabId).1.findTab other = if other = tabId then none else store.findTab other := by
  rw [findTab, tabs_closeTab nodup, findKey, List.find?_filter]
  by_cases same : other = tabId
  · rw [if_pos same, List.find?_eq_none]
    intro tab _
    simp only [ne_eq, decide_not, Bool.not_eq_true', decide_eq_false_iff_not, decide_eq_true_eq]
    rintro ⟨apart, is⟩
    exact apart (is.trans same)
  · rw [if_neg same, findTab, findKey]
    congr 1
    funext tab
    by_cases is : tab.id = other <;> simp [is, same]

end TabStore

end MacSftp.Tabs
