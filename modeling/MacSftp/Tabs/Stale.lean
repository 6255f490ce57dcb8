import MacSftp.Tabs.Sessions

namespace MacSftp.Tabs

open Lib

/-- The session a connection belongs to. -/
def ConnectionState.session : ConnectionState → Option (SessionId × Nat)
  | .connecting sessionId epoch | .awaitingHostKey sessionId epoch _ | .connected sessionId epoch _
  | .reconnecting sessionId _ epoch => some (sessionId, epoch)
  | .empty | .disconnected _ | .failed _ => none

theorem ConnectionState.matchesSession_iff {connection : ConnectionState} {sessionId : SessionId} {epoch : Nat} :
    connection.matchesSession sessionId epoch = true ↔ connection.session = some (sessionId, epoch) := by
  cases connection <;> simp [matchesSession, session]

theorem TabState.accepts_iff {tab : TabState} {scope : RemoteEventScope} :
    tab.acceptsRemoteEvent scope = true ↔ tab.id = scope.tabId ∧ tab.sessionEpoch = scope.sessionEpoch ∧
      tab.connection.session = some (scope.sessionId, scope.sessionEpoch) := by
  simp [acceptsRemoteEvent, ConnectionState.matchesSession_iff]

theorem TabStore.accepts_iff {store : TabStore} {scope : RemoteEventScope} :
    store.acceptsRemoteEvent scope = true ↔
      ∃ tab, store.findTab scope.tabId = some tab ∧ tab.acceptsRemoteEvent scope = true := by
  unfold acceptsRemoteEvent
  cases store.findTab scope.tabId <;> simp

theorem accepted_scope_unique {store : TabStore} {scope other : RemoteEventScope} (accepted : store.acceptsRemoteEvent scope = true)
    (also : store.acceptsRemoteEvent other = true) (same : scope.tabId = other.tabId) : scope = other := by
  obtain ⟨tab, found, mine⟩ := TabStore.accepts_iff.mp accepted
  obtain ⟨tab', found', its⟩ := TabStore.accepts_iff.mp also
  cases (same ▸ found).symm.trans found'
  have session := (TabState.accepts_iff.mp mine).2.2.symm.trans (TabState.accepts_iff.mp its).2.2
  cases scope
  cases other
  cases same
  cases session
  rfl

namespace AppState

theorem retainModals_eq (tabs : TabStore) (requests expired : List ModalRequest) :
    retainModals tabs requests expired =
      (requests.filter (fun request => !modalExpired tabs request), expired ++ requests.filter (modalExpired tabs)) := by
  induction requests generalizing expired with
  | nil => simp [retainModals]
  | cons request rest ih =>
    rw [retainModals]
    by_cases gone : modalExpired tabs request = true
    · simp [gone, ih]
    · simp [gone, ih]

theorem modalExpired_iff {tabs : TabStore} {request : ModalRequest} :
    modalExpired tabs request = true ↔ ∃ scope, request.scope = some scope ∧ tabs.acceptsRemoteEvent scope = false := by
  cases request <;> simp [modalExpired, ModalRequest.scope]

/-- The tabs that a history has opened. -/
def openedTabs (history : List AppOp) : List TabId :=
  history.filterMap fun op => match op with
    | .openTab tabId _ => some tabId
    | _ => none

/-- The session ids that a history has used. -/
def begunSessions (history : List AppOp) : List SessionId :=
  history.filterMap fun op => match op with
    | .beginConnect _ sessionId | .beginReconnect _ sessionId => some sessionId
    | _ => none

/-- Tab ids and session ids are handed out once. -/
def FreshIds (past : List AppOp) : AppOp → Prop
  | .openTab tabId _ => tabId ∉ openedTabs past
  | .beginConnect _ sessionId | .beginReconnect _ sessionId => sessionId ∉ begunSessions past
  | _ => True

/-- The scope of the attempt that a step begins. -/
def begins (state : AppState) : AppOp → Option RemoteEventScope
  | .beginConnect tabId sessionId | .beginReconnect tabId sessionId =>
    (state.tabs.findTab tabId).map fun tab => ⟨tabId, sessionId, tab.sessionEpoch + 1⟩
  | _ => none

def attempts (history : List AppOp) : List RemoteEventScope := machine.collect begins {} history

/-- A step that begins a newer attempt in a tab, closes it, or ends its connection. -/
def Ends (state : AppState) (tabId : TabId) : AppOp → Prop
  | .beginConnect of _ | .beginReconnect of _ | .closeTab of | .disconnectTab of => of = tabId
  | .onEvent event change => change.ends = true ∧ state.shouldAcceptEvent event = true ∧
      ∃ scope, event.remoteScope = some scope ∧ scope.tabId = tabId
  | .openTab _ _ | .activateTab _ | .present _ | .drainExpiredModals => False

/-- What holds after a history with fresh ids. -/
structure Fit (past : List AppOp) (state : AppState) : Prop where
  nodup : state.tabs.ids.Nodup
  opened : ∀ tabId ∈ state.tabs.ids, tabId ∈ openedTabs past
  begun : ∀ scope ∈ attempts past, scope.sessionId ∈ begunSessions past
  current : ∀ scope, state.tabs.acceptsRemoteEvent scope = true → scope ∈ attempts past

theorem SessionChange.apply_id (change : SessionChange) (sessionId : SessionId) (tab : TabState) :
    (change.apply sessionId tab).id = tab.id := by
  cases change <;> rfl

theorem accepted_updateTab {store : TabStore} (nodup : store.ids.Nodup) {tabId : TabId} {f : TabState → TabState}
    (same : ∀ tab, (f tab).id = tab.id) {scope : RemoteEventScope}
    (accepted : (store.updateTab tabId f).acceptsRemoteEvent scope = true) :
    scope.tabId ≠ tabId ∧ store.acceptsRemoteEvent scope = true ∨
      scope.tabId = tabId ∧ ∃ tab, store.findTab tabId = some tab ∧ (f tab).acceptsRemoteEvent scope = true := by
  obtain ⟨tab, found, accepts⟩ := TabStore.accepts_iff.mp accepted
  rw [TabStore.findTab_updateTab nodup tabId same] at found
  by_cases here : scope.tabId = tabId
  · rw [if_pos here] at found
    obtain ⟨before, was, rfl⟩ := Option.map_eq_some_iff.mp found
    exact .inr ⟨here, before, here ▸ was, accepts⟩
  · rw [if_neg here] at found
    exact .inl ⟨here, TabStore.accepts_iff.mpr ⟨tab, found, accepts⟩⟩

variable {past : List AppOp} {state : AppState}

section Step

variable (fit : Fit past state) {scope : RemoteEventScope}

include fit

theorem accepted_onEvent {event : WindowEvent} {change : SessionChange}
    (accepted : (state.onEvent event change).tabs.acceptsRemoteEvent scope = true) :
    state.tabs.acceptsRemoteEvent scope = true ∧ ¬ Ends state scope.tabId (.onEvent event change) := by
  unfold onEvent at accepted
  by_cases passed : state.shouldAcceptEvent event = true
  · cases source : event.remoteScope with
    | none => exact ⟨by simpa [passed, source] using accepted, by simp [Ends, source]⟩
    | some other =>
      simp only [passed, source, if_true] at accepted
      have current : state.tabs.acceptsRemoteEvent other = true := by simpa [shouldAcceptEvent, source] using passed
      rcases accepted_updateTab fit.nodup (SessionChange.apply_id change other.sessionId) accepted with ⟨apart, before⟩ |
        ⟨here, tab, found, after⟩
      · refine ⟨before, ?_⟩
        rintro ⟨-, -, its, is, same⟩
        cases source.symm.trans is
        exact apart same.symm
      · -- the event is from the session that the tab is in, and so is the connection it leads to
        obtain ⟨tab', found', mine⟩ := TabStore.accepts_iff.mp current
        cases found.symm.trans found'
        obtain ⟨is, epoch, session⟩ := TabState.accepts_iff.mp mine
        obtain ⟨-, -, session'⟩ := TabState.accepts_iff.mp after
        cases change with
        | awaitHostKey requestId =>
          have same : scope = other := by
            cases scope; cases other; simp_all [SessionChange.apply, TabState.awaitHostKey, ConnectionState.session]
          exact ⟨same ▸ current, by simp [Ends, SessionChange.ends]⟩
        | completeConnect connectedAt =>
          have same : scope = other := by
            cases scope; cases other; simp_all [SessionChange.apply, TabState.completeConnect, ConnectionState.session]
          exact ⟨same ▸ current, by simp [Ends, SessionChange.ends]⟩
        | disconnect reason => cases session'
        | fail error => cases session'
  · exact ⟨by simpa [passed] using accepted, by simp [Ends, passed]⟩

theorem accepted_begin {tabId : TabId} {sessionId : SessionId} (f : TabState → TabState) (keeps : ∀ tab, (f tab).id = tab.id)
    (joins : ∀ tab, (f tab).connection.session = some (sessionId, tab.sessionEpoch + 1))
    (accepted : (state.tabs.updateTab tabId f).acceptsRemoteEvent scope = true) :
    state.tabs.acceptsRemoteEvent scope = true ∧ tabId ≠ scope.tabId ∨
      (state.tabs.findTab tabId).map (fun tab => RemoteEventScope.mk tabId sessionId (tab.sessionEpoch + 1)) = some scope := by
  rcases accepted_updateTab fit.nodup keeps accepted with ⟨other, before⟩ | ⟨here, tab, found, after⟩
  · exact .inl ⟨before, fun same => other same.symm⟩
  · right
    obtain ⟨-, -, session⟩ := TabState.accepts_iff.mp after
    obtain ⟨mine, epoch⟩ := Prod.mk.inj (Option.some.inj ((joins tab).symm.trans session))
    rw [found, ← here, mine]
    exact congrArg (fun epoch => some (RemoteEventScope.mk scope.tabId scope.sessionId epoch)) epoch

theorem accepted_next {op : AppOp} (accepted : (state.apply op).1.tabs.acceptsRemoteEvent scope = true) :
    state.tabs.acceptsRemoteEvent scope = true ∧ ¬ Ends state scope.tabId op ∨ begins state op = some scope := by
  cases op with
  | openTab tabId title =>
    refine .inl ⟨?_, id⟩
    obtain ⟨tab, found, accepts⟩ := TabStore.accepts_iff.mp accepted
    change (state.tabs.openTab (.new tabId title)).findTab scope.tabId = some tab at found
    rw [TabStore.findTab_openTab] at found
    cases was : state.tabs.findTab scope.tabId with
    | some before =>
      rw [was] at found
      cases found
      exact TabStore.accepts_iff.mpr ⟨tab, was, accepts⟩
    | none =>
      -- the new tab has no session
      rw [was] at found
      split_ifs at found with same
      · cases found
        cases (TabState.accepts_iff.mp accepts).2.2
      · cases found
  | closeTab tabId =>
    obtain ⟨tab, found, accepts⟩ := TabStore.accepts_iff.mp accepted
    change (state.tabs.closeTab tabId).1.findTab scope.tabId = some tab at found
    rw [TabStore.findTab_closeTab fit.nodup] at found
    split_ifs at found with same
    exact .inl ⟨TabStore.accepts_iff.mpr ⟨tab, found, accepts⟩, fun closed => same closed.symm⟩
  | activateTab tabId =>
    refine .inl ⟨?_, id⟩
    obtain ⟨tab, found, accepts⟩ := TabStore.accepts_iff.mp accepted
    exact TabStore.accepts_iff.mpr ⟨tab, (TabStore.findTab_activateTab state.tabs tabId _).symm.trans found, accepts⟩
  | beginConnect tabId sessionId =>
    exact accepted_begin fit (TabState.beginConnect sessionId) (fun _ => rfl) (fun _ => rfl) accepted
  | beginReconnect tabId sessionId =>
    exact accepted_begin fit (TabState.beginReconnect sessionId) (fun _ => rfl) (fun _ => rfl) accepted
  | onEvent event change => exact .inl (accepted_onEvent fit accepted)
  | disconnectTab tabId =>
    have keeps (tab : TabState) : (tab.disconnect .userRequested).id = tab.id := rfl
    rcases accepted_updateTab fit.nodup keeps accepted with ⟨apart, before⟩ | ⟨-, tab, -, after⟩
    · exact .inl ⟨before, fun same => apart same.symm⟩
    · cases (TabState.accepts_iff.mp after).2.2
  | present request => exact .inl ⟨accepted, id⟩
  | drainExpiredModals => exact .inl ⟨accepted, id⟩

end Step

theorem ids_next (fit : Fit past state) {op : AppOp} (fresh : FreshIds past op) :
    (state.apply op).1.tabs.ids.Nodup ∧ ∀ tabId ∈ (state.apply op).1.tabs.ids, tabId ∈ openedTabs (past ++ [op]) := by
  have older (tabId : TabId) (mem : tabId ∈ state.tabs.ids) : tabId ∈ openedTabs (past ++ [op]) := by
    rw [openedTabs, List.filterMap_append]
    exact List.mem_append_left _ (fit.opened tabId mem)
  have stay {after : TabStore} (same : after.ids = state.tabs.ids) :
      after.ids.Nodup ∧ ∀ tabId ∈ after.ids, tabId ∈ openedTabs (past ++ [op]) := by
    rw [same]
    exact ⟨fit.nodup, older⟩
  cases op with
  | openTab tabId title =>
    change (state.tabs.openTab (.new tabId title)).ids.Nodup ∧ ∀ other ∈ (state.tabs.openTab (.new tabId title)).ids, _
    rw [TabStore.ids_openTab]
    constructor
    · apply List.nodup_append_comm.mp
      exact List.nodup_cons.mpr ⟨fun mem => fresh (fit.opened tabId mem), fit.nodup⟩
    · intro other mem
      rcases List.mem_append.mp mem with old | new
      · exact older other old
      · rw [List.mem_singleton.mp new, openedTabs, List.filterMap_append]
        exact List.mem_append_right _ List.mem_cons_self
  | closeTab tabId =>
    change (state.tabs.closeTab tabId).1.ids.Nodup ∧ ∀ other ∈ (state.tabs.closeTab tabId).1.ids, _
    rw [TabStore.ids_closeTab fit.nodup]
    exact ⟨fit.nodup.filter _, fun other mem => older other (List.mem_of_mem_filter mem)⟩
  | activateTab tabId => exact stay (TabStore.ids_activateTab state.tabs tabId)
  | beginConnect tabId sessionId => exact stay (TabStore.ids_updateTab state.tabs tabId fun _ => rfl)
  | beginReconnect tabId sessionId => exact stay (TabStore.ids_updateTab state.tabs tabId fun _ => rfl)
  | onEvent event change =>
    apply stay
    simp only [apply, onEvent]
    split_ifs
    · cases event.remoteScope with
      | none => rfl
      | some scope => exact TabStore.ids_updateTab state.tabs scope.tabId (SessionChange.apply_id change scope.sessionId)
    · rfl
  | disconnectTab tabId => exact stay (TabStore.ids_updateTab state.tabs tabId fun _ => rfl)
  | present request => exact stay rfl
  | drainExpiredModals => exact stay rfl

theorem begins_fresh (past : List AppOp) {op : AppOp} {scope : RemoteEventScope} (begun : begins state op = some scope) :
    scope.sessionId ∈ begunSessions [op] ∧ (FreshIds past op → scope.sessionId ∉ begunSessions past) := by
  cases op <;> simp only [begins, Option.map_eq_some_iff] at begun
  case beginConnect tabId sessionId =>
    obtain ⟨tab, -, rfl⟩ := begun
    exact ⟨List.mem_cons_self, id⟩
  case beginReconnect tabId sessionId =>
    obtain ⟨tab, -, rfl⟩ := begun
    exact ⟨List.mem_cons_self, id⟩
  all_goals cases begun

theorem accepted_before (fit : Fit past state) {op : AppOp} (fresh : FreshIds past op) {scope : RemoteEventScope}
    (used : scope.sessionId ∈ begunSessions past) (accepted : (state.apply op).1.tabs.acceptsRemoteEvent scope = true) :
    state.tabs.acceptsRemoteEvent scope = true ∧ ¬ Ends state scope.tabId op := by
  rcases accepted_next fit accepted with before | begun
  · exact before
  · exact absurd used ((begins_fresh past begun).2 fresh)

theorem fit_next (fit : Fit past (machine.run {} past)) {op : AppOp} (fresh : FreshIds past op) :
    Fit (past ++ [op]) (machine.run {} (past ++ [op])) := by
  rw [machine.run_concat]
  obtain ⟨nodup, opened⟩ := ids_next fit fresh
  have grown : attempts (past ++ [op]) = attempts past ++ (begins (machine.run {} past) op).toList :=
    machine.collect_concat begins {} past op
  refine ⟨nodup, opened, ?_, ?_⟩
  · intro scope mem
    rw [begunSessions, List.filterMap_append]
    rw [grown] at mem
    rcases List.mem_append.mp mem with old | new
    · exact List.mem_append_left _ (fit.begun scope old)
    · exact List.mem_append_right _ (begins_fresh past (Option.mem_toList.mp new)).1
  · intro scope accepted
    rw [grown]
    rcases accepted_next fit accepted with ⟨before, -⟩ | begun
    · exact List.mem_append_left _ (fit.current scope before)
    · exact List.mem_append_right _ (Option.mem_toList.mpr begun)

theorem fit_run (history : List AppOp) (proper : Proper FreshIds [] history) : Fit history (machine.run {} history) := by
  apply history_induction (I := fun past => Fit past (machine.run {} past)) ?_ ?_ history proper
  · exact ⟨List.nodup_nil, fun tabId mem => absurd mem List.not_mem_nil, fun scope mem => absurd mem List.not_mem_nil,
      fun scope accepted => by cases accepted⟩
  · exact fun past op fresh fit => fit_next fit fresh

theorem rejected_after {past : List AppOp} (fit : Fit past (machine.run {} past)) {op : AppOp} (fresh : FreshIds past op)
    {scope : RemoteEventScope} (old : scope ∈ attempts past) (ends : Ends (machine.run {} past) scope.tabId op) (later : List AppOp)
    (proper : Proper FreshIds (past ++ [op]) later) :
    (machine.run {} (past ++ [op] ++ later)).tabs.acceptsRemoteEvent scope = false := by
  have used := fit.begun scope old
  have start : (machine.run {} (past ++ [op])).tabs.acceptsRemoteEvent scope = false := by
    rw [machine.run_concat]
    exact eq_false_of_ne_true fun accepted => (accepted_before fit fresh used accepted).2 ends
  -- no later step lets it pass again, since its session id is not handed out again
  refine (history_induction_from (I := fun past => Fit past (machine.run {} past) ∧ scope.sessionId ∈ begunSessions past ∧
    (machine.run {} past).tabs.acceptsRemoteEvent scope = false) ?_ ⟨fit_next fit fresh, ?_, start⟩ later proper).2.2
  · rintro past op fresh ⟨fit, used, rejected⟩
    refine ⟨fit_next fit fresh, ?_, ?_⟩
    · rw [begunSessions, List.filterMap_append]
      exact List.mem_append_left _ used
    · rw [machine.run_concat]
      refine eq_false_of_ne_true fun accepted => ?_
      rw [(accepted_before fit fresh used accepted).1] at rejected
      cases rejected
  · rw [begunSessions, List.filterMap_append]
    exact List.mem_append_left _ used

/-- In every run a tab accepts one scope at most, the scope of an attempt that has been made in it. After the tab
has begun a newer attempt, been closed or disconnected or failed, no scope of an earlier attempt is accepted any
more. Draining takes out the modals whose scope is no longer accepted, and no others. -/
theorem stale_events_rejected (history : List AppOp) (proper : Proper FreshIds [] history) :
    (∀ scope other, (machine.run {} history).tabs.acceptsRemoteEvent scope = true →
      (machine.run {} history).tabs.acceptsRemoteEvent other = true → scope.tabId = other.tabId → scope = other) ∧
    (∀ scope, (machine.run {} history).tabs.acceptsRemoteEvent scope = true → scope ∈ attempts history) ∧
    (∀ past op later scope, history = past ++ [op] ++ later → scope ∈ attempts past →
      Ends (machine.run {} past) scope.tabId op → (machine.run {} history).tabs.acceptsRemoteEvent scope = false) ∧
    (∀ request, modalExpired (machine.run {} history).tabs request = true ↔
      ∃ scope, request.scope = some scope ∧ (machine.run {} history).tabs.acceptsRemoteEvent scope = false) ∧
    (machine.run {} history).drainExpiredModals =
      (⟨(machine.run {} history).tabs,
        (machine.run {} history).modals.filter (fun request => !modalExpired (machine.run {} history).tabs request)⟩,
        (machine.run {} history).modals.filter (modalExpired (machine.run {} history).tabs)) := by
  have fit := fit_run history proper
  refine ⟨fun _ _ => accepted_scope_unique, fit.current, ?_, fun _ => modalExpired_iff, ?_⟩
  · rintro past op later scope rfl old ends
    obtain ⟨first, rest⟩ := (proper_append [] (past ++ [op]) later).mp proper
    obtain ⟨before, fresh, -⟩ := (proper_append [] past [op]).mp first
    exact rejected_after (fit_run past before) fresh old ends later rest
  · rw [drainExpiredModals, retainModals_eq, List.nil_append]

/-- A tab that reconnects while a host key prompt of its first attempt is on screen. -/
def reconnected : List AppOp :=
  [.openTab ⟨1⟩ "host", .beginConnect ⟨1⟩ ⟨10⟩,
    .onEvent (.hostKeyUnknown ⟨1, ⟨⟨1⟩, ⟨10⟩, 1⟩, "host", 22, "ssh-ed25519", "key"⟩) (.awaitHostKey 1),
    .present (.hostKey ⟨1, ⟨⟨1⟩, ⟨10⟩, 1⟩, "host", 22, "ssh-ed25519", "key"⟩), .beginReconnect ⟨1⟩ ⟨11⟩]

theorem reconnected_rejects : (machine.run {} reconnected).tabs.acceptsRemoteEvent ⟨⟨1⟩, ⟨10⟩, 1⟩ = false :=
  (stale_events_rejected reconnected (by simp [reconnected, Proper, FreshIds, openedTabs, begunSessions])).2.2.1
    (reconnected.take 4) (.beginReconnect ⟨1⟩ ⟨11⟩) [] ⟨⟨1⟩, ⟨10⟩, 1⟩ rfl (by decide) rfl

end AppState

end MacSftp.Tabs
