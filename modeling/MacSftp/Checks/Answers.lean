import MacSftp.Checks.Steps
import MacSftp.Edit.Awaiting
import Mathlib.Data.List.Dedup

namespace MacSftp.EditChecks

open Lib Tabs

/-- The event ends the check: it carries the answer, says that there will be none, or that the session is over. -/
def RuntimeEvent.Ends (scope : RemoteEventScope) (command : CheckRemoteEditSnapshotCommand) : RuntimeEvent → Prop
  | .remoteEditSnapshotChecked its request _ | .remoteEditSnapshotCheckFailed its request => its = scope ∧
      request = requestOf command
  | .remoteEditSnapshotDispatchFailed failed => failed = command
  | .tabDisconnected its _ => its = scope
  | _ => False

namespace CheckSystem

/-- Where a check of a session may be: on its way to the runtime, with the session's task, or on its way back. -/
def UnderWay (s : CheckSystem) (scope : RemoteEventScope) (command : CheckRemoteEditSnapshotCommand) : Prop :=
  .checkRemoteEditSnapshot command ∈ s.commands ∨
    (∃ actor ∈ s.actors, actor.scope = scope ∧ requestOf command ∈ actor.mailbox) ∨
    ∃ event ∈ s.events, event.Ends scope command

/-- The check belongs to the session that its tab is connected in. -/
def Current (s : CheckSystem) (scope : RemoteEventScope) (command : CheckRemoteEditSnapshotCommand) : Prop :=
  scope.tabId = command.tabId ∧ scope.sessionEpoch = command.sessionEpoch ∧ ∃ tab ∈ s.tabs, tab.Connected scope

def Answered (s : CheckSystem) : Prop :=
  ∀ session ∈ s.edits.store.sessions, ∀ command, session.awaits = some command →
    ∃ scope, s.Current scope command ∧ s.UnderWay scope command

variable {s t : CheckSystem}

theorem UnderWay.mono {scope : RemoteEventScope} {command : CheckRemoteEditSnapshotCommand}
    (commands : .checkRemoteEditSnapshot command ∈ s.commands → .checkRemoteEditSnapshot command ∈ t.commands)
    (actors : ∀ actor ∈ s.actors, actor.scope = scope → requestOf command ∈ actor.mailbox →
      ∃ actor ∈ t.actors, actor.scope = scope ∧ requestOf command ∈ actor.mailbox)
    (events : ∀ event ∈ s.events, event.Ends scope command → ∃ event ∈ t.events, event.Ends scope command)
    (h : s.UnderWay scope command) : t.UnderWay scope command := by
  rcases h with queued | ⟨actor, ha, its, waits⟩ | ⟨event, he, ends⟩
  · exact .inl (commands queued)
  · exact .inr (.inl (actors actor ha its waits))
  · exact .inr (.inr (events event he ends))

theorem UnderWay.post {scope : RemoteEventScope} {command : CheckRemoteEditSnapshotCommand} (h : s.UnderWay scope command)
    (other : RuntimeCommand) : (s.post other).UnderWay scope command :=
  h.mono (fun queued => List.mem_append_left _ queued) (fun actor ha its waits => ⟨actor, ha, its, waits⟩)
    fun event he ends => ⟨event, he, ends⟩

theorem UnderWay.emit {scope : RemoteEventScope} {command : CheckRemoteEditSnapshotCommand} (h : s.UnderWay scope command)
    (events : List RuntimeEvent) : (s.emit events).UnderWay scope command := by
  rcases h with queued | held | ⟨event, he, ends⟩
  · exact .inl queued
  · exact .inr (.inl held)
  · exact .inr (.inr ⟨event, List.mem_append_left _ he, ends⟩)

theorem Answered.interface (h : s.Answered) (awaits : ∀ session ∈ t.edits.store.sessions, ∀ command, session.awaits = some command →
      (∃ before ∈ s.edits.store.sessions, before.awaits = some command) ∧
        ∀ tab ∈ s.tabs, tab.id = command.tabId → ∀ scope, tab.Connected scope → ∃ tab ∈ t.tabs, tab.Connected scope)
    (underWay : ∀ scope command, s.UnderWay scope command → t.UnderWay scope command) : t.Answered := by
  intro session hs command waits
  obtain ⟨⟨before, hb, waited⟩, stays⟩ := awaits session hs command waits
  obtain ⟨scope, ⟨same, epoch, tab, ht, connected⟩, under⟩ := h before hb command waited
  exact ⟨scope, ⟨same, epoch, stays tab ht (connected.1.trans same) scope connected⟩, underWay scope command under⟩

theorem Answered.edits (h : s.Answered) {op : EditOp} (valid : s.edits.store.Valid) (other : op.isRequest = false) :
    (s.applyEdit op).Answered :=
  h.interface (fun session hs command waits => ⟨RemoteEditLifecycle.apply_awaits valid.ids other session hs command waits,
    fun held ht _ _ connected => ⟨held, ht, connected⟩⟩) fun _ _ under => under

theorem updateTab_connected (linked : s.Linked) {tabId : TabId} {f : EditTab → EditTab} {tab : EditTab} (ht : tab ∈ s.tabs)
    {scope : RemoteEventScope} (connected : tab.Connected scope) (stays : tab.id = tabId → (f tab).Connected scope) :
    ∃ tab ∈ (s.updateTab tabId f).tabs, tab.Connected scope := by
  have image := (mem_updateKey EditTab.id tabId f linked.tabIds (y := if tab.id = tabId then f tab else tab)).mpr ⟨tab, ht, rfl⟩
  refine ⟨_, image, ?_⟩
  split
  · exact stays ‹_›
  · exact connected

theorem Answered.updateTab (h : s.Answered) (linked : s.Linked) {tabId : TabId} {f : EditTab → EditTab}
    (stays : ∀ tab ∈ s.tabs, tab.id = tabId → ∀ scope, tab.Connected scope → (f tab).Connected scope) :
    (s.updateTab tabId f).Answered :=
  h.interface (fun session hs _ waits => ⟨⟨session, hs, waits⟩, fun tab ht _ scope connected =>
    updateTab_connected linked ht connected fun here => stays tab ht here scope connected⟩) fun _ _ under => under

theorem resumeConnecting_connected {tab : EditTab} {scope : RemoteEventScope} (connected : tab.Connected scope) (requestId : Nat) :
    (tab.map (resumeConnecting requestId)).Connected scope := by
  obtain ⟨same, since, is⟩ := connected
  refine ⟨(map_id (resumeConnecting_id requestId) tab).trans same, since, ?_⟩
  simp [EditTab.map, resumeConnecting, is]

theorem declineHostKey_connected {tab : EditTab} {scope : RemoteEventScope} (connected : tab.Connected scope) (requestId : Nat) :
    (tab.map (declineHostKey requestId)).Connected scope := by
  obtain ⟨same, since, is⟩ := connected
  refine ⟨(map_id (declineHostKey_id requestId) tab).trans same, since, ?_⟩
  simp [EditTab.map, declineHostKey, is]

section Interface

variable (h : s.Answered) (linked : s.Linked) (valid : s.edits.store.Valid)

include h

theorem Answered.openTab (title : String) : (s.openTab title).Answered :=
  h.interface (fun session hs _ waits => ⟨⟨session, hs, waits⟩, fun tab ht _ _ connected =>
    ⟨tab, List.mem_append_left _ ht, connected⟩⟩) fun _ _ under => under

theorem Answered.closeTab (tabId : TabId) (sent : Bool) : (s.closeTab tabId sent).Answered := by
  unfold CheckSystem.closeTab
  cases s.findTab tabId with
  | none => exact h
  | some _ =>
    have without : ((s.closeTabs (· = tabId)).applyEdit (.removeForTab tabId)).Answered := by
      refine h.interface (fun session hs command waits => ?_) fun _ _ under => under
      obtain ⟨old, other⟩ := List.mem_filter.mp hs
      refine ⟨⟨session, old, waits⟩, fun tab ht same scope connected => ⟨tab, List.mem_filter.mpr ⟨ht, ?_⟩, connected⟩⟩
      rw [same, (EditSession.awaits_tab waits).1]
      simpa using other
    dsimp only
    split
    · exact without.interface (fun session hs _ waits => ⟨⟨session, hs, waits⟩, fun tab ht _ _ connected =>
        ⟨tab, ht, connected⟩⟩) fun _ _ under => under.post _
    · exact without.interface (fun session hs _ waits => ⟨⟨session, hs, waits⟩, fun tab ht _ _ connected =>
        ⟨tab, ht, connected⟩⟩) fun _ _ under => under

omit h in
theorem removeForTabs_sessions (tabIds : List TabId) {session : EditSession}
    (hs : session ∈ (tabIds.foldl (fun s tabId => s.applyEdit (.removeForTab tabId)) s).edits.store.sessions) :
    session ∈ s.edits.store.sessions ∧ session.tabId ∉ tabIds := by
  induction tabIds generalizing s with
  | nil => exact ⟨hs, List.not_mem_nil⟩
  | cons tabId tabIds ih =>
    obtain ⟨kept, later⟩ := ih hs
    obtain ⟨old, other⟩ := List.mem_filter.mp kept
    exact ⟨old, List.not_mem_cons_of_ne_of_not_mem (of_decide_eq_true other) later⟩

omit h in
theorem removeForTabs_rest (tabIds : List TabId) :
    let t := tabIds.foldl (fun s tabId => s.applyEdit (.removeForTab tabId)) s
    t.tabs = s.tabs ∧ t.commands = s.commands ∧ t.actors = s.actors ∧ t.events = s.events := by
  induction tabIds generalizing s with
  | nil => exact ⟨rfl, rfl, rfl, rfl⟩
  | cons tabId tabIds ih => exact ih (s := s.applyEdit (.removeForTab tabId))

omit h in
theorem swept_sessions {session : EditSession} (hs : session ∈ s.cleanupOrphanedEditSessions.edits.store.sessions) :
    session ∈ s.edits.store.sessions ∧ ∃ tab ∈ s.tabs, tab.id = session.tabId := by
  obtain ⟨old, kept⟩ := removeForTabs_sessions _ hs
  refine ⟨old, ?_⟩
  by_contra none_
  apply kept
  refine List.mem_filter.mpr ⟨List.mem_dedup.mpr (List.mem_map_of_mem old), ?_⟩
  have absent : s.findTab session.tabId = none := by
    rw [findTab, findKey_eq_none]
    exact fun tab ht same => none_ ⟨tab, ht, same⟩
  simp [absent]

include linked in
theorem Answered.closeWindow (tabIds : List TabId) : (s.closeWindow tabIds).Answered := by
  unfold CheckSystem.closeWindow
  dsimp only
  obtain ⟨tabs, commands, actors, events⟩ := removeForTabs_rest
    (s := (s.closeTabs (· ∈ tabIds.filter (·.raw < s.nextTabId))).park
      (.closeTabs (tabIds.filter (·.raw < s.nextTabId)))) _
  refine h.interface (fun session hs command waits => ?_) fun scope command under => ?_
  · obtain ⟨old, tab, ht, mine⟩ := swept_sessions hs
    refine ⟨⟨session, old, waits⟩, fun other ho same scope connected => ?_⟩
    -- the tab that is left is the one that the check is for
    have is : other = tab := linked.tab_unique ho (List.mem_of_mem_filter ht)
      (same.trans ((EditSession.awaits_tab waits).1.trans mine.symm))
    subst is
    refine ⟨other, ?_, connected⟩
    rw [cleanupOrphanedEditSessions, tabs]
    exact ht
  · refine under.mono ?_ ?_ ?_
    · intro queued
      rw [cleanupOrphanedEditSessions, commands]
      exact queued
    · intro actor ha its waits
      rw [cleanupOrphanedEditSessions, actors]
      exact ⟨actor, ha, its, waits⟩
    · intro event he ends
      rw [cleanupOrphanedEditSessions, events]
      exact ⟨event, he, ends⟩

include linked in
theorem Answered.connectWith (tabId : TabId) (connectionKey : ConnectionKey) (sent : Bool) :
    (s.connectWith tabId connectionKey sent).Answered := by
  unfold CheckSystem.connectWith
  cases s.findTab tabId with
  | none => exact h
  | some tab =>
    dsimp only
    split
    · exact h
    · split
      · -- every session of the tab has stopped waiting
        refine h.interface (fun session hs command waits => ?_) fun scope command under => under.post _
        obtain ⟨old, other⟩ := EditSessionStore.updateEpochForTab_awaits s.edits.store tabId _ session hs command waits
        refine ⟨⟨session, old, waits⟩, fun held ht same scope connected => ?_⟩
        exact updateTab_connected linked ht connected fun is => absurd (same.symm.trans is) other
      · exact h

include linked in
theorem Answered.acceptHostKey (tabId : TabId) (requestId : Nat) (sent : Bool) :
    (s.acceptHostKey tabId requestId sent).Answered := by
  unfold CheckSystem.acceptHostKey
  split
  · exact h.updateTab linked fun tab _ _ scope connected => resumeConnecting_connected connected requestId
  · exact h

include linked in
theorem Answered.rejectHostKey (tabId : TabId) (requestId : Nat) (sent : Bool) :
    (s.rejectHostKey tabId requestId sent).Answered := by
  unfold CheckSystem.rejectHostKey
  split
  · exact h.updateTab linked fun tab _ _ scope connected => declineHostKey_connected connected requestId
  · exact h

include linked in
theorem Answered.cancelling {tab : EditTab} {tabId : TabId} (found : s.findTab tabId = some tab)
    (unconnected : isReconnect tab.state.connection = false) :
    ((s.post (.disconnectTab tabId)).updateTab tabId (EditTab.map (Tabs.TabState.disconnect .userRequested))).Answered := by
  obtain ⟨ht, mine⟩ := findTab_mem found
  have out : (s.updateTab tabId (EditTab.map (Tabs.TabState.disconnect .userRequested))).Answered := by
    refine h.updateTab linked fun other ho same scope connected => ?_
    rw [linked.tab_unique ho ht (same.trans mine.symm)] at connected
    obtain ⟨-, since, is⟩ := connected
    rw [is] at unconnected
    cases unconnected
  exact out.interface (fun session hs _ waits => ⟨⟨session, hs, waits⟩, fun tab ht _ _ connected =>
    ⟨tab, ht, connected⟩⟩) fun _ _ under => under.post _

include linked in
theorem Answered.cancelConnect (tabId : TabId) (sent : Bool) : (s.cancelConnect tabId sent).Answered := by
  unfold CheckSystem.cancelConnect
  split
  · exact h
  rename_i tab found
  split
  · exact h.rejectHostKey linked tabId _ sent
  · rename_i connection
    split
    · exact h.cancelling linked found (by rw [connection]; rfl)
    · exact h
  · rename_i connection
    split
    · exact h.cancelling linked found (by rw [connection]; rfl)
    · exact h
  · exact h

end Interface

theorem connected_scope {tab : EditTab} {scope other : RemoteEventScope} (connected : tab.Connected scope)
    (inSession : tab.InSession other) :
    scope = other := by
  obtain ⟨same, session⟩ := connected.inSession
  obtain ⟨sessionId, epoch⟩ := Prod.mk.inj (Option.some.inj (session.symm.trans inSession.2))
  cases scope
  cases other
  simp_all [EditTab.InSession]

theorem connectedEditSession_scope {tab : EditTab} {epoch : Nat} {key : ConnectionKey}
    (found : connectedEditSession tab = some (epoch, key)) :
    ∃ sessionId, tab.Connected ⟨tab.id, sessionId, epoch⟩ := by
  unfold connectedEditSession at found
  split at found
  · rename_i sessionId its since _ connection _
    cases found
    exact ⟨sessionId, rfl, since, connection⟩
  · cases found

section Upload

variable (h : s.Answered) (valid : s.edits.store.Valid)

include h valid

theorem Answered.uploadSelectedEdit (id : EditSessionId) (localMtime : Option Timestamp) (sent : Bool) :
    (s.uploadSelectedEdit id localMtime sent).Answered := by
  unfold CheckSystem.uploadSelectedEdit
  split
  · exact h
  rename_i session stored
  split
  · exact h
  split
  · rename_i epoch key mtime connected
    obtain ⟨tab, found, its⟩ := Option.bind_eq_some_iff.mp connected
    obtain ⟨ht, mine⟩ := findTab_mem found
    obtain ⟨sessionId, is⟩ := connectedEditSession_scope its
    have old : ∀ after ∈ s.edits.store.sessions, ∀ command, after.awaits = some command →
        ∃ scope, s.Current scope command ∧ s.UnderWay scope command := h
    have waiting : ∀ after ∈ (s.edits.requestUpload id epoch key mtime).1.store.sessions, ∀ command,
      after.awaits = some command → _ :=
      RemoteEditLifecycle.requestUpload_awaits valid.ids
    dsimp only
    cases request : (s.edits.requestUpload id epoch key mtime).2 with
    | rejected notice =>
      intro after ha command waits
      rcases waiting after ha command waits with stays | ⟨issued, -⟩
      · exact old after stays command waits
      · cases request.symm.trans issued
    | check issue =>
      dsimp only
      split
      · intro after ha command waits
        rcases waiting after ha command waits with stays | ⟨issued, -, itsEpoch, target, htgt, itsId, itsTab⟩
        · obtain ⟨scope, current, under⟩ := old after stays command waits
          exact ⟨scope, current, under.post _⟩
        · cases request.symm.trans issued
          obtain ⟨hs, same⟩ := EditSessionStore.get_mem stored
          have is' : target = session := key_unique EditSession.id valid.ids htgt hs (itsId.trans same.symm)
          refine ⟨⟨tab.id, sessionId, epoch⟩, ⟨?_, itsEpoch.symm, tab, ht, is⟩, .inl (List.mem_append_right _ List.mem_cons_self)⟩
          rw [mine, itsTab, is']
      · -- what could not be sent is taken back
        intro after ha command waits
        have nodup := (RemoteEditLifecycle.apply_valid valid (.requestUpload id epoch key mtime)).ids
        obtain ⟨before, hb, rfl⟩ := (mem_updateKey EditSession.id id EditSession.reverted nodup).mp ha
        split at waits
        · rw [EditSession.awaits_none (by simp [EditSession.reverted])] at waits
          cases waits
        · rename_i other
          rcases waiting before hb command waits with stays | ⟨-, itsId, -⟩
          · exact old before stays command waits
          · exact absurd ((EditSession.awaits_tab waits).2.2.1.symm.trans itsId) other
  · exact h

end Upload

section Events

theorem handleWindowEvent_rest (s : CheckSystem) (scope : RemoteEventScope) (f : Tabs.TabState → Tabs.TabState) :
    (s.handleWindowEvent scope f).commands = s.commands ∧ (s.handleWindowEvent scope f).actors = s.actors ∧
      (s.handleWindowEvent scope f).events = s.events ∧ (s.handleWindowEvent scope f).edits = s.edits := by
  unfold CheckSystem.handleWindowEvent
  split <;> exact ⟨rfl, rfl, rfl, rfl⟩

theorem applyRemoteEditCheckEvent_rest (s : CheckSystem) (scope : Option RemoteEventScope) (result : EditCheckResult)
    (localMtime : Option Timestamp) :
    (s.applyRemoteEditCheckEvent scope result localMtime).commands = s.commands ∧
      (s.applyRemoteEditCheckEvent scope result localMtime).actors = s.actors ∧
        (s.applyRemoteEditCheckEvent scope result localMtime).events = s.events ∧
          (s.applyRemoteEditCheckEvent scope result localMtime).tabs = s.tabs := by
  unfold CheckSystem.applyRemoteEditCheckEvent
  split
  · exact ⟨rfl, rfl, rfl, rfl⟩
  · split <;> exact ⟨rfl, rfl, rfl, rfl⟩

theorem handleEvent_rest (localMtime : Option Timestamp) (now : Timestamp) (event : RuntimeEvent) :
    (s.handleEvent localMtime now event).commands = s.commands ∧ (s.handleEvent localMtime now event).actors = s.actors ∧
      (s.handleEvent localMtime now event).events = s.events := by
  have window : ∀ scope f, (s.handleWindowEvent scope f).commands = s.commands ∧ (s.handleWindowEvent scope f).actors = s.actors ∧
      (s.handleWindowEvent scope f).events = s.events := fun scope f =>
    let ⟨commands, actors, events, _⟩ := handleWindowEvent_rest s scope f
    ⟨commands, actors, events⟩
  have check : ∀ scope result, (s.applyRemoteEditCheckEvent scope result localMtime).commands = s.commands ∧
      (s.applyRemoteEditCheckEvent scope result localMtime).actors = s.actors ∧
        (s.applyRemoteEditCheckEvent scope result localMtime).events = s.events := fun scope result =>
    let ⟨commands, actors, events, _⟩ := applyRemoteEditCheckEvent_rest s scope result localMtime
    ⟨commands, actors, events⟩
  cases event with
  | hostKeyUnknown | hostKeyMismatch | authFailed | tabConnected => exact window _ _
  | tabDisconnected scope reason =>
    dsimp only [handleEvent]
    split
    · exact window _ _
    · exact ⟨rfl, rfl, rfl⟩
  | remoteEditSnapshotChecked | remoteEditSnapshotCheckFailed | remoteEditSnapshotDispatchFailed => exact check _ _

theorem Answered.handled (h : s.Answered) {event : RuntimeEvent} {events : List RuntimeEvent} (queue : s.events = event :: events)
    (commands : t.commands = s.commands) (actors : t.actors = s.actors) (rest : t.events = events)
    (awaits : ∀ session ∈ t.edits.store.sessions, ∀ command, session.awaits = some command →
      (∃ before ∈ s.edits.store.sessions, before.awaits = some command) ∧
        ∀ tab ∈ s.tabs, tab.id = command.tabId → ∀ scope, tab.Connected scope →
          (∃ tab ∈ t.tabs, tab.Connected scope) ∧ (scope.sessionEpoch = command.sessionEpoch →
            ¬ event.Ends scope command)) : t.Answered := by
  intro session hs command waits
  obtain ⟨⟨before, hb, waited⟩, stays⟩ := awaits session hs command waits
  obtain ⟨scope, ⟨same, epoch, tab, ht, connected⟩, under⟩ := h before hb command waited
  obtain ⟨still, unended⟩ := stays tab ht (connected.1.trans same) scope connected
  refine ⟨scope, ⟨same, epoch, still⟩, ?_⟩
  rcases under with queued | ⟨actor, ha, its, waits⟩ | ⟨other, he, ends⟩
  · exact .inl (commands ▸ queued)
  · exact .inr (.inl ⟨actor, actors ▸ ha, its, waits⟩)
  · rw [queue] at he
    rcases List.mem_cons.mp he with rfl | later
    · exact absurd ends (unended epoch)
    · exact .inr (.inr ⟨other, rest ▸ later, ends⟩)

section Linked

variable (h : s.Answered) (linked : s.Linked) (valid : s.edits.store.Valid)

include h linked

theorem Answered.keptByEvent {event : RuntimeEvent} {events : List RuntimeEvent} (queue : s.events = event :: events)
    {scope : RemoteEventScope} {f : Tabs.TabState → Tabs.TabState} (plain : ∀ its command, ¬ event.Ends its command)
    (stays : ∀ tab ∈ s.tabs, tab.Connected scope → tab.state.sessionEpoch = scope.sessionEpoch → (tab.map f).Connected scope) :
    ({ s with events := events }.handleWindowEvent scope f).Answered := by
  obtain ⟨commands, actors, rest, edits⟩ := handleWindowEvent_rest { s with events := events } scope f
  refine h.handled queue commands actors rest fun session hs command waits => ?_
  rw [edits] at hs
  refine ⟨⟨session, hs, waits⟩, fun tab ht same its connected => ⟨?_, fun _ => plain its command⟩⟩
  rw [handleWindowEvent_popped]
  unfold CheckSystem.handleWindowEvent
  split
  · rename_i accepts
    obtain ⟨owner, ho, inSession, epoch⟩ := accepted_tab accepts
    refine updateTab_connected linked ht connected fun here => ?_
    have is : tab = owner := linked.tab_unique ht ho (here.trans inSession.1.symm)
    subst is
    cases connected_scope connected inSession
    exact stays tab ht connected epoch
  · exact ⟨tab, ht, connected⟩

include valid

theorem Answered.answered {event : RuntimeEvent} {events : List RuntimeEvent} (queue : s.events = event :: events)
    (scope : Option RemoteEventScope) (command : CheckRemoteEditSnapshotCommand) (outcome : EditCheckOutcome)
    (localMtime : Option Timestamp)
    (result : EditCheckResult)
    (fits : result = ⟨command.tabId, command.sessionEpoch, command.editSessionId, command.checkId, command.path, outcome⟩)
    (only : ∀ its other, event.Ends its other → its.tabId = other.tabId → its.sessionEpoch = other.sessionEpoch →
      other = command ∧ ∀ guarded, scope = some guarded → guarded = its) :
    ({ s with events := events }.applyRemoteEditCheckEvent scope result localMtime).Answered := by
  obtain ⟨commands, actors, rest, tabs⟩ := applyRemoteEditCheckEvent_rest { s with events := events } scope result localMtime
  refine h.handled queue commands actors rest fun session hs other waits => ?_
  have before : ∃ before ∈ s.edits.store.sessions, before.awaits = some other := by
    unfold CheckSystem.applyRemoteEditCheckEvent at hs
    split at hs
    · exact ⟨session, hs, waits⟩
    · split at hs
      · exact ⟨session, hs, waits⟩
      · exact RemoteEditLifecycle.onCheckResult_awaits valid.ids result localMtime session hs other waits
  refine ⟨before, fun tab ht same its connected => ⟨⟨tab, by rw [tabs]; exact ht, connected⟩, fun epoch ends => ?_⟩⟩
  obtain ⟨rfl, guard⟩ := only its other ends (connected.1.symm.trans same) epoch
  have passes : ¬ scope.any (fun scope => !{ s with events := events }.acceptsRemoteScope scope) = true := by
    cases scope with
    | none => simp
    | some guarded =>
      rw [guard guarded rfl]
      have accepts : { s with events := events }.acceptsRemoteScope its = true := linked.accepts ht connected.inSession
      simp [accepts]
  obtain ⟨waiting, hw, waited⟩ := before
  obtain ⟨-, -, id, -⟩ := EditSession.awaits_tab waited
  have found : s.edits.store.get result.sessionId = some waiting := by
    rw [fits]
    exact (findKey_iff EditSession.id valid.ids).mpr ⟨hw, id.symm⟩
  rw [CheckSystem.applyRemoteEditCheckEvent, if_neg passes] at hs
  dsimp only at hs
  rw [found] at hs
  subst fits
  exact RemoteEditLifecycle.onCheckResult_answers valid.ids hw (valid.checks waiting hw) waited outcome localMtime session hs waits

theorem Answered.onEvent (localMtime : Option Timestamp) (now : Timestamp) : (s.onEvent localMtime now).Answered := by
  unfold CheckSystem.onEvent
  cases queue : s.events with
  | nil => exact h
  | cons event events =>
    have mem : event ∈ s.events := queue ▸ List.mem_cons_self
    cases event with
    | hostKeyUnknown scope requestId =>
      refine h.keptByEvent linked queue (fun _ _ => id) fun tab ht connected _ => ?_
      exact absurd rfl ((linked.tabs tab ht).unprompted scope connected _ mem)
    | hostKeyMismatch scope error =>
      refine h.keptByEvent linked queue (fun _ _ => id) fun tab ht connected _ => ?_
      obtain ⟨actor, ha, its, served⟩ := (linked.tabs tab ht).joined scope connected
      simp [linked.phase_of (linked.ended _ mem scope rfl) ha its, ActorPhase.served] at served
    | authFailed scope reason =>
      refine h.keptByEvent linked queue (fun _ _ => id) fun tab ht connected _ => ?_
      obtain ⟨actor, ha, its, served⟩ := (linked.tabs tab ht).joined scope connected
      simp [linked.phase_of (linked.ended _ mem scope rfl) ha its, ActorPhase.served] at served
    | tabConnected scope =>
      refine h.keptByEvent linked queue (fun _ _ => id) fun tab ht connected epoch => ?_
      refine ⟨connected.1, now, ?_⟩
      rw [← epoch]
      rfl
    | tabDisconnected scope reason =>
      obtain ⟨commands, actors, rest⟩ :=
        handleEvent_rest (s := { s with events := events }) localMtime now (.tabDisconnected scope reason)
      refine h.handled queue commands actors rest ?_
      dsimp only [handleEvent]
      split
      · -- the tab's sessions have stopped waiting
        intro session hs command waits
        change session ∈ (({ s with events := events }.handleWindowEvent scope _).edits.store.updateEpochForTab _ _).sessions at hs
        rw [(handleWindowEvent_rest { s with events := events } scope (Tabs.TabState.disconnect reason)).2.2.2] at hs
        obtain ⟨old, other⟩ := EditSessionStore.updateEpochForTab_awaits s.edits.store scope.tabId _ session hs command waits
        refine ⟨⟨session, old, waits⟩, fun tab ht same its connected => ⟨?_, fun _ ends => ?_⟩⟩
        · change ∃ tab ∈ ({ s with events := events }.handleWindowEvent scope (Tabs.TabState.disconnect reason)).tabs,
            tab.Connected its
          rw [handleWindowEvent_popped]
          unfold CheckSystem.handleWindowEvent
          split
          · exact updateTab_connected linked ht connected fun is => absurd (same.symm.trans is) other
          · exact ⟨tab, ht, connected⟩
        · cases ends
          exact other (same.symm.trans connected.1)
      · rename_i refused
        intro session hs command waits
        refine ⟨⟨session, hs, waits⟩, fun tab ht _ its connected => ⟨⟨tab, ht, connected⟩, fun _ ends => ?_⟩⟩
        cases ends
        exact refused (linked.accepts ht connected.inSession)
    | remoteEditSnapshotChecked scope request snapshot =>
      refine h.answered linked valid queue (some scope) ⟨scope.tabId, scope.sessionEpoch, request.editSessionId,
        request.checkId, request.path⟩
        (.matched snapshot) localMtime _ rfl ?_
      rintro its other ⟨rfl, rfl⟩ tab epoch
      refine ⟨?_, fun guarded is => (Option.some.inj is).symm⟩
      cases other
      simp_all [requestOf]
    | remoteEditSnapshotCheckFailed scope request =>
      refine h.answered linked valid queue (some scope) ⟨scope.tabId, scope.sessionEpoch, request.editSessionId,
        request.checkId, request.path⟩
        .failed localMtime _ rfl ?_
      rintro its other ⟨rfl, rfl⟩ tab epoch
      refine ⟨?_, fun guarded is => (Option.some.inj is).symm⟩
      cases other
      simp_all [requestOf]
    | remoteEditSnapshotDispatchFailed command =>
      refine h.answered linked valid queue none command .failed localMtime _ rfl ?_
      rintro its other ends - -
      refine ⟨ends.symm, fun guarded is => ?_⟩
      cases is

end Linked

end Events

section Runtime

theorem Answered.runtime (h : s.Answered) (edits : t.edits = s.edits) (tabs : t.tabs = s.tabs)
    (moves : ∀ scope command, s.Current scope command → s.UnderWay scope command → t.UnderWay scope command) : t.Answered := by
  intro session hs command waits
  obtain ⟨scope, current, under⟩ := h session (edits ▸ hs) command waits
  refine ⟨scope, ?_, moves scope command current under⟩
  obtain ⟨same, epoch, tab, ht, connected⟩ := current
  exact ⟨same, epoch, tab, tabs ▸ ht, connected⟩

theorem shutdownSession_rest (s : CheckSystem) (tabId : TabId) :
    (s.shutdownSession tabId).tabs = s.tabs ∧ (s.shutdownSession tabId).edits = s.edits ∧
      (s.shutdownSession tabId).events = s.events := by
  unfold CheckSystem.shutdownSession
  cases s.sessions tabId <;> exact ⟨rfl, rfl, rfl⟩

theorem updateKey_exists {α κ : Type} [DecidableEq κ] {key : α → κ} {k : κ} {f : α → α} {P : α → Prop} (keeps : ∀ x, P x → P (f x))
    {xs : List α} (h : ∃ x ∈ xs, P x) : ∃ x ∈ updateKey key k f xs, P x := by
  induction xs with
  | nil =>
    obtain ⟨x, mem, -⟩ := h
    cases mem
  | cons y ys ih =>
    obtain ⟨x, mem, holds⟩ := h
    by_cases hy : key y = k
    · rw [updateKey, List.lookmap_cons_some _ ys (if_pos hy)]
      rcases List.mem_cons.mp mem with rfl | later
      · exact ⟨f x, List.mem_cons_self, keeps x holds⟩
      · exact ⟨x, List.mem_cons_of_mem _ later, holds⟩
    · have hn : (fun x => if key x = k then some (f x) else none) y = none := if_neg hy
      rw [updateKey, List.lookmap_cons_none _ ys hn]
      rcases List.mem_cons.mp mem with rfl | later
      · exact ⟨x, List.mem_cons_self, holds⟩
      · obtain ⟨z, hz, its⟩ := ih ⟨x, later, holds⟩
        exact ⟨z, List.mem_cons_of_mem _ hz, its⟩

theorem UnderWay.shutdownSession {scope : RemoteEventScope} {command : CheckRemoteEditSnapshotCommand}
    (h : s.UnderWay scope command)
    (tabId : TabId) : (s.shutdownSession tabId).UnderWay scope command := by
  unfold CheckSystem.shutdownSession
  cases s.sessions tabId with
  | none => exact h
  | some session =>
    rcases h with queued | held | ended
    · exact .inl queued
    · refine .inr (.inl (updateKey_exists ?_ held))
      exact fun _ its => its
    · exact .inr (.inr ended)

theorem UnderWay.connectTab {scope : RemoteEventScope} {command : CheckRemoteEditSnapshotCommand} (h : s.UnderWay scope command)
    (begun : RemoteEventScope) : (s.connectTab begun).UnderWay scope command := by
  rcases h.shutdownSession begun.tabId with queued | ⟨actor, ha, its⟩ | ended
  · exact .inl queued
  · exact .inr (.inl ⟨actor, List.mem_append_left _ ha, its⟩)
  · exact .inr (.inr ended)

theorem UnderWay.shutdownAll {scope : RemoteEventScope} {command : CheckRemoteEditSnapshotCommand} (h : s.UnderWay scope command)
    (tabIds : List TabId) : (tabIds.foldl CheckSystem.shutdownSession s).UnderWay scope command := by
  induction tabIds generalizing s with
  | nil => exact h
  | cons tabId tabIds ih => exact ih (h.shutdownSession tabId)

theorem shutdownAll_rest (s : CheckSystem) (tabIds : List TabId) :
    (tabIds.foldl CheckSystem.shutdownSession s).tabs = s.tabs ∧ (tabIds.foldl CheckSystem.shutdownSession s).edits = s.edits := by
  induction tabIds generalizing s with
  | nil => exact ⟨rfl, rfl⟩
  | cons tabId tabIds ih =>
    obtain ⟨tabs, edits⟩ := ih (s.shutdownSession tabId)
    obtain ⟨tabs', edits', -⟩ := shutdownSession_rest s tabId
    exact ⟨tabs.trans tabs', edits.trans edits'⟩

theorem routeCheck_rest (s : CheckSystem) (command : CheckRemoteEditSnapshotCommand) (mailboxFull : Bool) :
    (s.routeCheckRemoteEditSnapshot command mailboxFull).tabs = s.tabs ∧
      (s.routeCheckRemoteEditSnapshot command mailboxFull).edits = s.edits := by
  unfold routeCheckRemoteEditSnapshot
  dsimp only
  split
  · exact ⟨rfl, rfl⟩
  split
  · exact ⟨rfl, rfl⟩
  split
  · exact ⟨rfl, rfl⟩
  · split <;> exact ⟨rfl, rfl⟩

theorem Linked.routed (linked : s.Linked) {scope : RemoteEventScope} {command : CheckRemoteEditSnapshotCommand}
    (current : s.Current scope command) (mailboxFull : Bool) :
    (s.routeCheckRemoteEditSnapshot command mailboxFull).UnderWay scope command := by
  have failed : (s.emit [.remoteEditSnapshotDispatchFailed command]).UnderWay scope command :=
    .inr (.inr ⟨_, List.mem_append_right _ List.mem_cons_self, rfl⟩)
  obtain ⟨same, epoch, tab, ht, connected⟩ := current
  obtain ⟨handle, -, actor, ha, its, -⟩ := linked.connected_handle ht connected
  unfold routeCheckRemoteEditSnapshot
  dsimp only
  rw [← same, handle]
  dsimp only
  split
  · exact failed
  split
  · exact failed
  · rename_i found routed
    obtain ⟨hf, named⟩ := findKey_mem RemoteSessionActor.sessionId routed
    have is : found = actor := linked.actor_unique hf ha (named.trans (congrArg RemoteEventScope.sessionId its).symm)
    subst is
    split
    · rw [← named]
      rcases linked.updateActor_mem (fun actor => { actor with mailbox := actor.mailbox ++ [requestOf command] }) ha ha with
        ⟨-, never⟩ | ⟨-, moved⟩
      · exact absurd rfl never
      · exact .inr (.inl ⟨_, moved, its, List.mem_append_right _ List.mem_cons_self⟩)
    · exact failed

theorem UnderWay.route {scope : RemoteEventScope} {command : CheckRemoteEditSnapshotCommand} (h : s.UnderWay scope command)
    (other : CheckRemoteEditSnapshotCommand) (mailboxFull : Bool) :
    (s.routeCheckRemoteEditSnapshot other mailboxFull).UnderWay scope command := by
  unfold routeCheckRemoteEditSnapshot
  dsimp only
  split
  · exact h.emit _
  split
  · exact h.emit _
  split
  · exact h.emit _
  · split
    · rcases h with queued | held | ended
      · exact .inl queued
      · refine .inr (.inl (updateKey_exists (fun actor its => ?_) held))
        exact ⟨its.1, List.mem_append_left _ its.2⟩
      · exact .inr (.inr ended)
    · exact h.emit _

variable (h : s.Answered) (linked : s.Linked)

include h

theorem Answered.release (position : Nat) : (s.release position).Answered := by
  unfold CheckSystem.release
  cases s.parked[position]? with
  | none => exact h
  | some command => exact h.runtime rfl rfl fun _ _ _ under => under.post command

include linked

theorem Answered.dispatch (mailboxFull : Bool) : (s.dispatch mailboxFull).Answered := by
  unfold CheckSystem.dispatch
  cases queue : s.commands with
  | nil => exact h
  | cons head commands =>
    have left : ∀ scope command, head ≠ .checkRemoteEditSnapshot command → s.UnderWay scope command →
        UnderWay { s with commands := commands } scope command := by
      rintro scope command other (queued | held | ended)
      · rw [queue] at queued
        exact .inl ((List.mem_cons.mp queued).resolve_left fun is => other is.symm)
      · exact .inr (.inl held)
      · exact .inr (.inr ended)
    dsimp only
    cases head with
    | connectTab begun =>
      obtain ⟨tabs, edits, -⟩ := shutdownSession_rest { s with commands := commands } begun.tabId
      exact h.runtime edits tabs fun scope command _ under => (left scope command (by simp) under).connectTab begun
    | disconnectTab tabId | closeTab tabId =>
      obtain ⟨tabs, edits, -⟩ := shutdownSession_rest { s with commands := commands } tabId
      exact h.runtime edits tabs fun scope command _ under => (left scope command (by simp) under).shutdownSession tabId
    | closeTabs tabIds =>
      obtain ⟨tabs, edits⟩ := shutdownAll_rest { s with commands := commands } tabIds
      exact h.runtime edits tabs fun scope command _ under => (left scope command (by simp) under).shutdownAll tabIds
    | checkRemoteEditSnapshot routed =>
      obtain ⟨tabs, edits⟩ := routeCheck_rest { s with commands := commands } routed mailboxFull
      refine h.runtime edits tabs fun scope command current under => ?_
      by_cases same : routed = command
      · subst same
        exact (linked.popCommand queue rfl fun _ => rfl).routed current mailboxFull
      · exact (left scope command (by simpa using same) under).route routed mailboxFull

theorem Answered.goes {actor : RemoteSessionActor} (ha : actor ∈ s.actors) (phase : ActorPhase) (mailbox : List CheckRequest)
    (events : List RuntimeEvent)
    (moves : ∀ scope command, s.Current scope command → actor.scope = scope → requestOf command ∈ actor.mailbox →
      requestOf command ∈ mailbox ∨ ∃ event ∈ s.events ++ events, event.Ends scope command) :
    ((s.updateActor actor.sessionId (fun actor => { actor with phase := phase, mailbox := mailbox })).emit events).Answered := by
  refine h.runtime rfl rfl fun scope command current under => ?_
  rcases under with queued | ⟨other, ho, its, waits⟩ | ⟨event, he, ends⟩
  · exact .inl queued
  · rcases linked.updateActor_mem (fun actor => { actor with phase := phase, mailbox := mailbox }) ha ho with ⟨still, -⟩ |
      ⟨rfl, moved⟩
    · exact .inr (.inl ⟨other, still, its, waits⟩)
    · rcases moves scope command current its waits with kept | ended
      · exact .inr (.inl ⟨_, moved, its, kept⟩)
      · exact .inr (.inr ended)
  · exact .inr (.inr ⟨event, List.mem_append_left _ he, ends⟩)

theorem Answered.goesSilently {actor : RemoteSessionActor} (ha : actor ∈ s.actors) (phase : ActorPhase)
    (moves : ∀ scope command, s.Current scope command → actor.scope = scope → ∃ event ∈ s.events, event.Ends scope command) :
    (s.updateActor actor.sessionId (fun actor => { actor with phase := phase, mailbox := [] })).Answered := by
  have went := h.goes linked ha phase [] [] fun scope command current its _ => .inr <| by
    rw [List.append_nil]
    exact moves scope command current its
  rw [CheckSystem.emit, List.append_nil] at went
  exact went

theorem Answered.actorMove {actor : RemoteSessionActor} (ha : actor ∈ s.actors) (move : ActorMove) :
    (s.actorMove actor move).Answered := by
  -- a connected tab's task has connected, and nobody has cancelled it
  have live : ∀ scope command, s.Current scope command → actor.scope = scope →
      actor.cancelled = false ∧ actor.phase.served = true := by
    rintro scope command ⟨-, -, tab, ht, connected⟩ its
    obtain ⟨-, -, other, ho, same, uncancelled, served, -⟩ := linked.connected_handle ht connected
    have is : actor = other := linked.actor_unique ha ho (congrArg RemoteEventScope.sessionId (its.trans same.symm))
    exact is ▸ ⟨uncancelled, served⟩
  cases move with
  | prompts requestId =>
    dsimp only [CheckSystem.actorMove]
    split
    · exact h
    · exact h.runtime rfl rfl fun _ _ _ under => under.emit _
  | connects =>
    dsimp only [CheckSystem.actorMove]
    split
    · exact h.goes linked ha .serving actor.mailbox _ fun _ _ _ _ waits => .inl waits
    · exact h
  | fails outcome =>
    dsimp only [CheckSystem.actorMove]
    split
    · exact h
    · rename_i unserved
      exact h.goes linked ha .failed [] _ fun scope command current its _ => absurd (live scope command current its).2 unserved
  | serves metadata =>
    dsimp only [CheckSystem.actorMove]
    split
    · exact h
    · rename_i request rest waiting
      split
      · refine h.goes linked ha .serving rest _ fun scope command _ its waits => ?_
        rw [waiting] at waits
        rcases List.mem_cons.mp waits with rfl | later
        · refine .inr ⟨_, List.mem_append_right _ List.mem_cons_self, ?_⟩
          cases metadata <;> exact ⟨its, rfl⟩
        · exact .inl later
      · exact h
  | loses reason =>
    dsimp only [CheckSystem.actorMove]
    split
    · exact h.goes linked ha .lost actor.mailbox _ fun _ _ _ _ waits => .inl waits
    · exact h
  | closes =>
    dsimp only [CheckSystem.actorMove]
    split
    · rename_i lost
      refine h.goesSilently linked ha .closed fun scope command current its => ?_
      obtain ⟨-, -, tab, ht, connected⟩ := current
      obtain ⟨reason, told⟩ := (linked.tabs tab ht).lost scope connected.inSession actor ha its (by rw [lost]; rfl)
      exact ⟨_, told, rfl⟩
    · exact h
  | stops =>
    dsimp only [CheckSystem.actorMove]
    split
    · rename_i stop
      refine h.goesSilently linked ha .stopped fun scope command current its => ?_
      simp [(live scope command current its).1] at stop
    · split
      · rename_i stop
        refine h.goesSilently linked ha .failed fun scope command current its => ?_
        simp [(live scope command current its).1] at stop
      · exact h

end Runtime

end CheckSystem

end MacSftp.EditChecks
