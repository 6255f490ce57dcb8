import MacSftp.Checks.System
import MacSftp.Lib.Writes

namespace MacSftp.EditChecks

open Lib Tabs

/-- What a command does to the handle that the runtime holds for a tab. -/
def RuntimeCommand.writes (tabId : TabId) : RuntimeCommand → Option (Option (SessionId × Nat))
  | .connectTab scope => if scope.tabId = tabId then some (some (scope.sessionId, scope.sessionEpoch)) else none
  | .disconnectTab closed | .closeTab closed => if closed = tabId then some none else none
  | .closeTabs closed => if tabId ∈ closed then some none else none
  | .checkRemoteEditSnapshot _ => none

def RuntimeCommand.begun : RuntimeCommand → Option SessionId
  | .connectTab scope => some scope.sessionId
  | _ => none

def RuntimeEvent.prompts : RuntimeEvent → Option RemoteEventScope
  | .hostKeyUnknown scope _ => some scope
  | _ => none

/-- The attempt that an event ends without a `TabDisconnected`. -/
def RuntimeEvent.fails : RuntimeEvent → Option RemoteEventScope
  | .hostKeyMismatch scope _ | .authFailed scope _ => some scope
  | _ => none

def EditTab.InSession (tab : EditTab) (scope : RemoteEventScope) : Prop :=
  tab.id = scope.tabId ∧ tab.state.connection.session = some (scope.sessionId, scope.sessionEpoch)

def EditTab.Connected (tab : EditTab) (scope : RemoteEventScope) : Prop :=
  tab.id = scope.tabId ∧ ∃ since, tab.state.connection = .connected scope.sessionId scope.sessionEpoch since

def ActorPhase.disconnected : ActorPhase → Bool
  | .lost | .closed => true
  | _ => false

theorem EditTab.Connected.inSession {tab : EditTab} {scope : RemoteEventScope} (connected : tab.Connected scope) :
    tab.InSession scope := by
  obtain ⟨same, since, is⟩ := connected
  exact ⟨same, by rw [is]; rfl⟩

namespace CheckSystem

def sessionIds (s : CheckSystem) : List SessionId :=
  s.commands.filterMap RuntimeCommand.begun ++ s.actors.map RemoteSessionActor.sessionId

/-- Some task of this scope is in a phase like this. -/
def HasActor (s : CheckSystem) (scope : RemoteEventScope) (P : ActorPhase → Prop) : Prop :=
  ∃ actor ∈ s.actors, actor.scope = scope ∧ P actor.phase

/-- What a tab shows of its session is what has become of it, or word of it is under way. -/
structure Serves (s : CheckSystem) (tab : EditTab) : Prop where
  epoch : ∀ scope, tab.InSession scope → tab.state.sessionEpoch = scope.sessionEpoch
  current : ∀ scope, tab.InSession scope →
    settled (RuntimeCommand.writes scope.tabId) (s.sessions scope.tabId) s.commands = some (scope.sessionId, scope.sessionEpoch)
  joined : ∀ scope, tab.Connected scope → s.HasActor scope (ActorPhase.served · = true)
  unprompted : ∀ scope, tab.Connected scope → ∀ event ∈ s.events, event.prompts ≠ some scope
  lost : ∀ scope, tab.InSession scope → ∀ actor ∈ s.actors, actor.scope = scope →
    actor.phase.disconnected = true → ∃ reason, .tabDisconnected scope reason ∈ s.events

/-- How the tabs, the commands under way, the session tasks and their events fit together. -/
structure Linked (s : CheckSystem) : Prop where
  tabIds : (s.tabs.map EditTab.id).Nodup
  tabBound : ∀ tab ∈ s.tabs, tab.id.raw < s.nextTabId
  parked : ∀ command ∈ s.parked, command.begun = none ∧
    ∀ tabId, command.writes tabId ≠ none → tabId.raw < s.nextTabId ∧ ∀ tab ∈ s.tabs, tab.id ≠ tabId
  fresh : s.sessionIds.Nodup
  sessionBound : ∀ id ∈ s.sessionIds, id.raw < s.nextSessionId
  handles : ∀ tabId sessionId epoch, s.sessions tabId = some (sessionId, epoch) →
    ∃ actor ∈ s.actors, actor.scope = ⟨tabId, sessionId, epoch⟩ ∧ actor.cancelled = false
  tabs : ∀ tab ∈ s.tabs, s.Serves tab
  joining : ∀ scope, .tabConnected scope ∈ s.events → s.HasActor scope (ActorPhase.served · = true)
  ended : ∀ event ∈ s.events, ∀ scope, event.fails = some scope → s.HasActor scope (· = .failed)
  prompted : s.events.Pairwise fun first later => ∀ scope, first = .tabConnected scope → later.prompts ≠ some scope
  stopped : ∀ actor ∈ s.actors, actor.phase = .stopped → actor.cancelled = true

/-- A tab that is in no other session than before, and no further in it. -/
structure Weakens (after before : EditTab) : Prop where
  id : after.id = before.id
  epoch : after.state.sessionEpoch = before.state.sessionEpoch
  session : ∀ scope, after.InSession scope → before.InSession scope
  connected : ∀ scope, after.Connected scope → before.Connected scope

theorem Weakens.refl (tab : EditTab) : Weakens tab tab := ⟨rfl, rfl, fun _ same => same, fun _ same => same⟩

variable {s : CheckSystem}

theorem Serves.weaken {before after : EditTab} (h : s.Serves before) (weak : Weakens after before) : s.Serves after where
  epoch scope inSession := weak.epoch.trans (h.epoch scope (weak.session scope inSession))
  current scope inSession := h.current scope (weak.session scope inSession)
  joined scope connected := h.joined scope (weak.connected scope connected)
  unprompted scope connected := h.unprompted scope (weak.connected scope connected)
  lost scope inSession := h.lost scope (weak.session scope inSession)

theorem serves_of_none {tab : EditTab} (out : tab.state.connection.session = none) : s.Serves tab := by
  have never : ∀ scope, ¬ tab.InSession scope := by
    rintro scope ⟨-, session⟩
    cases out.symm.trans session
  exact ⟨fun scope inSession => absurd inSession (never scope), fun scope inSession => absurd inSession (never scope),
    fun scope connected => absurd connected.inSession (never scope),
    fun scope connected => absurd connected.inSession (never scope), fun scope inSession => absurd inSession (never scope)⟩

theorem new_linked (editsDir : LocalPath) (runId : List Char) : (new editsDir runId).Linked where
  tabIds := List.nodup_nil
  tabBound := by simp [new]
  parked := by simp [new]
  fresh := List.nodup_nil
  sessionBound := by simp [new, sessionIds]
  handles := by simp [new]
  tabs := by simp [new]
  joining := by simp [new]
  ended := by simp [new]
  prompted := List.Pairwise.nil
  stopped := by simp [new]

theorem findTab_mem {tabId : TabId} {tab : EditTab} (found : s.findTab tabId = some tab) : tab ∈ s.tabs ∧ tab.id = tabId :=
  findKey_mem EditTab.id found

theorem closed_apart (closed : TabId → Bool) {tabId : TabId} (gone : closed tabId = true) :
    ∀ tab ∈ (s.closeTabs closed).tabs, tab.id ≠ tabId := by
  rintro tab mem rfl
  have kept := (List.mem_filter.mp mem).2
  simp [gone] at kept

theorem accepted_tab {scope : RemoteEventScope} (accepts : s.acceptsRemoteScope scope = true) :
    ∃ tab ∈ s.tabs, tab.InSession scope ∧ tab.state.sessionEpoch = scope.sessionEpoch := by
  unfold acceptsRemoteScope at accepts
  cases found : s.findTab scope.tabId with
  | none => simp [found] at accepts
  | some tab =>
    obtain ⟨mem, same⟩ := findTab_mem found
    rw [found] at accepts
    obtain ⟨-, epoch, session⟩ := Tabs.TabState.accepts_iff.mp accepts
    exact ⟨tab, mem, ⟨same, session⟩, epoch⟩

theorem updateTab_ids {tabId : TabId} {f : EditTab → EditTab} (same : ∀ tab, (f tab).id = tab.id) :
    (s.updateTab tabId f).tabs.map EditTab.id = s.tabs.map EditTab.id := updateKey_map EditTab.id tabId EditTab.id same s.tabs

section Linked

variable (h : s.Linked)

include h

theorem Linked.actor_unique {actor other : RemoteSessionActor} (ha : actor ∈ s.actors) (ho : other ∈ s.actors)
    (same : actor.sessionId = other.sessionId) : actor = other := by
  have nodup : (s.actors.map RemoteSessionActor.sessionId).Nodup := (List.nodup_append.mp h.fresh).2.1
  exact key_unique RemoteSessionActor.sessionId nodup ha ho same

theorem Linked.phase_of {scope : RemoteEventScope} {P : ActorPhase → Prop} (has : s.HasActor scope P) {actor : RemoteSessionActor}
    (ha : actor ∈ s.actors) (same : actor.scope = scope) : P actor.phase := by
  obtain ⟨other, ho, its, holds⟩ := has
  have sessionId : actor.sessionId = other.sessionId := by rw [RemoteSessionActor.sessionId, same, ← its]; rfl
  rw [h.actor_unique ha ho sessionId]
  exact holds

theorem Linked.tab_unique {tab other : EditTab} (ht : tab ∈ s.tabs) (ho : other ∈ s.tabs) (same : tab.id = other.id) :
    tab = other := key_unique EditTab.id h.tabIds ht ho same

theorem Linked.connected_handle {tab : EditTab} (ht : tab ∈ s.tabs) {scope : RemoteEventScope} (connected : tab.Connected scope) :
    s.sessions scope.tabId = some (scope.sessionId, scope.sessionEpoch) ∧
      (∀ command ∈ s.commands, command.writes scope.tabId = none) ∧
      ∃ actor ∈ s.actors, actor.scope = scope ∧ actor.cancelled = false ∧ actor.phase.served = true ∧ actor.phase ≠ .stopped := by
  obtain ⟨actor, ha, mine, served⟩ := (h.tabs tab ht).joined scope connected
  have ends := (h.tabs tab ht).current scope connected.inSession
  have unset : ∀ command ∈ s.commands, command.writes scope.tabId ≠ some (some (scope.sessionId, scope.sessionEpoch)) := by
    -- the task is there already, so the command that has begun it is done
    intro command mem sets
    have begun : command.begun = some scope.sessionId := by
      cases command <;> simp_all [RuntimeCommand.writes, RuntimeCommand.begun]
    have queued : scope.sessionId ∈ s.commands.filterMap RuntimeCommand.begun := List.mem_filterMap.mpr ⟨command, mem, begun⟩
    have started : scope.sessionId ∈ s.actors.map RemoteSessionActor.sessionId :=
      List.mem_map.mpr ⟨actor, ha, congrArg RemoteEventScope.sessionId mine⟩
    exact (List.nodup_append.mp h.fresh).2.2 _ queued _ started rfl
  obtain ⟨handle, untouched⟩ := settled_eq_some ends unset
  refine ⟨handle, untouched, actor, ha, mine, ?_⟩
  obtain ⟨other, ho, its, live⟩ := h.handles _ _ _ handle
  have same : actor = other := h.actor_unique ha ho (by rw [RemoteSessionActor.sessionId, mine, RemoteSessionActor.sessionId, its])
  subst same
  refine ⟨live, served, fun stopped => ?_⟩
  have cancelled := h.stopped actor ha stopped
  simp [live] at cancelled

theorem Linked.edits (edits : RemoteEditLifecycle) : Linked { s with edits := edits } :=
  { h with tabs := fun tab ht => { h.tabs tab ht with } }

theorem Linked.retab {tabs : List EditTab} (ids : List.Sublist (tabs.map EditTab.id) (s.tabs.map EditTab.id))
    (each : ∀ tab ∈ tabs, s.Serves tab) : Linked { s with tabs := tabs } := by
  have was : ∀ tab ∈ tabs, ∃ before ∈ s.tabs, before.id = tab.id := fun tab ht =>
    List.mem_map.mp (ids.subset (List.mem_map_of_mem ht))
  refine { h with tabIds := h.tabIds.sublist ids, tabBound := ?_, parked := ?_, tabs := fun tab ht => { each tab ht with } }
  · intro tab ht
    obtain ⟨before, hb, same⟩ := was tab ht
    rw [← same]
    exact h.tabBound before hb
  · intro command mem
    refine ⟨(h.parked command mem).1, fun tabId writes => ?_⟩
    obtain ⟨bound, apart⟩ := (h.parked command mem).2 tabId writes
    refine ⟨bound, fun tab ht => ?_⟩
    obtain ⟨before, hb, same⟩ := was tab ht
    rw [← same]
    exact apart before hb

theorem Linked.weaken {tabs : List EditTab} (ids : List.Sublist (tabs.map EditTab.id) (s.tabs.map EditTab.id))
    (each : ∀ after ∈ tabs, ∃ before ∈ s.tabs, Weakens after before) : Linked { s with tabs := tabs } := by
  refine h.retab ids fun after ha => ?_
  obtain ⟨before, hb, weak⟩ := each after ha
  exact (h.tabs before hb).weaken weak

theorem Linked.post {command : RuntimeCommand} (begins : command.begun = none)
    (spares : ∀ tab ∈ s.tabs, ∀ scope, tab.InSession scope → command.writes scope.tabId = none) : (s.post command).Linked := by
  have ids : (s.post command).sessionIds = s.sessionIds := by simp [CheckSystem.post, sessionIds, begins]
  refine { h with fresh := ids ▸ h.fresh, sessionBound := ids ▸ h.sessionBound, tabs := fun tab ht =>
    { h.tabs tab ht with current := ?_ } }
  intro scope inSession
  rw [CheckSystem.post, settled_concat, spares tab ht scope inSession]
  exact (h.tabs tab ht).current scope inSession

theorem Linked.park {command : RuntimeCommand} (begins : command.begun = none)
    (gone : ∀ tabId, command.writes tabId ≠ none → tabId.raw < s.nextTabId ∧ ∀ tab ∈ s.tabs, tab.id ≠ tabId) :
    (s.park command).Linked := by
  refine { h with parked := ?_, tabs := fun tab ht => { h.tabs tab ht with } }
  intro other mem
  rcases List.mem_append.mp mem with earlier | latest
  · exact h.parked other earlier
  · rw [List.mem_singleton.mp latest]
    exact ⟨begins, gone⟩

theorem Linked.release (position : Nat) : (s.release position).Linked := by
  unfold CheckSystem.release
  cases waits : s.parked[position]? with
  | none => exact h
  | some command =>
    obtain ⟨begins, gone⟩ := h.parked command (List.mem_of_getElem? waits)
    have fewer : Linked { s with parked := s.parked.eraseIdx position } :=
      { h with parked := fun other mem => h.parked other (List.eraseIdx_subset mem), tabs := fun tab ht => { h.tabs tab ht with } }
    apply fewer.post begins
    intro tab ht scope inSession
    by_contra writes
    exact (gone scope.tabId writes).2 tab ht inSession.1

theorem Linked.openTab (title : String) : (s.openTab title).Linked := by
  have tabs : ∀ tab ∈ (s.openTab title).tabs, tab ∈ s.tabs ∨ tab = { state := .new ⟨s.nextTabId⟩ title } := by
    intro tab mem
    simpa [CheckSystem.openTab] using mem
  refine { h with tabIds := ?_, tabBound := ?_, parked := ?_, tabs := ?_ }
  · rw [CheckSystem.openTab, List.map_append, List.nodup_append]
    refine ⟨h.tabIds, List.nodup_singleton _, ?_⟩
    rintro id mem _ last rfl
    obtain ⟨tab, ht, same⟩ := List.mem_map.mp mem
    rw [List.mem_singleton.mp last] at same
    have bound := h.tabBound tab ht
    rw [same] at bound
    exact Nat.lt_irrefl _ bound
  · intro tab mem
    rcases tabs tab mem with old | rfl
    · exact Nat.lt_succ_of_lt (h.tabBound tab old)
    · exact Nat.lt_succ_self _
  · intro command mem
    refine ⟨(h.parked command mem).1, fun tabId writes => ?_⟩
    obtain ⟨bound, apart⟩ := (h.parked command mem).2 tabId writes
    refine ⟨Nat.lt_succ_of_lt bound, fun tab mem => ?_⟩
    rcases tabs tab mem with old | rfl
    · exact apart tab old
    · rintro rfl
      exact Nat.lt_irrefl _ bound
  · intro tab mem
    rcases tabs tab mem with old | rfl
    · exact { h.tabs tab old with }
    · exact serves_of_none rfl

theorem Linked.mem_updateTab {tabId : TabId} {f : EditTab → EditTab} {after : EditTab}
    (mem : after ∈ (s.updateTab tabId f).tabs) :
    after ∈ s.tabs ∧ after.id ≠ tabId ∨ ∃ tab ∈ s.tabs, tab.id = tabId ∧ after = f tab := by
  obtain ⟨before, hb, is⟩ := (mem_updateKey EditTab.id tabId f h.tabIds).mp mem
  by_cases here : before.id = tabId
  · rw [if_pos here] at is
    exact .inr ⟨before, hb, here, is⟩
  · rw [if_neg here] at is
    exact .inl ⟨is ▸ hb, is ▸ here⟩

theorem Linked.updateTab {tabId : TabId} {f : EditTab → EditTab} (same : ∀ tab, (f tab).id = tab.id)
    (weak : ∀ tab ∈ s.tabs, tab.id = tabId → Weakens (f tab) tab) : (s.updateTab tabId f).Linked := by
  refine h.retab (updateTab_ids same ▸ .refl _) fun after mem => ?_
  rcases h.mem_updateTab mem with ⟨old, -⟩ | ⟨before, hb, here, rfl⟩
  · exact h.tabs after old
  · exact (h.tabs before hb).weaken (weak before hb here)

theorem Linked.closeTabs (closed : TabId → Bool) : (s.closeTabs closed).Linked :=
  h.weaken (List.filter_sublist.map _) fun after mem => ⟨after, List.mem_of_mem_filter mem, .refl after⟩

theorem Linked.accepts {scope : RemoteEventScope} {tab : EditTab} (ht : tab ∈ s.tabs) (inSession : tab.InSession scope) :
    s.acceptsRemoteScope scope = true := by
  have found : s.findTab scope.tabId = some tab := (findKey_iff EditTab.id h.tabIds).mpr ⟨ht, inSession.1⟩
  rw [acceptsRemoteScope, found]
  exact Tabs.TabState.accepts_iff.mpr ⟨inSession.1, (h.tabs tab ht).epoch scope inSession, inSession.2⟩

end Linked

section Weakens

variable {tab : EditTab}

theorem weakens_of_none {f : Tabs.TabState → Tabs.TabState} (id : ∀ state, (f state).id = state.id)
    (epoch : ∀ state, (f state).sessionEpoch = state.sessionEpoch) (none_ : (f tab.state).connection.session = none) :
    Weakens (tab.map f) tab := by
  have never : ∀ scope, ¬ (tab.map f).InSession scope := by
    rintro scope ⟨-, session⟩
    cases none_.symm.trans session
  exact ⟨id tab.state, epoch tab.state, fun scope inSession => absurd inSession (never scope),
    fun scope connected => absurd connected.inSession (never scope)⟩

theorem weakens_disconnect (reason : Tabs.DisconnectReason) : Weakens (tab.map (Tabs.TabState.disconnect reason)) tab :=
  weakens_of_none (fun _ => rfl) (fun _ => rfl) rfl

theorem weakens_fail (error : UserFacingError) : Weakens (tab.map (Tabs.TabState.fail error)) tab :=
  weakens_of_none (fun _ => rfl) (fun _ => rfl) rfl

theorem weakens_awaitHostKey {scope : RemoteEventScope} (inSession : tab.InSession scope)
    (epoch : tab.state.sessionEpoch = scope.sessionEpoch) (requestId : Nat) :
    Weakens (tab.map (Tabs.TabState.awaitHostKey scope.sessionId requestId)) tab := by
  refine ⟨rfl, rfl, ?_, ?_⟩
  · rintro other ⟨same, session⟩
    have its : some (scope.sessionId, tab.state.sessionEpoch) = some (other.sessionId, other.sessionEpoch) := session
    rw [epoch, ← inSession.2] at its
    exact ⟨same, its⟩
  · rintro other ⟨-, since, connected⟩
    simp [EditTab.map, Tabs.TabState.awaitHostKey] at connected

theorem weakens_resumeConnecting (requestId : Nat) : Weakens (tab.map (resumeConnecting requestId)) tab := by
  unfold EditTab.map resumeConnecting
  split
  · rename_i sessionId epoch pending waits
    split
    · refine ⟨rfl, rfl, ?_, ?_⟩
      · rintro other ⟨same, session⟩
        refine ⟨same, ?_⟩
        rw [waits]
        exact session
      · rintro other ⟨-, since, connected⟩
        cases connected
    · exact .refl tab
  · exact .refl tab

theorem weakens_declineHostKey (requestId : Nat) : Weakens (tab.map (declineHostKey requestId)) tab := by
  unfold EditTab.map declineHostKey
  split
  · split
    · exact weakens_disconnect .userRequested
    · exact .refl tab
  · exact .refl tab

theorem map_id {f : Tabs.TabState → Tabs.TabState} (same : ∀ state, (f state).id = state.id) (tab : EditTab) :
    (tab.map f).id = tab.id :=
  same tab.state

theorem resumeConnecting_id (requestId : Nat) (state : Tabs.TabState) : (resumeConnecting requestId state).id = state.id := by
  unfold resumeConnecting
  split <;> [split; skip] <;> rfl

theorem declineHostKey_id (requestId : Nat) (state : Tabs.TabState) : (declineHostKey requestId state).id = state.id := by
  unfold declineHostKey
  split <;> [split; skip] <;> rfl

end Weakens

theorem beginAttempt_session (sessionId : SessionId) (connectionKey : ConnectionKey) (tab : EditTab) :
    (beginAttempt sessionId connectionKey tab).id = tab.id ∧
      (beginAttempt sessionId connectionKey tab).state.sessionEpoch = tab.state.sessionEpoch + 1 ∧
      (beginAttempt sessionId connectionKey tab).state.connection.session = some (sessionId, tab.state.sessionEpoch + 1) ∧
      isReconnect (beginAttempt sessionId connectionKey tab).state.connection = false := by
  unfold beginAttempt EditTab.id
  split <;> exact ⟨rfl, rfl, rfl, rfl⟩

section Interface

variable (h : s.Linked)

include h

theorem Linked.applyEdit (op : EditOp) : (s.applyEdit op).Linked := h.edits _

theorem Linked.closeTab (tabId : TabId) (sent : Bool) : (s.closeTab tabId sent).Linked := by
  unfold CheckSystem.closeTab
  cases found : s.findTab tabId with
  | none => exact h
  | some tab =>
    obtain ⟨mem, same⟩ := findTab_mem found
    have without := (h.closeTabs (· = tabId)).applyEdit (.removeForTab tabId)
    have apart : ∀ other ∈ ((s.closeTabs (· = tabId)).applyEdit (.removeForTab tabId)).tabs, other.id ≠ tabId :=
      closed_apart (· = tabId) (decide_eq_true rfl)
    cases sent with
    | true =>
      apply without.post rfl
      intro other ho scope inSession
      have differs : tabId ≠ scope.tabId := fun is => apart other ho (inSession.1.trans is.symm)
      simp [RuntimeCommand.writes, differs]
    | false =>
      apply without.park rfl
      intro other writes
      have is : tabId = other := by simpa [RuntimeCommand.writes] using writes
      subst is
      exact ⟨same ▸ h.tabBound tab mem, apart⟩

theorem Linked.removeForTabs (tabIds : List TabId) :
    (tabIds.foldl (fun s tabId => s.applyEdit (.removeForTab tabId)) s).Linked := by
  induction tabIds generalizing s with
  | nil => exact h
  | cons tabId tabIds ih => exact ih (h.applyEdit _)

theorem Linked.closeWindow (tabIds : List TabId) : (s.closeWindow tabIds).Linked := by
  apply Linked.removeForTabs
  apply (h.closeTabs _).park rfl
  intro tabId writes
  have registered : tabId ∈ tabIds.filter (·.raw < s.nextTabId) := by
    by_contra absent
    exact writes (if_neg absent)
  exact ⟨of_decide_eq_true (List.mem_filter.mp registered).2, closed_apart _ (decide_eq_true registered)⟩

theorem Linked.acceptHostKey (tabId : TabId) (requestId : Nat) (sent : Bool) : (s.acceptHostKey tabId requestId sent).Linked := by
  unfold CheckSystem.acceptHostKey
  split
  · exact h.updateTab (map_id (resumeConnecting_id requestId)) fun tab _ _ => weakens_resumeConnecting requestId
  · exact h

theorem Linked.rejectHostKey (tabId : TabId) (requestId : Nat) (sent : Bool) : (s.rejectHostKey tabId requestId sent).Linked := by
  unfold CheckSystem.rejectHostKey
  split
  · exact h.updateTab (map_id (declineHostKey_id requestId)) fun tab _ _ => weakens_declineHostKey requestId
  · exact h

theorem Linked.cancelling (tabId : TabId) :
    ((s.post (.disconnectTab tabId)).updateTab tabId (EditTab.map (Tabs.TabState.disconnect .userRequested))).Linked := by
  -- the tab is out of its session before the command is sent
  have out := h.updateTab (map_id (f := Tabs.TabState.disconnect .userRequested) fun _ => rfl)
    (fun tab _ (_ : tab.id = tabId) => weakens_disconnect .userRequested)
  have spares : ∀ tab ∈ (s.updateTab tabId (EditTab.map (Tabs.TabState.disconnect .userRequested))).tabs, ∀ scope,
      tab.InSession scope → (RuntimeCommand.disconnectTab tabId).writes scope.tabId = none := by
    intro tab mem scope inSession
    rcases h.mem_updateTab mem with ⟨-, other⟩ | ⟨before, -, -, rfl⟩
    · have differs : tabId ≠ scope.tabId := fun same => other (inSession.1.trans same.symm)
      simp [RuntimeCommand.writes, differs]
    · cases inSession.2
  exact out.post rfl spares

theorem Linked.cancelConnect (tabId : TabId) (sent : Bool) : (s.cancelConnect tabId sent).Linked := by
  unfold CheckSystem.cancelConnect
  split
  · exact h
  split
  · exact h.rejectHostKey tabId _ sent
  · split
    · exact h.cancelling tabId
    · exact h
  · split
    · exact h.cancelling tabId
    · exact h
  · exact h

theorem Linked.unheard {actor : RemoteSessionActor} (ha : actor ∈ s.actors) : actor.scope.sessionId ≠ ⟨s.nextSessionId⟩ := by
  intro is
  have known : actor.scope.sessionId ∈ s.sessionIds := List.mem_append_right _ (List.mem_map.mpr ⟨actor, ha, rfl⟩)
  have bound := h.sessionBound _ known
  rw [is] at bound
  exact Nat.lt_irrefl _ bound

theorem Linked.postConnect {tabId : TabId} (epoch : Nat)
    (spares : ∀ tab ∈ s.tabs, ∀ scope, tab.InSession scope → tabId ≠ scope.tabId) :
    ({ s with nextSessionId := s.nextSessionId + 1 }.post (.connectTab ⟨tabId, ⟨s.nextSessionId⟩, epoch⟩)).Linked := by
  have ids : ({ s with nextSessionId := s.nextSessionId + 1 }.post
      (.connectTab ⟨tabId, ⟨s.nextSessionId⟩, epoch⟩)).sessionIds.Perm (⟨s.nextSessionId⟩ :: s.sessionIds) := by
    rw [sessionIds, CheckSystem.post, List.filterMap_append, List.append_assoc]
    exact List.perm_middle
  have unheard : (⟨s.nextSessionId⟩ : SessionId) ∉ s.sessionIds := fun known => Nat.lt_irrefl _ (h.sessionBound _ known)
  refine { h with fresh := ?_, sessionBound := ?_, tabs := fun tab ht => { h.tabs tab ht with current := ?_ } }
  · exact ids.nodup_iff.mpr (List.nodup_cons.mpr ⟨unheard, h.fresh⟩)
  · intro id mem
    rcases List.mem_cons.mp (ids.subset mem) with rfl | old
    · exact Nat.lt_succ_self _
    · exact Nat.lt_succ_of_lt (h.sessionBound id old)
  · intro scope inSession
    rw [CheckSystem.post, settled_concat, RuntimeCommand.writes, if_neg (spares tab ht scope inSession)]
    exact (h.tabs tab ht).current scope inSession

theorem Linked.beginAttempt {tab : EditTab} (ht : tab ∈ s.tabs) (connectionKey : ConnectionKey) :
    (({ s with nextSessionId := s.nextSessionId + 1 }.post
      (.connectTab ⟨tab.id, ⟨s.nextSessionId⟩, tab.state.sessionEpoch + 1⟩)).updateTab tab.id
        (EditChecks.beginAttempt ⟨s.nextSessionId⟩ connectionKey)).Linked := by
  -- the tab leaves its session, the command is sent, and the tab is in the session that it begins
  have out := h.updateTab (map_id (f := Tabs.TabState.disconnect .userRequested) fun _ => rfl)
    (fun other _ (_ : other.id = tab.id) => weakens_disconnect .userRequested)
  have spares : ∀ other ∈ (s.updateTab tab.id (EditTab.map (Tabs.TabState.disconnect .userRequested))).tabs, ∀ scope,
      other.InSession scope → tab.id ≠ scope.tabId := by
    intro other mem scope inSession
    rcases h.mem_updateTab mem with ⟨-, apart⟩ | ⟨before, -, -, rfl⟩
    · exact fun same => apart (inSession.1.trans same.symm)
    · cases inSession.2
  have posted := out.postConnect (tab.state.sessionEpoch + 1) spares
  obtain ⟨sameId, epoch, session, unconnected⟩ := beginAttempt_session ⟨s.nextSessionId⟩ connectionKey tab
  refine @Linked.retab _ posted (updateKey EditTab.id tab.id (EditChecks.beginAttempt ⟨s.nextSessionId⟩ connectionKey) s.tabs) ?_ ?_
  · rw [updateKey_map EditTab.id tab.id EditTab.id fun other => (beginAttempt_session _ _ other).1]
    exact (updateTab_ids (f := EditTab.map (Tabs.TabState.disconnect .userRequested)) fun _ => rfl) ▸ .refl _
  · intro after mem
    rcases h.mem_updateTab mem with ⟨old, apart⟩ | ⟨before, hb, same, rfl⟩
    · exact posted.tabs after (mem_updateKey_of_ne EditTab.id old apart _)
    · rw [h.tab_unique hb ht same]
      have notConnected : ∀ scope, ¬ (EditChecks.beginAttempt ⟨s.nextSessionId⟩ connectionKey tab).Connected scope := by
        rintro scope ⟨-, since, connected⟩
        rw [connected] at unconnected
        cases unconnected
      refine ⟨fun scope inSession => ?_, fun scope inSession => ?_, fun scope connected => absurd connected (notConnected scope),
        fun scope connected => absurd connected (notConnected scope), fun scope inSession actor ha its => ?_⟩
      · rw [epoch]
        exact (Prod.mk.inj (Option.some.inj (session.symm.trans inSession.2))).2
      · change settled _ _ (s.commands ++ [_]) = _
        rw [settled_concat, RuntimeCommand.writes, if_pos (sameId ▸ inSession.1)]
        exact session.symm.trans inSession.2
      · have is := (Prod.mk.inj (Option.some.inj (session.symm.trans inSession.2))).1
        exact absurd (its ▸ is.symm) (h.unheard ha)

theorem Linked.connectWith (tabId : TabId) (connectionKey : ConnectionKey) (sent : Bool) :
    (s.connectWith tabId connectionKey sent).Linked := by
  unfold CheckSystem.connectWith
  cases found : s.findTab tabId with
  | none => exact h
  | some tab =>
    obtain ⟨mem, rfl⟩ := findTab_mem found
    dsimp only
    split
    · exact h
    · split
      · exact (h.beginAttempt mem connectionKey).applyEdit _
      · exact { h with
          sessionBound := fun id known => Nat.lt_succ_of_lt (h.sessionBound id known)
          tabs := fun tab ht => { h.tabs tab ht with } }

theorem Linked.uploadSelectedEdit (id : EditSessionId) (localMtime : Option Timestamp) (sent : Bool) :
    (s.uploadSelectedEdit id localMtime sent).Linked := by
  unfold CheckSystem.uploadSelectedEdit
  split
  · exact h
  split
  · exact h
  split
  · dsimp only
    split
    · split
      · exact (h.applyEdit _).post rfl fun _ _ _ _ => rfl
      · exact (h.applyEdit _).applyEdit _
    · exact h.applyEdit _
  · exact h

end Interface

end CheckSystem

end MacSftp.EditChecks
