import MacSftp.Checks.Connections

namespace MacSftp.EditChecks

open Lib Tabs

namespace CheckSystem

variable {s : CheckSystem}

theorem handleWindowEvent_popped {scope : RemoteEventScope} {f : Tabs.TabState → Tabs.TabState} {events : List RuntimeEvent} :
    { s with events := events }.handleWindowEvent scope f = { s.handleWindowEvent scope f with events := events } := by
  have same : { s with events := events }.acceptsRemoteScope scope = s.acceptsRemoteScope scope := rfl
  unfold CheckSystem.handleWindowEvent
  rw [same]
  split <;> rfl

theorem handleWindowEvent_events {scope : RemoteEventScope} {f : Tabs.TabState → Tabs.TabState} :
    (s.handleWindowEvent scope f).events = s.events := by
  unfold CheckSystem.handleWindowEvent
  split <;> rfl

section Events

variable (h : s.Linked)

include h

/-- An event that leaves the channel is missed by no tab, unless it is the end of its session. -/
theorem Linked.pop {event : RuntimeEvent} {events : List RuntimeEvent} (queue : s.events = event :: events)
    (told : ∀ tab ∈ s.tabs, ∀ scope, tab.InSession scope → ∀ reason, event ≠ .tabDisconnected scope reason) :
    Linked { s with events := events } := by
  have still : ∀ other ∈ events, other ∈ s.events := fun other mem => queue ▸ List.mem_cons_of_mem event mem
  have ordered := h.prompted
  rw [queue] at ordered
  refine { h with
    joining := fun scope mem => h.joining scope (still _ mem)
    ended := fun other mem => h.ended other (still other mem)
    prompted := (List.pairwise_cons.mp ordered).2
    tabs := fun tab ht => { h.tabs tab ht with unprompted := ?_, lost := ?_ } }
  · exact fun scope connected other mem => (h.tabs tab ht).unprompted scope connected other (still other mem)
  · intro scope inSession actor ha its gone
    obtain ⟨reason, mem⟩ := (h.tabs tab ht).lost scope inSession actor ha its gone
    rw [queue] at mem
    exact ⟨reason, (List.mem_cons.mp mem).resolve_left fun is => told tab ht scope inSession reason is.symm⟩

theorem Linked.handleWindowEvent {scope : RemoteEventScope} {f : Tabs.TabState → Tabs.TabState}
    (same : ∀ state, (f state).id = state.id)
    (weak : ∀ tab : EditTab, tab.InSession scope → tab.state.sessionEpoch = scope.sessionEpoch → Weakens (tab.map f) tab) :
    (s.handleWindowEvent scope f).Linked := by
  unfold CheckSystem.handleWindowEvent
  split
  · rename_i accepts
    obtain ⟨tab, ht, inSession, epoch⟩ := accepted_tab accepts
    refine h.updateTab (map_id same) fun other ho here => ?_
    rw [h.tab_unique ho ht (here.trans inSession.1.symm)]
    exact weak tab inSession epoch
  · exact h

/-- The session's task has connected, so the tab may follow it. -/
theorem Linked.completeConnect {scope : RemoteEventScope} (connected : .tabConnected scope ∈ s.events)
    (unprompted : ∀ event ∈ s.events, event.prompts ≠ some scope) (now : Timestamp) :
    (s.handleWindowEvent scope (Tabs.TabState.completeConnect scope.sessionId now)).Linked := by
  unfold CheckSystem.handleWindowEvent
  split
  · rename_i accepts
    obtain ⟨tab, ht, inSession, epoch⟩ := accepted_tab accepts
    refine h.retab ((updateTab_ids (f := EditTab.map (Tabs.TabState.completeConnect scope.sessionId now)) fun _ =>
      rfl) ▸ .refl _) fun after mem => ?_
    rcases h.mem_updateTab mem with ⟨old, -⟩ | ⟨before, hb, here, rfl⟩
    · exact h.tabs after old
    · rw [h.tab_unique hb ht (here.trans inSession.1.symm)]
      have session : ∀ other, (tab.map (Tabs.TabState.completeConnect scope.sessionId now)).InSession other → other = scope := by
        rintro ⟨tabId, sessionId, sessionEpoch⟩ ⟨same, is⟩
        have its : some (scope.sessionId, tab.state.sessionEpoch) = some (sessionId, sessionEpoch) := is
        rw [epoch] at its
        cases its
        rw [show tabId = scope.tabId from same.symm.trans inSession.1]
      refine ⟨fun other is => ?_, fun other is => ?_, fun other is => ?_, fun other is => ?_, fun other is => ?_⟩
      · rw [session other is]
        exact epoch
      · rw [session other is]
        exact (h.tabs tab ht).current scope inSession
      · rw [session other is.inSession]
        exact h.joining scope connected
      · rw [session other is.inSession]
        exact unprompted
      · rw [session other is]
        exact (h.tabs tab ht).lost scope inSession
  · exact h

theorem Linked.applyRemoteEditCheckEvent (scope : Option RemoteEventScope) (result : EditCheckResult)
    (localMtime : Option Timestamp) :
    (s.applyRemoteEditCheckEvent scope result localMtime).Linked := by
  unfold CheckSystem.applyRemoteEditCheckEvent
  split
  · exact h
  · split
    · exact h
    · exact h.applyEdit _

theorem Linked.disconnected {scope : RemoteEventScope} (reason : Tabs.DisconnectReason) :
    ∀ tab ∈ (s.handleWindowEvent scope (Tabs.TabState.disconnect reason)).tabs, ¬ tab.InSession scope := by
  unfold CheckSystem.handleWindowEvent
  split
  · intro tab mem inSession
    rcases h.mem_updateTab mem with ⟨-, other⟩ | ⟨before, -, -, rfl⟩
    · exact other inSession.1
    · cases inSession.2
  · rename_i refused
    exact fun tab mem inSession => refused (h.accepts mem inSession)

theorem Linked.onEvent (localMtime : Option Timestamp) (now : Timestamp) : (s.onEvent localMtime now).Linked := by
  unfold CheckSystem.onEvent
  cases queue : s.events with
  | nil => exact h
  | cons event events =>
    have mem : event ∈ s.events := queue ▸ List.mem_cons_self
    cases event with
    | hostKeyUnknown scope requestId =>
      have rest := h.pop queue (by simp)
      exact rest.handleWindowEvent (fun _ => rfl) fun tab inSession epoch => weakens_awaitHostKey inSession epoch requestId
    | hostKeyMismatch scope error =>
      exact (h.pop queue (by simp)).handleWindowEvent (fun _ => rfl) fun tab _ _ => weakens_fail error
    | authFailed scope reason =>
      exact (h.pop queue (by simp)).handleWindowEvent (fun _ => rfl) fun tab _ _ => weakens_fail reason
    | tabConnected scope =>
      -- no prompt of the attempt comes after this
      have ordered := h.prompted
      rw [queue] at ordered
      have unprompted : ∀ other ∈ s.events, other.prompts ≠ some scope := by
        intro other among
        rw [queue] at among
        rcases List.mem_cons.mp among with rfl | later
        · simp [RuntimeEvent.prompts]
        · exact (List.pairwise_cons.mp ordered).1 other later scope rfl
      have joined := h.completeConnect mem unprompted now
      have popped := joined.pop (handleWindowEvent_events.trans queue) (by simp)
      rw [← handleWindowEvent_popped] at popped
      exact popped
    | tabDisconnected scope reason =>
      have left : (s.handleWindowEvent scope (Tabs.TabState.disconnect reason)).Linked :=
        h.handleWindowEvent (fun _ => rfl) fun tab _ _ => weakens_disconnect reason
      have popped := left.pop (handleWindowEvent_events.trans queue) fun tab ht other inSession _ is => by
        cases is
        exact h.disconnected reason tab ht inSession
      rw [← handleWindowEvent_popped] at popped
      dsimp only [handleEvent]
      split
      · exact popped.applyEdit _
      · rename_i refused
        rw [CheckSystem.handleWindowEvent, if_neg refused] at popped
        exact popped
    | remoteEditSnapshotChecked scope request snapshot => exact (h.pop queue (by simp)).applyRemoteEditCheckEvent _ _ localMtime
    | remoteEditSnapshotCheckFailed scope request => exact (h.pop queue (by simp)).applyRemoteEditCheckEvent _ _ localMtime
    | remoteEditSnapshotDispatchFailed command => exact (h.pop queue (by simp)).applyRemoteEditCheckEvent _ _ localMtime

end Events

theorem sessionIds_update (s : CheckSystem) (sessionId : SessionId) {f : RemoteSessionActor → RemoteSessionActor}
    (scopes : ∀ other, (f other).scope = other.scope) : (s.updateActor sessionId f).sessionIds = s.sessionIds := by
  rw [sessionIds, sessionIds]
  congr 1
  exact updateKey_map RemoteSessionActor.sessionId sessionId RemoteSessionActor.sessionId
    (fun other => congrArg RemoteEventScope.sessionId (scopes other)) s.actors

section Runtime

variable (h : s.Linked)

include h

theorem Linked.emit {event : RuntimeEvent} (connects : ∀ scope, event = .tabConnected scope →
    s.HasActor scope (ActorPhase.served · = true))
    (fails : ∀ scope, event.fails = some scope → s.HasActor scope (· = .failed))
    (prompts : ∀ scope, event.prompts = some scope → s.HasActor scope (ActorPhase.served · = false)) : (s.emit [event]).Linked := by
  -- a prompt is of an attempt that is not over
  have unserved : ∀ scope, event.prompts = some scope → ¬ s.HasActor scope (ActorPhase.served · = true) := by
    rintro scope asks ⟨actor, ha, its, served⟩
    have waits := h.phase_of (prompts scope asks) ha its
    simp [served] at waits
  refine { h with joining := ?_, ended := ?_, prompted := ?_, tabs := fun tab ht =>
    { h.tabs tab ht with unprompted := ?_, lost := ?_ } }
  · intro scope connected other mem asks
    rcases List.mem_append.mp mem with old | new
    · exact (h.tabs tab ht).unprompted scope connected other old asks
    · rw [List.mem_singleton.mp new] at asks
      exact unserved scope asks ((h.tabs tab ht).joined scope connected)
  · intro scope inSession actor ha its gone
    obtain ⟨reason, mem⟩ := (h.tabs tab ht).lost scope inSession actor ha its gone
    exact ⟨reason, List.mem_append_left _ mem⟩
  · intro scope mem
    rcases List.mem_append.mp mem with old | new
    · exact h.joining scope old
    · exact connects scope (List.mem_singleton.mp new).symm
  · intro other mem
    rcases List.mem_append.mp mem with old | new
    · exact h.ended other old
    · rw [List.mem_singleton.mp new]
      exact fails
  · refine List.pairwise_append.mpr ⟨h.prompted, List.pairwise_singleton _ _, ?_⟩
    rintro first mem later new scope rfl asks
    rw [List.mem_singleton.mp new] at asks
    exact unserved scope asks (h.joining scope mem)

/-- An event that opens and ends nothing. -/
theorem Linked.tell {event : RuntimeEvent} (plain : ∀ scope, event ≠ .tabConnected scope) (fails : event.fails = none)
    (prompts : event.prompts = none) : (s.emit [event]).Linked :=
  h.emit (fun scope is => absurd is (plain scope)) (by simp [fails]) (by simp [prompts])

theorem Linked.mem_updateActor {actor other : RemoteSessionActor} (ha : actor ∈ s.actors)
    {f : RemoteSessionActor → RemoteSessionActor}
    (mem : other ∈ (s.updateActor actor.sessionId f).actors) : other ∈ s.actors ∧ other ≠ actor ∨ other = f actor := by
  have nodup : (s.actors.map RemoteSessionActor.sessionId).Nodup := (List.nodup_append.mp h.fresh).2.1
  obtain ⟨before, hb, is⟩ := (mem_updateKey RemoteSessionActor.sessionId actor.sessionId f nodup).mp mem
  by_cases same : before.sessionId = actor.sessionId
  · rw [if_pos same, h.actor_unique hb ha same] at is
    exact .inr is
  · rw [if_neg same] at is
    subst is
    exact .inl ⟨hb, fun it => same (congrArg _ it)⟩

theorem Linked.updateActor_mem {actor other : RemoteSessionActor} (f : RemoteSessionActor → RemoteSessionActor)
    (ha : actor ∈ s.actors)
    (ho : other ∈ s.actors) : other ∈ (s.updateActor actor.sessionId f).actors ∧ other ≠ actor ∨
      other = actor ∧ f actor ∈ (s.updateActor actor.sessionId f).actors := by
  have nodup : (s.actors.map RemoteSessionActor.sessionId).Nodup := (List.nodup_append.mp h.fresh).2.1
  have images := fun x => mem_updateKey RemoteSessionActor.sessionId actor.sessionId f nodup (y := x)
  by_cases same : other.sessionId = actor.sessionId
  · have is := h.actor_unique ho ha same
    exact .inr ⟨is, (images _).mpr ⟨actor, ha, (if_pos rfl).symm⟩⟩
  · exact .inl ⟨(images _).mpr ⟨other, ho, (if_neg same).symm⟩, fun is => same (congrArg _ is)⟩

theorem Linked.hasActor_update {actor : RemoteSessionActor} (ha : actor ∈ s.actors) {f : RemoteSessionActor → RemoteSessionActor}
    (scopes : ∀ other, (f other).scope = other.scope) {P : ActorPhase → Prop} (keeps : P actor.phase → P (f actor).phase)
    {scope : RemoteEventScope} (has : s.HasActor scope P) : (s.updateActor actor.sessionId f).HasActor scope P := by
  obtain ⟨other, ho, its, holds⟩ := has
  rcases h.updateActor_mem f ha ho with ⟨still, -⟩ | ⟨rfl, moved⟩
  · exact ⟨other, still, its, holds⟩
  · exact ⟨f other, moved, (scopes other).trans its, keeps holds⟩

/-- A move of one session task. -/
theorem Linked.moveActor {actor : RemoteSessionActor} (ha : actor ∈ s.actors) {f : RemoteSessionActor → RemoteSessionActor}
    (scopes : ∀ other, (f other).scope = other.scope) (cancelled : ∀ other, (f other).cancelled = other.cancelled)
    (served : actor.phase.served = true → (f actor).phase.served = true)
    (failed : actor.phase = .failed → (f actor).phase = .failed)
    (lost : (f actor).phase.disconnected = true →
      actor.phase.disconnected = true ∨ ∃ reason, .tabDisconnected actor.scope reason ∈ s.events)
    (stopped : (f actor).phase = .stopped → actor.phase = .stopped ∨ actor.cancelled = true) :
    (s.updateActor actor.sessionId f).Linked := by
  have ids := sessionIds_update s actor.sessionId scopes
  refine { h with
    fresh := ids ▸ h.fresh
    sessionBound := ids ▸ h.sessionBound
    handles := ?_
    joining := fun scope mem => h.hasActor_update ha scopes served (h.joining scope mem)
    ended := fun event mem scope fails => h.hasActor_update ha scopes failed (h.ended event mem scope fails)
    stopped := ?_
    tabs := fun tab ht => { h.tabs tab ht with
      joined := fun scope connected => h.hasActor_update ha scopes served ((h.tabs tab ht).joined scope connected)
      lost := ?_ } }
  · intro tabId sessionId epoch handle
    obtain ⟨other, ho, its, live⟩ := h.handles tabId sessionId epoch handle
    rcases h.updateActor_mem f ha ho with ⟨still, -⟩ | ⟨rfl, moved⟩
    · exact ⟨other, still, its, live⟩
    · exact ⟨f other, moved, (scopes other).trans its, (cancelled other).trans live⟩
  · intro scope inSession other ho its gone
    rcases h.mem_updateActor ha ho with ⟨old, -⟩ | rfl
    · exact (h.tabs tab ht).lost scope inSession other old its gone
    · rw [scopes] at its
      rcases lost gone with already | told
      · exact (h.tabs tab ht).lost scope inSession actor ha its already
      · exact its ▸ told
  · intro other ho is
    rcases h.mem_updateActor ha ho with ⟨old, -⟩ | rfl
    · exact h.stopped other old is
    · rw [cancelled]
      rcases stopped is with already | live
      · exact h.stopped actor ha already
      · exact live

/-- A session is shut down by a command that the handle does not outlive. -/
theorem Linked.shutdownSession {command : RuntimeCommand} {commands : List RuntimeCommand}
    (queue : s.commands = command :: commands)
    {tabId : TabId} (writes : command.writes tabId ≠ none) : (s.shutdownSession tabId).Linked := by
  unfold CheckSystem.shutdownSession
  cases handle : s.sessions tabId with
  | none => exact h
  | some session =>
    obtain ⟨sessionId, epoch⟩ := session
    obtain ⟨actor, ha, mine, -⟩ := h.handles tabId sessionId epoch handle
    have names : actor.sessionId = sessionId := congrArg RemoteEventScope.sessionId mine
    subst names
    have scopes : ∀ other : RemoteSessionActor,
        ({ other with cancelled := true } : RemoteSessionActor).scope = other.scope := fun _ => rfl
    have ids := sessionIds_update s actor.sessionId scopes
    refine { h with
      fresh := ids ▸ h.fresh
      sessionBound := ids ▸ h.sessionBound
      handles := ?_
      tabs := fun tab ht => { h.tabs tab ht with
        current := ?_
        joined := fun scope connected => h.hasActor_update ha scopes id ((h.tabs tab ht).joined scope connected)
        lost := ?_ }
      joining := fun scope mem => h.hasActor_update ha scopes id (h.joining scope mem)
      ended := fun event mem scope fails => h.hasActor_update ha scopes id (h.ended event mem scope fails)
      stopped := ?_ }
    · intro other otherSession otherEpoch kept
      change (if other = tabId then none else s.sessions other) = _ at kept
      split_ifs at kept with here
      obtain ⟨live, ho, its, uncancelled⟩ := h.handles other otherSession otherEpoch kept
      rcases h.updateActor_mem (fun actor => { actor with cancelled := true }) ha ho with ⟨still, -⟩ | ⟨rfl, -⟩
      · exact ⟨live, still, its, uncancelled⟩
      · exact absurd (congrArg RemoteEventScope.tabId (its.symm.trans mine)) here
    · intro scope inSession
      have was := (h.tabs tab ht).current scope inSession
      change settled _ (if scope.tabId = tabId then none else s.sessions scope.tabId) s.commands = _
      split
      · rename_i here
        obtain ⟨value, sets⟩ := Option.ne_none_iff_exists'.mp writes
        rw [queue, settled_cons, here, sets] at was
        rw [queue, settled_cons, here, sets]
        exact was
      · exact was
    · intro scope inSession other ho its gone
      rcases h.mem_updateActor ha ho with ⟨old, -⟩ | rfl
      · exact (h.tabs tab ht).lost scope inSession other old its gone
      · exact (h.tabs tab ht).lost scope inSession actor ha its gone
    · intro other ho is
      rcases h.mem_updateActor ha ho with ⟨old, -⟩ | rfl
      · exact h.stopped other old is
      · rfl

/-- A command that has been done leaves the queue. -/
theorem Linked.popCommand {command : RuntimeCommand} {commands : List RuntimeCommand} (queue : s.commands = command :: commands)
    (begins : command.begun = none) (done : ∀ tabId, (command.writes tabId).getD (s.sessions tabId) = s.sessions tabId) :
    Linked { s with commands := commands } := by
  have ids : s.sessionIds = CheckSystem.sessionIds { s with commands := commands } := by
    rw [sessionIds, sessionIds, queue, List.filterMap_cons, begins]
  refine { h with fresh := ids ▸ h.fresh, sessionBound := ids ▸ h.sessionBound, tabs := fun tab ht =>
    { h.tabs tab ht with current := ?_ } }
  intro scope inSession
  have was := (h.tabs tab ht).current scope inSession
  rw [queue, settled_cons, done] at was
  exact was

/-- The command that begins a session is done once its task is there. -/
theorem Linked.begin {scope : RemoteEventScope} {commands : List RuntimeCommand}
    (queue : s.commands = .connectTab scope :: commands)
    (free : s.sessions scope.tabId = none) :
    Linked { s with
      commands := commands
      actors := s.actors ++ [{ scope := scope }]
      sessions := fun tabId => if tabId = scope.tabId then some (scope.sessionId, scope.sessionEpoch) else s.sessions tabId } := by
  have ids : s.sessionIds.Perm (commands.filterMap RuntimeCommand.begun ++
      (s.actors ++ [({ scope := scope } : RemoteSessionActor)]).map RemoteSessionActor.sessionId) := by
    rw [sessionIds, queue, List.filterMap_cons, List.map_append]
    change (scope.sessionId :: (_ ++ _)).Perm _
    rw [← List.append_assoc]
    exact (List.perm_append_singleton _ _).symm
  have fresh : ∀ actor ∈ s.actors, actor.scope ≠ scope := by
    rintro actor ha rfl
    have twice := h.fresh
    rw [sessionIds, queue, List.filterMap_cons] at twice
    exact (List.nodup_cons.mp twice).1 (List.mem_append_right _ (List.mem_map.mpr ⟨actor, ha, rfl⟩))
  have older : ∀ {other P}, s.HasActor other P → ∃ actor ∈ s.actors ++ [({ scope := scope } : RemoteSessionActor)],
    actor.scope = other ∧ P actor.phase := by
    rintro other P ⟨actor, ha, its⟩
    exact ⟨actor, List.mem_append_left _ ha, its⟩
  refine { h with
    fresh := ids.nodup_iff.mp h.fresh
    sessionBound := fun id mem => h.sessionBound id (ids.symm.subset mem)
    handles := ?_
    tabs := fun tab ht => { h.tabs tab ht with
      current := ?_
      joined := fun other connected => older ((h.tabs tab ht).joined other connected)
      lost := ?_ }
    joining := fun other mem => older (h.joining other mem)
    ended := fun event mem other fails => older (h.ended event mem other fails)
    stopped := ?_ }
  · intro tabId sessionId epoch handle
    dsimp only at handle
    split_ifs at handle with here
    · cases handle
      exact ⟨{ scope := scope }, List.mem_append_right _ List.mem_cons_self, by rw [here], rfl⟩
    · obtain ⟨actor, ha, its⟩ := h.handles tabId sessionId epoch handle
      exact ⟨actor, List.mem_append_left _ ha, its⟩
  · intro other inSession
    have was := (h.tabs tab ht).current other inSession
    rw [queue, settled_cons] at was
    dsimp only
    split
    · rename_i here
      rw [RuntimeCommand.writes, if_pos here.symm] at was
      exact was
    · rename_i here
      rw [RuntimeCommand.writes, if_neg (Ne.symm here)] at was
      exact was
  · intro other inSession actor ha its gone
    rcases List.mem_append.mp ha with old | new
    · exact (h.tabs tab ht).lost other inSession actor old its gone
    · rw [List.mem_singleton.mp new] at gone
      cases gone
  · intro actor ha is
    rcases List.mem_append.mp ha with old | new
    · exact h.stopped actor old is
    · rw [List.mem_singleton.mp new] at is
      cases is

theorem Linked.routeCheck (command : CheckRemoteEditSnapshotCommand) (mailboxFull : Bool) :
    (s.routeCheckRemoteEditSnapshot command mailboxFull).Linked := by
  have failed : (s.emit [.remoteEditSnapshotDispatchFailed command]).Linked := h.tell (by simp) rfl rfl
  unfold routeCheckRemoteEditSnapshot
  dsimp only
  split
  · exact failed
  split
  · exact failed
  split
  · exact failed
  · rename_i actor found
    obtain ⟨ha, same⟩ := findKey_mem RemoteSessionActor.sessionId found
    split
    · rw [← same]
      exact h.moveActor ha (fun _ => rfl) (fun _ => rfl) id id .inl .inl
    · exact failed

end Runtime

theorem shutdownSession_sessions (s : CheckSystem) (tabId other : TabId) :
    (s.shutdownSession tabId).sessions other = if other = tabId then none else s.sessions other := by
  unfold CheckSystem.shutdownSession
  cases handle : s.sessions tabId with
  | none =>
    by_cases same : other = tabId
    · simp [same, handle]
    · simp [same]
  | some session => rfl

theorem shutdownSession_commands (s : CheckSystem) (tabId : TabId) (commands : List RuntimeCommand) :
    { s with commands := commands }.shutdownSession tabId = { s.shutdownSession tabId with commands := commands } := by
  unfold CheckSystem.shutdownSession
  cases s.sessions tabId <;> rfl

theorem shutdownSession_queue (s : CheckSystem) (tabId : TabId) : (s.shutdownSession tabId).commands = s.commands := by
  unfold CheckSystem.shutdownSession
  cases s.sessions tabId <;> rfl

theorem connectTab_queue (s : CheckSystem) (scope : RemoteEventScope) (commands : List RuntimeCommand) :
    { s with commands := commands }.connectTab scope =
      { s.shutdownSession scope.tabId with
        commands := commands
        actors := (s.shutdownSession scope.tabId).actors ++ [{ scope := scope }]
        sessions := fun tabId => if tabId = scope.tabId then some (scope.sessionId, scope.sessionEpoch)
          else (s.shutdownSession scope.tabId).sessions tabId } := by
  unfold CheckSystem.connectTab
  rw [shutdownSession_commands]

section Dispatch

theorem shutdownAll_commands (s : CheckSystem) (tabIds : List TabId) (commands : List RuntimeCommand) :
    tabIds.foldl CheckSystem.shutdownSession { s with commands := commands } =
      { tabIds.foldl CheckSystem.shutdownSession s with commands := commands } := by
  induction tabIds generalizing s with
  | nil => rfl
  | cons tabId tabIds ih => rw [List.foldl_cons, shutdownSession_commands, ih, List.foldl_cons]

theorem shutdownAll_queue (s : CheckSystem) (tabIds : List TabId) :
    (tabIds.foldl CheckSystem.shutdownSession s).commands = s.commands := by
  induction tabIds generalizing s with
  | nil => rfl
  | cons tabId tabIds ih => rw [List.foldl_cons, ih, shutdownSession_queue]

theorem shutdownAll_sessions (s : CheckSystem) (tabIds : List TabId) (other : TabId) :
    (tabIds.foldl CheckSystem.shutdownSession s).sessions other = if other ∈ tabIds then none else s.sessions other := by
  induction tabIds generalizing s with
  | nil => simp
  | cons tabId tabIds ih =>
    rw [List.foldl_cons, ih, shutdownSession_sessions]
    by_cases later : other ∈ tabIds <;> by_cases now : other = tabId <;> simp [later, now]

theorem Linked.shutdownAll {command : RuntimeCommand} {commands : List RuntimeCommand} {tabIds : List TabId} (h : s.Linked)
    (queue : s.commands = command :: commands) (writes : ∀ tabId ∈ tabIds, command.writes tabId ≠ none) :
    (tabIds.foldl CheckSystem.shutdownSession s).Linked := by
  induction tabIds generalizing s with
  | nil => exact h
  | cons tabId tabIds ih =>
    exact ih (h.shutdownSession queue (writes tabId List.mem_cons_self)) ((shutdownSession_queue s tabId).trans queue)
      fun other mem => writes other (List.mem_cons_of_mem tabId mem)

theorem Linked.closing (h : s.Linked) {command : RuntimeCommand} {commands : List RuntimeCommand}
    (queue : s.commands = command :: commands)
    {tabId : TabId} (begins : command.begun = none)
    (writes : ∀ other, command.writes other = if tabId = other then some none else none) :
    ({ s with commands := commands }.shutdownSession tabId).Linked := by
  rw [shutdownSession_commands]
  have down : (s.shutdownSession tabId).Linked := h.shutdownSession queue (by simp [writes])
  apply down.popCommand ((shutdownSession_queue s tabId).trans queue) begins
  intro other
  rw [writes, shutdownSession_sessions]
  by_cases same : tabId = other
  · simp [same]
  · simp [same]

theorem Linked.dispatch (h : s.Linked) (mailboxFull : Bool) : (s.dispatch mailboxFull).Linked := by
  unfold CheckSystem.dispatch
  cases queue : s.commands with
  | nil => exact h
  | cons command commands =>
    dsimp only
    cases command with
    | connectTab scope =>
      have down : (s.shutdownSession scope.tabId).Linked := h.shutdownSession queue (by simp [RuntimeCommand.writes])
      have free : (s.shutdownSession scope.tabId).sessions scope.tabId = none := by simp [shutdownSession_sessions]
      have begun := down.begin ((shutdownSession_queue s scope.tabId).trans queue) free
      rw [← connectTab_queue] at begun
      exact begun
    | disconnectTab tabId => exact h.closing queue rfl fun _ => rfl
    | closeTab tabId => exact h.closing queue rfl fun _ => rfl
    | closeTabs tabIds =>
      have down : (tabIds.foldl CheckSystem.shutdownSession s).Linked :=
        h.shutdownAll queue (by simp +contextual [RuntimeCommand.writes])
      have closed := down.popCommand ((shutdownAll_queue s tabIds).trans queue) rfl fun other => by
        rw [shutdownAll_sessions, RuntimeCommand.writes]
        split <;> rfl
      rw [← shutdownAll_commands] at closed
      exact closed
    | checkRemoteEditSnapshot command =>
      exact (h.popCommand queue rfl fun _ => rfl).routeCheck command mailboxFull

theorem checkedEvent_plain (scope : RemoteEventScope) (request : CheckRequest) (metadata : Option RemoteSnapshot) :
    (∀ other, checkedEvent scope request metadata ≠ .tabConnected other) ∧ (checkedEvent scope request metadata).fails = none ∧
      (checkedEvent scope request metadata).prompts = none := by
  cases metadata <;> exact ⟨fun _ => nofun, rfl, rfl⟩

theorem Linked.goes (h : s.Linked) {actor : RemoteSessionActor} (ha : actor ∈ s.actors) (phase : ActorPhase)
    (mailbox : List CheckRequest)
    (served : actor.phase.served = true → phase.served = true) (failed : actor.phase = .failed → phase = .failed)
    (lost : phase.disconnected = true → actor.phase.disconnected = true ∨ ∃ reason, .tabDisconnected actor.scope reason ∈ s.events)
    (stopped : phase = .stopped → actor.phase = .stopped ∨ actor.cancelled = true) :
    (s.updateActor actor.sessionId (fun actor => { actor with phase := phase, mailbox := mailbox })).Linked :=
  h.moveActor ha (fun _ => rfl) (fun _ => rfl) served failed lost stopped

theorem Linked.actorMove (h : s.Linked) {actor : RemoteSessionActor} (ha : actor ∈ s.actors) (move : ActorMove) :
    (s.actorMove actor move).Linked := by
  have now : ∀ phase mailbox, (s.updateActor actor.sessionId (fun actor =>
    { actor with phase := phase, mailbox := mailbox })).HasActor
      actor.scope (· = phase) := by
    intro phase mailbox
    rcases h.updateActor_mem (fun actor => { actor with phase := phase, mailbox := mailbox }) ha ha with ⟨-, never⟩ | ⟨-, moved⟩
    · exact absurd rfl never
    · exact ⟨_, moved, rfl, rfl⟩
  cases move with
  | prompts requestId =>
    dsimp only [CheckSystem.actorMove]
    split
    · exact h
    · rename_i unserved
      apply h.emit (by simp) (by simp [RuntimeEvent.fails])
      rintro scope ⟨⟩
      exact ⟨actor, ha, rfl, by simpa using unserved⟩
  | connects =>
    dsimp only [CheckSystem.actorMove]
    split
    · rename_i connecting
      have moved := h.goes ha .serving actor.mailbox (fun _ =>
        rfl) (by simp [connecting]) (by simp [ActorPhase.disconnected]) (by simp)
      apply moved.emit _ (by simp [RuntimeEvent.fails]) (by simp [RuntimeEvent.prompts])
      rintro scope ⟨⟩
      obtain ⟨served, hs, its, is⟩ := now .serving actor.mailbox
      exact ⟨served, hs, its, by rw [is]; rfl⟩
    · exact h
  | fails outcome =>
    dsimp only [CheckSystem.actorMove]
    split
    · exact h
    · rename_i unserved
      have moved := h.goes ha .failed [] (fun served => absurd served unserved) (fun _ =>
        rfl) (by simp [ActorPhase.disconnected]) (by simp)
      cases outcome with
      | hostKeyMismatch error =>
        apply moved.emit (by simp) _ (by simp [RuntimeEvent.prompts])
        rintro scope ⟨⟩
        exact now .failed []
      | authFailed reason =>
        apply moved.emit (by simp) _ (by simp [RuntimeEvent.prompts])
        rintro scope ⟨⟩
        exact now .failed []
      | tabDisconnected reason => exact moved.tell (by simp) rfl rfl
      | silent =>
        have nothing : ∀ s : CheckSystem, s.emit (AttemptOutcome.silent.events actor.scope) = s := by
          intro s
          simp [CheckSystem.emit, AttemptOutcome.events]
        rw [nothing]
        exact moved
  | serves metadata =>
    dsimp only [CheckSystem.actorMove]
    split
    · exact h
    · rename_i request rest waits
      split
      · rename_i serving
        have moved := h.goes ha .serving rest (fun _ => rfl) (by simp [serving]) (by simp [ActorPhase.disconnected]) (by simp)
        obtain ⟨plain, fails, prompts⟩ := checkedEvent_plain actor.scope request metadata
        exact moved.tell plain fails prompts
      · exact h
  | loses reason =>
    dsimp only [CheckSystem.actorMove]
    split
    · rename_i serving
      -- the tab is told first, and then the task is lost
      have told : (s.emit [.tabDisconnected actor.scope reason]).Linked := h.tell (by simp) rfl rfl
      exact told.goes ha .lost actor.mailbox (fun _ => rfl) (by simp [serving])
        (fun _ => .inr ⟨reason, List.mem_append_right _ List.mem_cons_self⟩) (by simp)
    · exact h
  | closes =>
    dsimp only [CheckSystem.actorMove]
    split
    · rename_i lost
      exact h.goes ha .closed [] (fun _ => rfl) (by simp [lost]) (fun _ => .inl (by rw [lost]; rfl)) (by simp)
    · exact h
  | stops =>
    dsimp only [CheckSystem.actorMove]
    split
    · rename_i stop
      exact h.goes ha .stopped [] (fun _ => rfl) (by simp [stop.2]) (by simp [ActorPhase.disconnected]) (fun _ => .inr stop.1)
    · split
      · rename_i stop
        exact h.goes ha .failed [] (by simp [stop.2, ActorPhase.served]) (fun _ =>
          rfl) (by simp [ActorPhase.disconnected]) (by simp)
      · exact h

end Dispatch

theorem Linked.step (h : s.Linked) (op : CheckOp) : (s.step op).Linked := by
  cases op with
  | openTab title => exact h.openTab title
  | closeTab tabId sent => exact h.closeTab tabId sent
  | closeWindow tabIds => exact h.closeWindow tabIds
  | connectWith tabId connectionKey sent => exact h.connectWith tabId connectionKey sent
  | cancelConnect tabId sent => exact h.cancelConnect tabId sent
  | acceptHostKey tabId requestId sent => exact h.acceptHostKey tabId requestId sent
  | rejectHostKey tabId requestId sent => exact h.rejectHostKey tabId requestId sent
  | uploadSelectedEdit id localMtime sent => exact h.uploadSelectedEdit id localMtime sent
  | edit op =>
    dsimp only [CheckSystem.step]
    split
    · exact h.applyEdit op
    · exact h
  | onEvent localMtime now => exact h.onEvent localMtime now
  | release position => exact h.release position
  | dispatch mailboxFull => exact h.dispatch mailboxFull
  | actor sessionId move =>
    dsimp only [CheckSystem.step]
    split
    · exact h
    · rename_i actor found
      exact h.actorMove (findKey_mem RemoteSessionActor.sessionId found).1 move

end CheckSystem

end MacSftp.EditChecks
