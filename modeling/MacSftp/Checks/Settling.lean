import MacSftp.Checks.Answers
import MacSftp.Lib.Progress

namespace MacSftp.EditChecks

open Lib Tabs

namespace CheckSystem

/-- A step that takes on something that is under way. -/
def progresses (s : CheckSystem) : CheckOp → Bool
  | .release position => position < s.parked.length
  | .dispatch _ => !s.commands.isEmpty
  | .onEvent _ _ => !s.events.isEmpty
  | .actor sessionId (.serves _) =>
    (findKey RemoteSessionActor.sessionId sessionId s.actors).any fun actor => actor.phase = .serving ∧ actor.mailbox ≠ []
  | _ => false

def requests (s : CheckSystem) : Nat := (s.actors.map (fun actor => actor.mailbox.length)).sum

/-- A parked send becomes a command, a command a request, and a request an event. -/
def work (s : CheckSystem) : Nat := 4 * s.parked.length + 3 * s.commands.length + 2 * s.requests + s.events.length

structure Sound (s : CheckSystem) : Prop where
  linked : s.Linked
  valid : s.edits.store.Valid
  answered : s.Answered

variable {s : CheckSystem}

theorem new_sound (editsDir : LocalPath) (runId : List Char) : (new editsDir runId).Sound where
  linked := new_linked editsDir runId
  valid := RemoteEditLifecycle.new_valid editsDir runId
  answered := fun _ never => absurd never List.not_mem_nil

section Valid

variable (valid : s.edits.store.Valid)

include valid

theorem applyEdit_valid (op : EditOp) : (s.applyEdit op).edits.store.Valid := RemoteEditLifecycle.apply_valid valid op

theorem removeForTabs_valid (tabIds : List TabId) :
    (tabIds.foldl (fun s tabId => s.applyEdit (.removeForTab tabId)) s).edits.store.Valid := by
  induction tabIds generalizing s with
  | nil => exact valid
  | cons tabId tabIds ih => exact ih (applyEdit_valid valid _)

theorem rejectHostKey_valid (tabId : TabId) (requestId : Nat) (sent : Bool) :
    (s.rejectHostKey tabId requestId sent).edits.store.Valid := by
  unfold CheckSystem.rejectHostKey
  split <;> exact valid

theorem uploadSelectedEdit_valid (id : EditSessionId) (localMtime : Option Timestamp) (sent : Bool) :
    (s.uploadSelectedEdit id localMtime sent).edits.store.Valid := by
  unfold CheckSystem.uploadSelectedEdit
  split
  · exact valid
  split
  · exact valid
  split
  · dsimp only
    split
    · split
      · exact applyEdit_valid valid _
      · exact applyEdit_valid (applyEdit_valid valid _) _
    · exact applyEdit_valid valid _
  · exact valid

theorem handleEvent_valid (localMtime : Option Timestamp) (now : Timestamp) (event : RuntimeEvent) :
    (s.handleEvent localMtime now event).edits.store.Valid := by
  have window : ∀ scope f, (s.handleWindowEvent scope f).edits.store.Valid := fun scope f => by
    rw [(handleWindowEvent_rest s scope f).2.2.2]
    exact valid
  have check : ∀ scope result, (s.applyRemoteEditCheckEvent scope result localMtime).edits.store.Valid := fun scope result => by
    unfold CheckSystem.applyRemoteEditCheckEvent
    split
    · exact valid
    · split
      · exact valid
      · exact applyEdit_valid valid _
  cases event with
  | hostKeyUnknown | hostKeyMismatch | authFailed | tabConnected => exact window _ _
  | tabDisconnected scope reason =>
    dsimp only [handleEvent]
    split
    · exact applyEdit_valid (window _ _) _
    · exact valid
  | remoteEditSnapshotChecked | remoteEditSnapshotCheckFailed | remoteEditSnapshotDispatchFailed => exact check _ _

theorem shutdownAll_valid (tabIds : List TabId) : (tabIds.foldl CheckSystem.shutdownSession s).edits.store.Valid := by
  rw [(shutdownAll_rest s tabIds).2]
  exact valid

theorem actorMove_valid (actor : RemoteSessionActor) (move : ActorMove) : (s.actorMove actor move).edits.store.Valid := by
  cases move with
  | serves metadata =>
    dsimp only [CheckSystem.actorMove]
    split
    · exact valid
    · split <;> exact valid
  | stops =>
    dsimp only [CheckSystem.actorMove]
    split
    · exact valid
    · split <;> exact valid
  | prompts | connects | fails | loses | closes =>
    dsimp only [CheckSystem.actorMove]
    split <;> exact valid

theorem dispatch_valid (mailboxFull : Bool) : (s.dispatch mailboxFull).edits.store.Valid := by
  unfold CheckSystem.dispatch
  cases s.commands with
  | nil => exact valid
  | cons command commands =>
    dsimp only
    cases command with
    | connectTab scope =>
      change (shutdownSession { s with commands := commands } scope.tabId).edits.store.Valid
      rw [(shutdownSession_rest _ scope.tabId).2.1]
      exact valid
    | disconnectTab tabId | closeTab tabId =>
      dsimp only
      rw [(shutdownSession_rest _ tabId).2.1]
      exact valid
    | closeTabs tabIds =>
      apply shutdownAll_valid
      exact valid
    | checkRemoteEditSnapshot command =>
      dsimp only
      rw [(routeCheck_rest _ command mailboxFull).2]
      exact valid

theorem step_valid (op : CheckOp) : (s.step op).edits.store.Valid := by
  cases op with
  | openTab title => exact valid
  | closeTab tabId sent =>
    dsimp only [CheckSystem.step, CheckSystem.closeTab]
    split
    · exact valid
    · split <;> exact applyEdit_valid valid _
  | closeWindow tabIds =>
    apply removeForTabs_valid
    exact valid
  | connectWith tabId connectionKey sent =>
    dsimp only [CheckSystem.step, CheckSystem.connectWith]
    split
    · exact valid
    · split
      · exact valid
      · split
        · exact applyEdit_valid valid _
        · exact valid
  | cancelConnect tabId sent =>
    dsimp only [CheckSystem.step, CheckSystem.cancelConnect]
    split
    · exact valid
    split
    · exact rejectHostKey_valid valid _ _ _
    · split <;> exact valid
    · split <;> exact valid
    · exact valid
  | acceptHostKey tabId requestId sent =>
    dsimp only [CheckSystem.step, CheckSystem.acceptHostKey]
    split <;> exact valid
  | rejectHostKey tabId requestId sent => exact rejectHostKey_valid valid tabId requestId sent
  | uploadSelectedEdit id localMtime sent => exact uploadSelectedEdit_valid valid id localMtime sent
  | edit op =>
    dsimp only [CheckSystem.step]
    split
    · exact applyEdit_valid valid op
    · exact valid
  | onEvent localMtime now =>
    dsimp only [CheckSystem.step, CheckSystem.onEvent]
    split
    · exact valid
    · apply handleEvent_valid
      exact valid
  | release position =>
    dsimp only [CheckSystem.step, CheckSystem.release]
    split <;> exact valid
  | dispatch mailboxFull => exact dispatch_valid valid mailboxFull
  | actor sessionId move =>
    dsimp only [CheckSystem.step]
    split
    · exact valid
    · exact actorMove_valid valid _ move

end Valid

theorem besidesChecks_request {op : EditOp} (besides : besidesChecks op = true) : op.isRequest = false := by
  cases op <;> first | rfl | cases besides

theorem Sound.step (sound : s.Sound) (op : CheckOp) : (s.step op).Sound := by
  obtain ⟨linked, valid, h⟩ := sound
  refine ⟨linked.step op, step_valid valid op, ?_⟩
  cases op with
  | openTab title => exact h.openTab title
  | closeTab tabId sent => exact h.closeTab tabId sent
  | closeWindow tabIds => exact h.closeWindow linked tabIds
  | connectWith tabId connectionKey sent => exact h.connectWith linked tabId connectionKey sent
  | cancelConnect tabId sent => exact h.cancelConnect linked tabId sent
  | acceptHostKey tabId requestId sent => exact h.acceptHostKey linked tabId requestId sent
  | rejectHostKey tabId requestId sent => exact h.rejectHostKey linked tabId requestId sent
  | uploadSelectedEdit id localMtime sent => exact h.uploadSelectedEdit valid id localMtime sent
  | edit op =>
    dsimp only [CheckSystem.step]
    split
    · rename_i besides
      exact h.edits valid (besidesChecks_request besides)
    · exact h
  | onEvent localMtime now => exact h.onEvent linked valid localMtime now
  | release position => exact h.release position
  | dispatch mailboxFull => exact h.dispatch linked mailboxFull
  | actor sessionId move =>
    dsimp only [CheckSystem.step]
    split
    · exact h
    · rename_i actor found
      exact h.actorMove linked (findKey_mem RemoteSessionActor.sessionId found).1 move

theorem run_sound (editsDir : LocalPath) (runId : List Char) (ops : List CheckOp) : (machine.run (new editsDir runId) ops).Sound :=
  machine.run_invariant (fun _ op sound => sound.step op) (new_sound editsDir runId) ops

/-- When nothing is under way, nobody waits. -/
theorem Sound.drained (sound : s.Sound) (commands : s.commands = []) (events : s.events = [])
    (served : ∀ actor ∈ s.actors, actor.phase = .serving → actor.mailbox = []) :
    ∀ session ∈ s.edits.store.sessions, session.phase ≠ .checkingRemote := by
  intro session hs checking
  obtain ⟨pending, -⟩ := sound.valid.checks session hs
  obtain ⟨checkId, issued⟩ := Option.isSome_iff_exists.mp (pending.mpr checking)
  have waits : session.awaits = some ⟨session.tabId, session.sessionEpoch, session.id, checkId, session.ioPath⟩ := by
    simp [EditSession.awaits, checking, issued]
  obtain ⟨scope, ⟨-, -, tab, ht, connected⟩, under⟩ := sound.answered session hs _ waits
  rcases under with queued | ⟨actor, ha, its, held⟩ | ⟨event, he, -⟩
  · simp [commands] at queued
  · obtain ⟨-, -, other, ho, same, -, hasServed, running⟩ := sound.linked.connected_handle ht connected
    have is : actor = other := sound.linked.actor_unique ha ho (congrArg RemoteEventScope.sessionId (its.trans same.symm))
    subst is
    have told := (sound.linked.tabs tab ht).lost scope connected.inSession actor ha its
    cases phase : actor.phase with
    | serving => simp [served actor ha phase] at held
    | connecting | failed => simp [phase, ActorPhase.served] at hasServed
    | stopped => exact running phase
    | lost | closed =>
      obtain ⟨reason, mem⟩ := told (by rw [phase]; rfl)
      simp [events] at mem
  · simp [events] at he

section Work

theorem shutdownSession_work (s : CheckSystem) (tabId : TabId) : (s.shutdownSession tabId).work = s.work := by
  unfold CheckSystem.shutdownSession
  cases s.sessions tabId with
  | none => rfl
  | some session =>
    have same : ∀ sessionId : SessionId, (updateKey RemoteSessionActor.sessionId sessionId (fun actor =>
      { actor with cancelled := true }) s.actors).map
        (fun actor => actor.mailbox.length) = s.actors.map (fun actor => actor.mailbox.length) := by
      intro sessionId
      apply updateKey_map
      exact fun _ => rfl
    simp only [work, requests, CheckSystem.updateActor, same]

theorem shutdownAll_work (s : CheckSystem) (tabIds : List TabId) : (tabIds.foldl CheckSystem.shutdownSession s).work = s.work := by
  induction tabIds generalizing s with
  | nil => rfl
  | cons tabId tabIds ih => rw [List.foldl_cons, ih, shutdownSession_work]

theorem connectTab_work (s : CheckSystem) (scope : RemoteEventScope) : (s.connectTab scope).work = s.work := by
  rw [← shutdownSession_work s scope.tabId]
  simp [CheckSystem.connectTab, work, requests]

theorem emit_work (s : CheckSystem) (events : List RuntimeEvent) : (s.emit events).work = s.work + events.length := by
  simp only [work, requests, CheckSystem.emit, List.length_append]
  omega

theorem updateActor_work {actor : RemoteSessionActor} {sessionId : SessionId}
    (found : findKey RemoteSessionActor.sessionId sessionId s.actors = some actor) (f : RemoteSessionActor → RemoteSessionActor) :
    (s.updateActor sessionId f).work + 2 * actor.mailbox.length = s.work + 2 * (f actor).mailbox.length := by
  have sum := sum_updateKey (fun actor : RemoteSessionActor => actor.mailbox.length) (f := f) found
  simp only [work, requests, CheckSystem.updateActor]
  omega

theorem routeCheck_work (s : CheckSystem) (command : CheckRemoteEditSnapshotCommand) (mailboxFull : Bool) :
    (s.routeCheckRemoteEditSnapshot command mailboxFull).work ≤ s.work + 2 := by
  have failed : (s.emit [.remoteEditSnapshotDispatchFailed command]).work ≤ s.work + 2 := by simp [emit_work]
  unfold routeCheckRemoteEditSnapshot
  dsimp only
  split
  · exact failed
  split
  · exact failed
  split
  · exact failed
  · rename_i actor found
    split
    · have grown := updateActor_work found (fun actor => { actor with mailbox := actor.mailbox ++ [requestOf command] })
      simp only [List.length_append, List.length_singleton] at grown
      omega
    · exact failed

theorem handleEvent_parked (localMtime : Option Timestamp) (now : Timestamp) (event : RuntimeEvent) :
    (s.handleEvent localMtime now event).parked = s.parked := by
  have window : ∀ scope f, (s.handleWindowEvent scope f).parked = s.parked := fun scope f => by
    unfold CheckSystem.handleWindowEvent
    split <;> rfl
  have check : ∀ scope result, (s.applyRemoteEditCheckEvent scope result localMtime).parked = s.parked := fun scope result => by
    unfold CheckSystem.applyRemoteEditCheckEvent
    split
    · rfl
    · split <;> rfl
  cases event with
  | hostKeyUnknown | hostKeyMismatch | authFailed | tabConnected => exact window _ _
  | tabDisconnected scope reason =>
    dsimp only [handleEvent]
    split
    · exact window _ _
    · rfl
  | remoteEditSnapshotChecked | remoteEditSnapshotCheckFailed | remoteEditSnapshotDispatchFailed => exact check _ _

/-- Every step that takes on something leaves less to do. -/
theorem step_work {op : CheckOp} (progress : s.progresses op = true) : (s.step op).work < s.work := by
  cases op with
  | release position =>
    have waits : position < s.parked.length := of_decide_eq_true progress
    have shorter : (s.parked.eraseIdx position).length + 1 = s.parked.length := by
      rw [List.length_eraseIdx_of_lt waits]
      omega
    dsimp only [CheckSystem.step, CheckSystem.release]
    rw [List.getElem?_eq_getElem waits]
    simp only [work, requests, CheckSystem.post, List.length_append, List.length_singleton]
    omega
  | dispatch mailboxFull =>
    dsimp only [CheckSystem.step, CheckSystem.dispatch]
    cases queue : s.commands with
    | nil => simp [progresses, queue] at progress
    | cons command commands =>
      have popped : work { s with commands := commands } + 3 = s.work := by
        simp only [work, requests, queue, List.length_cons]
        omega
      dsimp only
      cases command with
      | connectTab scope =>
        dsimp only
        rw [connectTab_work]
        omega
      | disconnectTab tabId | closeTab tabId =>
        dsimp only
        rw [shutdownSession_work]
        omega
      | closeTabs tabIds =>
        dsimp only
        rw [shutdownAll_work]
        omega
      | checkRemoteEditSnapshot command =>
        have routed := routeCheck_work { s with commands := commands } command mailboxFull
        dsimp only
        omega
  | onEvent localMtime now =>
    dsimp only [CheckSystem.step, CheckSystem.onEvent]
    cases queue : s.events with
    | nil => simp [progresses, queue] at progress
    | cons event events =>
      obtain ⟨commands, actors, rest⟩ := handleEvent_rest (s := { s with events := events }) localMtime now event
      have parked := handleEvent_parked (s := { s with events := events }) localMtime now event
      simp only [work, requests, commands, actors, rest, parked, queue, List.length_cons]
      omega
  | actor sessionId move =>
    cases move with
    | serves metadata =>
      dsimp only [CheckSystem.step]
      cases found : findKey RemoteSessionActor.sessionId sessionId s.actors with
      | none => simp [progresses, found] at progress
      | some actor =>
        have named := (findKey_mem RemoteSessionActor.sessionId found).2
        simp only [progresses, found, Option.any_some, decide_eq_true_eq] at progress
        obtain ⟨serving, held⟩ := progress
        obtain ⟨request, rest, waiting⟩ := List.exists_cons_of_ne_nil held
        have served := updateActor_work found (fun actor => { actor with phase := .serving, mailbox := rest })
        dsimp only [CheckSystem.actorMove]
        rw [waiting, named]
        simp only [serving, if_true, emit_work, List.length_singleton]
        rw [waiting] at served
        simp only [List.length_cons] at served
        omega
    | prompts | connects | fails | loses | closes | stops => cases progress
  | openTab | closeTab | closeWindow | connectWith | cancelConnect | acceptHostKey | rejectHostKey | uploadSelectedEdit | edit =>
    cases progress

theorem Linked.idle (linked : s.Linked) (idle : ∀ op, s.progresses op = false) :
    s.commands = [] ∧ s.events = [] ∧ ∀ actor ∈ s.actors, actor.phase = .serving → actor.mailbox = [] := by
  refine ⟨?_, ?_, fun actor ha serving => ?_⟩
  · simpa [progresses] using idle (.dispatch false)
  · simpa [progresses] using idle (.onEvent none (.fromSecsSinceEpoch 0))
  · have nodup : (s.actors.map RemoteSessionActor.sessionId).Nodup := (List.nodup_append.mp linked.fresh).2.1
    have found := findKey_of_mem RemoteSessionActor.sessionId nodup ha
    have still := idle (.actor actor.sessionId (.serves none))
    simpa [progresses, found, serving] using still

theorem idle_of_drained (parked : s.parked = []) (commands : s.commands = []) (events : s.events = [])
    (served : ∀ actor ∈ s.actors, actor.phase = .serving → actor.mailbox = []) : ∀ op, s.progresses op = false := by
  intro op
  cases op with
  | release position => simp [progresses, parked]
  | dispatch mailboxFull => simp [progresses, commands]
  | onEvent localMtime now => simp [progresses, events]
  | actor sessionId move =>
    cases move with
    | serves metadata =>
      dsimp only [progresses]
      cases found : findKey RemoteSessionActor.sessionId sessionId s.actors with
      | none => rfl
      | some actor =>
        have free := served actor (findKey_mem RemoteSessionActor.sessionId found).1
        simpa using free
    | prompts | connects | fails | loses | closes | stops => rfl
  | openTab | closeTab | closeWindow | connectWith | cancelConnect | acceptHostKey
  | rejectHostKey | uploadSelectedEdit | edit => rfl

end Work

/-- Whoever checks the server has its answer under way, in every run of the windows, the runtime and the session tasks.
Whatever is under way is worked off in finitely many steps, and then nobody checks any more. -/
theorem edit_checks_are_answered (editsDir : LocalPath) (runId : List Char) (ops : List CheckOp) :
    let s := machine.run (new editsDir runId) ops
    (∀ session ∈ s.edits.store.sessions, session.phase = .checkingRemote →
      ∃ command scope, session.awaits = some command ∧ s.Current scope command ∧ s.UnderWay scope command) ∧
    ∀ more, machine.Admissible (fun s op => s.progresses op = true) s more →
      more.length ≤ s.work ∧ ((∀ op, (machine.run s more).progresses op = false) →
        ∀ session ∈ (machine.run s more).edits.store.sessions, session.phase ≠ .checkingRemote) := by
  intro s
  have sound : s.Sound := run_sound editsDir runId ops
  refine ⟨?_, ?_⟩
  · intro session hs checking
    obtain ⟨pending, -⟩ := sound.valid.checks session hs
    obtain ⟨checkId, issued⟩ := Option.isSome_iff_exists.mp (pending.mpr checking)
    have waits : session.awaits = some ⟨session.tabId, session.sessionEpoch, session.id, checkId, session.ioPath⟩ := by
      simp [EditSession.awaits, checking, issued]
    obtain ⟨scope, current, under⟩ := sound.answered session hs _ waits
    exact ⟨_, scope, waits, current, under⟩
  · intro more progress
    have bounded := machine.length_le_work (I := Sound) (fun _ op _ sound => sound.step op)
      (fun _ _ takes _ => step_work takes) sound more progress
    refine ⟨by omega, fun idle => ?_⟩
    have after : (machine.run s more).Sound := machine.run_invariant (I := Sound) (fun _ op sound => sound.step op) sound more
    obtain ⟨commands, events, served⟩ := after.linked.idle idle
    exact after.drained commands events served

end CheckSystem

/-- A file is edited in a connected tab and is about to be uploaded. -/
def editingRun : List CheckOp :=
  [.openTab "srv", .connectWith ⟨1⟩ ⟨"srv", 22, "alex", .ephemeral ⟨1⟩⟩ true, .dispatch false, .actor ⟨1⟩ .connects,
    .onEvent none (.fromSecsSinceEpoch 1),
    .edit (.startDownload ⟨.new "/notes.txt", .new "/notes.txt", some 10, some (.fromSecsSinceEpoch 100), 1,
      ⟨"srv", 22, "alex", .ephemeral ⟨1⟩⟩, ⟨1⟩, ⟨1⟩⟩),
    .edit (.onTransferFinished ⟨.download, .remote (.new "/notes.txt"), .local (.new "/e/r/1/notes.txt"), true⟩ none),
    .uploadSelectedEdit ⟨1⟩ (some (.fromSecsSinceEpoch 200)) true]

/-- The check is routed, the connection is lost before it is served, and the tab hears of it. -/
def lostCheck : List CheckOp := [.dispatch false, .actor ⟨1⟩ (.loses .connectionLost), .actor ⟨1⟩ .closes]

theorem edit_check_is_answered_after_loss :
    let start := CheckSystem.new (.new "/e") ['r']
    (CheckSystem.machine.run start editingRun).edits.store.sessions.map EditSession.phase = [.checkingRemote] ∧
      ∀ session ∈ (CheckSystem.machine.run (CheckSystem.machine.run start (editingRun ++ lostCheck))
        [.onEvent none (.fromSecsSinceEpoch 2)]).edits.store.sessions, session.phase ≠ .checkingRemote := by
  refine ⟨by decide, ?_⟩
  refine ((CheckSystem.edit_checks_are_answered (.new "/e") ['r'] (editingRun ++ lostCheck)).2
    [.onEvent none (.fromSecsSinceEpoch 2)] ⟨by decide, trivial⟩).2 ?_
  exact CheckSystem.idle_of_drained (by decide) (by decide) (by decide) (by decide)

end MacSftp.EditChecks
