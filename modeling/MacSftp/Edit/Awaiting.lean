import MacSftp.Edit.Transitions

namespace MacSftp

open Lib EditSessionStore

/-- The check that a session waits for. -/
def EditSession.awaits (session : EditSession) : Option CheckRemoteEditSnapshotCommand :=
  if session.phase = .checkingRemote then
    session.pendingCheckId.map fun checkId => ⟨session.tabId, session.sessionEpoch, session.id, checkId, session.ioPath⟩
  else none

theorem EditSession.awaits_tab {session : EditSession} {command : CheckRemoteEditSnapshotCommand}
    (waits : session.awaits = some command) :
    command.tabId = session.tabId ∧ command.sessionEpoch = session.sessionEpoch ∧ command.editSessionId = session.id ∧
      command.path = session.ioPath ∧ session.phase = .checkingRemote ∧ session.pendingCheckId = some command.checkId := by
  unfold awaits at waits
  split_ifs at waits with checking
  obtain ⟨checkId, pending, rfl⟩ := Option.map_eq_some_iff.mp waits
  exact ⟨rfl, rfl, rfl, rfl, checking, pending⟩

theorem EditSession.awaits_none {session : EditSession} (other : session.phase ≠ .checkingRemote) : session.awaits = none :=
  if_neg other

namespace EditSessionStore

/-- Whoever waits for a check has waited for it before. -/
def AwaitsFrom (old new : EditSessionStore) : Prop :=
  ∀ after ∈ new.sessions, ∀ command, after.awaits = some command → ∃ before ∈ old.sessions, before.awaits = some command

theorem AwaitsFrom.refl (store : EditSessionStore) : store.AwaitsFrom store := fun session hs _ waits => ⟨session, hs, waits⟩

theorem AwaitsFrom.trans {a b c : EditSessionStore} (h : a.AwaitsFrom b) (k : b.AwaitsFrom c) : a.AwaitsFrom c := by
  intro after ha command waits
  obtain ⟨between, hb, waited⟩ := k after ha command waits
  exact h between hb command waited

theorem awaitsFrom_of_sublist {old new : EditSessionStore} (fewer : List.Sublist new.sessions old.sessions) : old.AwaitsFrom new :=
  fun session hs _ waits => ⟨session, fewer.subset hs, waits⟩

theorem getMut_awaits {store : EditSessionStore} (nodup : (store.sessions.map EditSession.id).Nodup) (id : EditSessionId)
    {f : EditSession → EditSession} (keeps : ∀ session command, (f session).awaits = some command → session.awaits = some command) :
    store.AwaitsFrom (store.getMut id f) := by
  intro after ha command waits
  obtain ⟨before, hb, rfl⟩ := (mem_updateKey EditSession.id id f nodup).mp ha
  refine ⟨before, hb, ?_⟩
  split at waits
  · exact keeps before command waits
  · exact waits

theorem register_awaits {store : EditSessionStore} {session : EditSession} (other : session.phase ≠ .checkingRemote) :
    store.AwaitsFrom (store.register session) := by
  intro after ha command waits
  rcases List.mem_append.mp ha with old | new
  · exact ⟨after, old, waits⟩
  · rw [List.mem_singleton.mp new, EditSession.awaits_none other] at waits
    cases waits

theorem updateEpochForTab_awaits (store : EditSessionStore) (tab : TabId) (epoch : Nat) :
    ∀ after ∈ (store.updateEpochForTab tab epoch).sessions, ∀ command, after.awaits = some command →
      after ∈ store.sessions ∧ command.tabId ≠ tab := by
  intro after ha command waits
  obtain ⟨before, hb, rfl⟩ := List.mem_map.mp ha
  by_cases mine : before.tabId = tab
  · rw [if_pos mine] at waits
    have unchecked : (if before.phase = .checkingRemote then before.reverted else before).phase ≠ .checkingRemote := by
      split
      · simp [EditSession.reverted]
      · assumption
    exact absurd (EditSession.awaits_tab waits).2.2.2.2.1 unchecked
  · rw [if_neg mine] at waits ⊢
    exact ⟨hb, (EditSession.awaits_tab waits).1 ▸ mine⟩

end EditSessionStore

namespace RemoteEditLifecycle

variable {l : RemoteEditLifecycle}

theorem startDownload_awaits (pending : PendingEdit) : l.store.AwaitsFrom (l.startDownload pending).1.store := by
  unfold startDownload
  split
  · exact .refl _
  · show AwaitsFrom l.store.takeNextId.1 _
    exact register_awaits (by simp [downloadSession])

theorem reapTab_awaits (tab : TabId) : l.store.AwaitsFrom (l.reapTab tab).1.store := awaitsFrom_of_sublist List.filter_sublist

theorem beginDedup_awaits (pending : PendingEdit) (isTabLive : TabId → Bool) (reaped : List EditEffect) :
    l.store.AwaitsFrom (l.beginDedup pending isTabLive reaped).1.store := by
  unfold beginDedup
  split
  · exact .refl _
  · split
    · exact .refl _
    · exact reapTab_awaits _

theorem begin_awaits (pending : PendingEdit) (isTabLive : TabId → Bool) :
    l.store.AwaitsFrom (l.begin pending isTabLive).1.store := by
  unfold begin
  split
  · exact beginDedup_awaits _ _ _
  · split
    · exact beginDedup_awaits _ _ _
    · split
      · exact .refl _
      · exact (reapTab_awaits _).trans (beginDedup_awaits _ _ _)

theorem abortDownload_awaits (id : EditSessionId) : l.store.AwaitsFrom (l.abortDownload id).1.store := by
  unfold abortDownload
  split
  · exact .refl _
  · split
    · exact .refl _
    · exact awaitsFrom_of_sublist List.eraseP_sublist

theorem discardLocal_awaits (session : EditSession) : l.store.AwaitsFrom (l.discardLocal session).1.store := by
  have removed : l.store.AwaitsFrom (l.store.remove session.id) := awaitsFrom_of_sublist List.eraseP_sublist
  unfold discardLocal
  dsimp only
  split <;> exact removed.trans (startDownload_awaits (l := { l with store := l.store.remove session.id }) _)

section Unique

variable (nodup : (l.store.sessions.map EditSession.id).Nodup)

include nodup

/-- A session that is moved to another phase waits for nothing. -/
theorem getMut_phase_awaits (id : EditSessionId) {f : EditSession → EditSession}
    (phase : ∀ session, (f session).phase ≠ .checkingRemote) :
    l.store.AwaitsFrom (l.store.getMut id f) :=
  getMut_awaits nodup id fun session command waits => by
    rw [EditSession.awaits_none (phase session)] at waits
    cases waits

theorem revertCheck_awaits (id : EditSessionId) : l.store.AwaitsFrom (l.revertCheck id).store :=
  getMut_phase_awaits nodup id fun _ => by simp [EditSession.reverted]

theorem onCheckResult_awaits (result : EditCheckResult) (mtime : Option Timestamp) :
    l.store.AwaitsFrom (l.onCheckResult result mtime).1.store := by
  unfold onCheckResult
  split
  · exact .refl _
  split
  · exact .refl _
  split
  · exact revertCheck_awaits nodup _
  split
  · split <;> exact getMut_phase_awaits nodup _ fun _ => by simp
  · exact revertCheck_awaits nodup _

theorem onTransferFinished_awaits (finished : EditTransferFinished) (facts : Option LocalFileFacts) :
    l.store.AwaitsFrom (l.onTransferFinished finished facts).1.store := by
  unfold onTransferFinished
  split
  · exact .refl _
  split
  · exact .refl _
  split
  · exact .refl _
  split
  · split
    · exact getMut_phase_awaits nodup _ fun _ => by simp
    · exact awaitsFrom_of_sublist List.eraseP_sublist
  · split <;> exact getMut_phase_awaits nodup _ fun _ => by simp
  · exact .refl _

theorem resolveConflict_awaits (id : EditSessionId) (choice : ConflictChoice) :
    l.store.AwaitsFrom (l.resolveConflict id choice).1.store := by
  unfold resolveConflict
  split
  · exact .refl _
  split
  · exact .refl _
  cases choice with
  | overwrite => exact getMut_phase_awaits nodup _ fun _ => by simp
  | discardLocal => exact discardLocal_awaits _
  | later => exact getMut_phase_awaits nodup _ fun _ => by simp

theorem dispatchFailed_awaits (id : EditSessionId) (rollback : DispatchRollback) :
    l.store.AwaitsFrom (l.dispatchFailed id rollback).1.store := by
  cases rollback with
  | revertCheck => exact revertCheck_awaits nodup id
  | restoreConflict =>
    apply getMut_awaits nodup
    intro session command waits
    split at waits
    · cases waits
    · exact waits
  | abortDownload => exact abortDownload_awaits id

theorem recordLocalModified_awaits (id : EditSessionId) (path : LocalPath) (facts : Option LocalFileFacts) :
    l.store.AwaitsFrom (l.recordLocalModified id path facts).1.store := by
  unfold recordLocalModified
  split
  · exact .refl _
  · split_ifs
    · exact .refl _
    · exact .refl _
    · exact getMut_awaits nodup _ fun _ _ waits => waits

theorem adoptListingBaselines_awaits (tab : TabId) (listing : List (RemotePath × RemoteSnapshot)) :
    l.store.AwaitsFrom (l.adoptListingBaselines tab listing).store := by
  have fold : ∀ (adoptions : List (EditSessionId × RemoteSnapshot)) (store : EditSessionStore),
      (store.sessions.map EditSession.id).Nodup →
      store.AwaitsFrom (adoptions.foldl (fun store adoption =>
        store.getMut adoption.1 (fun s => { s with remoteSnapshot := adoption.2 })) store) := by
    intro adoptions
    induction adoptions with
    | nil => exact fun store _ => .refl store
    | cons adoption rest ih =>
      intro store nodup
      have first : store.AwaitsFrom (store.getMut adoption.1 (fun s => { s with remoteSnapshot := adoption.2 })) :=
        getMut_awaits nodup _ fun _ _ waits => waits
      have ids : (store.getMut adoption.1 (fun s => { s with remoteSnapshot := adoption.2 })).sessions.map EditSession.id =
          store.sessions.map EditSession.id := by
        apply updateKey_map
        exact fun _ => rfl
      exact first.trans (ih _ (ids ▸ nodup))
  exact fold _ _ nodup

/-- Only a request for an upload has a session wait for a check. -/
theorem apply_awaits {op : EditOp} (other : op.isRequest = false) : l.store.AwaitsFrom (l.apply op).1.store := by
  cases op with
  | begin pending isTabLive => exact begin_awaits pending isTabLive
  | startDownload pending => exact startDownload_awaits pending
  | abortDownload id => exact abortDownload_awaits id
  | requestUpload id epoch key mtime => cases other
  | revertCheck id => exact revertCheck_awaits nodup id
  | onCheckResult result mtime => exact onCheckResult_awaits nodup result mtime
  | onTransferFinished finished facts => exact onTransferFinished_awaits nodup finished facts
  | resolveConflict id choice => exact resolveConflict_awaits nodup id choice
  | dispatchFailed id rollback => exact dispatchFailed_awaits nodup id rollback
  | recordLocalModified id path facts => exact recordLocalModified_awaits nodup id path facts
  | adoptListingBaselines tab listing => exact adoptListingBaselines_awaits nodup tab listing
  | updateEpochForTab tab epoch =>
    exact fun after ha command waits => ⟨after, (updateEpochForTab_awaits l.store tab epoch after ha command waits).1, waits⟩
  | removeForTab tab => exact awaitsFrom_of_sublist List.filter_sublist

/-- The answer that a session waits for ends its check, whatever it says. -/
theorem onCheckResult_answers {session : EditSession} (hs : session ∈ l.store.sessions) (checks : session.ChecksAgree)
    {command : CheckRemoteEditSnapshotCommand} (waits : session.awaits = some command) (outcome : EditCheckOutcome)
    (mtime : Option Timestamp) :
    ∀ after ∈ (l.onCheckResult ⟨command.tabId, command.sessionEpoch, command.editSessionId, command.checkId, command.path, outcome⟩
      mtime).1.store.sessions, after.awaits ≠ some command := by
  obtain ⟨tab, epoch, id, path, checking, pending⟩ := EditSession.awaits_tab waits
  have found : l.store.get command.editSessionId = some session := (findKey_iff EditSession.id nodup).mpr ⟨hs, id.symm⟩
  have applies : applicable session ⟨command.tabId, command.sessionEpoch, command.editSessionId, command.checkId,
    command.path, outcome⟩ = true := by
    simp [applicable, tab, epoch, path, checking, pending, checks.2.mpr checking]
  have gone : ∀ f : EditSession → EditSession, (∀ session, (f session).phase ≠ .checkingRemote) →
      ∀ after ∈ (l.store.getMut command.editSessionId f).sessions, after.awaits ≠ some command := by
    intro f phase after ha still
    obtain ⟨before, hb, rfl⟩ := (mem_updateKey EditSession.id _ f nodup).mp ha
    split at still
    · rw [EditSession.awaits_none (phase before)] at still
      cases still
    · rename_i other
      exact other (EditSession.awaits_tab still).2.2.1.symm
  have reverts : ∀ session : EditSession, session.reverted.phase ≠ .checkingRemote := fun _ => by simp [EditSession.reverted]
  unfold onCheckResult
  rw [found]
  dsimp only
  rw [applies]
  simp only [not_true, if_false]
  split
  · exact gone _ reverts
  cases outcome with
  | matched snapshot =>
    dsimp only
    split
    · exact gone _ (by simp)
    · exact gone _ (by simp)
  | failed => exact gone _ reverts

/-- Whoever waits after a request has waited before, or is the session that the request is for. -/
theorem requestUpload_awaits {id : EditSessionId} {epoch : Nat} {key : ConnectionKey} {mtime : Timestamp} :
    ∀ after ∈ (l.requestUpload id epoch key mtime).1.store.sessions, ∀ command, after.awaits = some command →
      after ∈ l.store.sessions ∨ (l.requestUpload id epoch key mtime).2 = .check command ∧ command.editSessionId = id ∧
        command.sessionEpoch = epoch ∧
        ∃ session ∈ l.store.sessions, session.id = id ∧ command.tabId = session.tabId := by
  intro after ha command waits
  rcases requestUpload_cases (l := l) id epoch key mtime with ⟨notice, refused⟩ | ⟨session, hs, same, issued⟩
  · rw [refused] at ha
    exact .inl ha
  · rw [issued] at ha ⊢
    obtain ⟨before, hb, rfl⟩ := (mem_updateKey EditSession.id id _ nodup).mp ha
    split at waits
    · rename_i mine
      right
      have is := key_unique EditSession.id nodup hb hs (mine.trans same.symm)
      subst is
      have its : (⟨before.tabId, epoch, before.id, ⟨l.store.nextCheckId⟩,
        before.ioPath⟩ : CheckRemoteEditSnapshotCommand) = command := by
        simpa [EditSession.awaits, markChecking] using waits
      subst its
      exact ⟨by rw [same], same, rfl, before, hb, same, rfl⟩
    · rename_i other
      rw [if_neg other]
      exact .inl hb

end Unique

end RemoteEditLifecycle

end MacSftp
