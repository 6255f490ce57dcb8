import MacSftp.Edit.Operations

namespace MacSftp

open Lib EditSessionStore

namespace EditSessionStore

def Registered (old new : EditSessionStore) : Prop :=
  ∃ mid session, old.Carried mid ∧ session.id = ⟨mid.nextId⟩ ∧ session.Unchecked ∧
    new = mid.takeNextId.1.register session

def markChecking (epoch : Nat) (check : EditCheckId) (mtime : Timestamp) (s : EditSession) : EditSession :=
  { s with phase := .checkingRemote, sessionEpoch := epoch, pendingCheckId := some check,
           checkingLocalMtime := some mtime }

theorem get_mem {store : EditSessionStore} {id : EditSessionId} {s : EditSession} (h : store.get id = some s) :
    s ∈ store.sessions ∧ s.id = id := findKey_mem EditSession.id h

end EditSessionStore

namespace RemoteEditLifecycle

variable {l : RemoteEditLifecycle}

theorem revertCheck_carried (nodup : (l.store.sessions.map EditSession.id).Nodup) (id : EditSessionId) :
    l.store.Carried (l.revertCheck id).store :=
  getMut_carried _ _ nodup fun s _ _ =>
    ⟨rfl, .inr ⟨rfl, rfl, by simp [EditSession.reverted]⟩⟩

theorem abortDownload_carried (id : EditSessionId) : l.store.Carried (l.abortDownload id).1.store := by
  unfold abortDownload
  split
  · exact .refl _
  · split
    · exact .refl _
    · exact remove_carried _ _

theorem reapTab_carried (tab : TabId) : l.store.Carried (l.reapTab tab).1.store := removeForTab_carried _ _

theorem beginDedup_carried (pending : PendingEdit) (isTabLive : TabId → Bool) (reaped : List EditEffect) :
    l.store.Carried (l.beginDedup pending isTabLive reaped).1.store := by
  unfold beginDedup
  split
  · exact .refl _
  · split_ifs
    · exact .refl _
    · exact reapTab_carried _

theorem begin_carried (pending : PendingEdit) (isTabLive : TabId → Bool) :
    l.store.Carried (l.begin pending isTabLive).1.store := by
  unfold begin
  split
  · exact beginDedup_carried _ _ _
  · split_ifs
    · exact beginDedup_carried _ _ _
    · exact .refl _
    · exact (reapTab_carried _).trans (beginDedup_carried _ _ _)

theorem onCheckResult_carried (nodup : (l.store.sessions.map EditSession.id).Nodup)
    (result : EditCheckResult) (mtime : Option Timestamp) :
    l.store.Carried (l.onCheckResult result mtime).1.store := by
  unfold onCheckResult
  split
  · exact .refl _
  split
  · exact .refl _
  split
  · exact revertCheck_carried nodup _
  split
  · split <;>
      exact getMut_carried _ _ nodup fun s _ _ =>
        ⟨rfl, .inr ⟨rfl, rfl, by simp⟩⟩
  · exact revertCheck_carried nodup _

theorem getMut_phase_carried (nodup : (l.store.sessions.map EditSession.id).Nodup) {session : EditSession}
    (hs : session ∈ l.store.sessions) (hp : session.phase ≠ .checkingRemote) {f : EditSession → EditSession}
    (same : ∀ s, (f s).target = s.target) (pending : ∀ s, (f s).pendingCheckId = s.pendingCheckId)
    (mtime : ∀ s, (f s).checkingLocalMtime = s.checkingLocalMtime)
    (phase : ∀ s, (f s).phase ≠ .checkingRemote) :
    l.store.Carried (l.store.getMut session.id f) := by
  apply getMut_carried _ _ nodup
  intro s hm hid
  have he : s = session := key_unique EditSession.id nodup hm hs hid
  refine ⟨same s, .inl ⟨pending s, mtime s, ?_⟩⟩
  rw [he]
  exact ⟨fun h => absurd h (phase session), fun h => absurd h hp⟩

theorem onTransferFinished_carried (nodup : (l.store.sessions.map EditSession.id).Nodup)
    (finished : EditTransferFinished) (facts : Option LocalFileFacts) :
    l.store.Carried (l.onTransferFinished finished facts).1.store := by
  unfold onTransferFinished
  split
  · exact .refl _
  split
  · exact .refl _
  rename_i session found
  have hs := (findKey_mem _ found).1
  split
  · exact .refl _
  split
  · rename_i hp
    split
    · exact getMut_phase_carried nodup hs (by simp [hp]) (fun _ => rfl)
        (fun _ => rfl) (fun _ => rfl) (by simp)
    · exact remove_carried _ _
  · rename_i hp
    split_ifs <;>
      exact getMut_phase_carried nodup hs (by simp [hp]) (fun _ => rfl)
        (fun _ => rfl) (fun _ => rfl) (by simp)
  · exact .refl _

theorem startDownload_store (pending : PendingEdit) :
    l.store = (l.startDownload pending).1.store ∨ l.store.Registered (l.startDownload pending).1.store := by
  unfold startDownload
  split
  · exact .inl rfl
  · exact .inr ⟨l.store, _, .refl _, rfl, ⟨rfl, rfl, by simp [downloadSession]⟩, rfl⟩

theorem discardLocal_store (session : EditSession) :
    l.store.Carried (l.discardLocal session).1.store ∨ l.store.Registered (l.discardLocal session).1.store := by
  have outcome : ∀ (started : RemoteEditLifecycle × Except EditNotice StartedEdit),
      (l.store.remove session.id = started.1.store ∨ (l.store.remove session.id).Registered started.1.store) →
      l.store.Carried started.1.store ∨ l.store.Registered started.1.store := by
    rintro started (h | ⟨mid, new, hc, hid, hu, he⟩)
    · exact .inl (h ▸ remove_carried _ _)
    · exact .inr ⟨mid, new, (remove_carried _ _).trans hc, hid, hu, he⟩
  unfold discardLocal
  dsimp only
  split <;> exact outcome _ (startDownload_store (l := { l with store := l.store.remove session.id }) _)

theorem resolveConflict_carried (nodup : (l.store.sessions.map EditSession.id).Nodup) (id : EditSessionId)
    {choice : ConflictChoice} (keep : choice ≠ .discardLocal) :
    l.store.Carried (l.resolveConflict id choice).1.store := by
  unfold resolveConflict
  split
  · exact .refl _
  rename_i session found
  obtain ⟨hs, rfl⟩ := get_mem found
  split
  · exact .refl _
  rename_i conflict
  have hp : session.phase ≠ .checkingRemote := by
    intro h
    simp [h] at conflict
  cases choice with
  | discardLocal => contradiction
  | overwrite | later =>
    exact getMut_phase_carried nodup hs hp (fun _ => rfl)
      (fun _ => rfl) (fun _ => rfl) (by simp)

theorem resolveConflict_store (nodup : (l.store.sessions.map EditSession.id).Nodup) (id : EditSessionId)
    (choice : ConflictChoice) :
    l.store.Carried (l.resolveConflict id choice).1.store ∨
      l.store.Registered (l.resolveConflict id choice).1.store := by
  by_cases discard : choice = .discardLocal
  · subst discard
    unfold resolveConflict
    split
    · exact .inl (.refl _)
    split
    · exact .inl (.refl _)
    · exact discardLocal_store _
  · exact .inl (resolveConflict_carried nodup id discard)

theorem dispatchFailed_carried (nodup : (l.store.sessions.map EditSession.id).Nodup) (id : EditSessionId)
    (rollback : DispatchRollback) : l.store.Carried (l.dispatchFailed id rollback).1.store := by
  cases rollback with
  | revertCheck => exact revertCheck_carried nodup id
  | restoreConflict =>
    apply getMut_carried _ _ nodup
    intro s _ _
    split_ifs with hp
    · exact ⟨rfl, .inl ⟨rfl, rfl, by simp [hp]⟩⟩
    · exact .refl s
  | abortDownload => exact abortDownload_carried id

theorem recordLocalModified_carried (nodup : (l.store.sessions.map EditSession.id).Nodup) (id : EditSessionId)
    (path : LocalPath) (facts : Option LocalFileFacts) :
    l.store.Carried (l.recordLocalModified id path facts).1.store := by
  unfold recordLocalModified
  split
  · exact .refl _
  · split_ifs
    · exact .refl _
    · exact .refl _
    · exact getMut_carried _ _ nodup fun s _ _ =>
        ⟨rfl, .inl ⟨rfl, rfl, Iff.rfl⟩⟩

theorem adoptListingBaselines_carried (nodup : (l.store.sessions.map EditSession.id).Nodup) (tab : TabId)
    (listing : List (RemotePath × RemoteSnapshot)) :
    l.store.Carried (l.adoptListingBaselines tab listing).store := by
  have fold : ∀ (adoptions : List (EditSessionId × RemoteSnapshot)) (store : EditSessionStore),
      (store.sessions.map EditSession.id).Nodup →
      store.Carried (adoptions.foldl (fun store adoption =>
        store.getMut adoption.1 (fun s => { s with remoteSnapshot := adoption.2 })) store) := by
    intro adoptions
    induction adoptions with
    | nil => exact fun store _ => .refl store
    | cons adoption rest ih =>
      intro store nodup
      have first : store.Carried (store.getMut adoption.1 (fun s => { s with remoteSnapshot := adoption.2 })) :=
        getMut_carried _ _ nodup fun s _ _ => ⟨rfl, .inl ⟨rfl, rfl, Iff.rfl⟩⟩
      exact first.trans (ih _ (nodup.sublist first.ids))
  exact fold _ _ nodup

theorem requestUpload_cases (id : EditSessionId) (epoch : Nat) (key : ConnectionKey) (mtime : Timestamp) :
    (∃ notice, l.requestUpload id epoch key mtime =
      ({ l with store := l.store.takeNextCheckId.1 }, .rejected notice)) ∨
    ∃ s ∈ l.store.sessions, s.id = id ∧ l.requestUpload id epoch key mtime =
      ({ l with store := l.store.takeNextCheckId.1.getMut id (markChecking epoch ⟨l.store.nextCheckId⟩ mtime) },
        .check ⟨s.tabId, epoch, id, ⟨l.store.nextCheckId⟩, s.ioPath⟩) := by
  unfold requestUpload
  dsimp only
  split
  · exact .inl ⟨_, rfl⟩
  rename_i session found
  split
  · exact .inl ⟨_, rfl⟩
  split
  · exact .inl ⟨_, rfl⟩
  · exact .inr ⟨session, (get_mem found).1, (get_mem found).2, rfl⟩

theorem apply_cases (nodup : (l.store.sessions.map EditSession.id).Nodup) (op : EditOp) :
    (op.isRequest = false ∧
      (l.store.Carried (l.apply op).1.store ∨ l.store.Registered (l.apply op).1.store)) ∨
    (∃ id epoch key mtime notice, op = .requestUpload id epoch key mtime ∧
      (l.apply op).2 = .upload (.rejected notice) ∧ (l.apply op).1.store = l.store.takeNextCheckId.1) ∨
    ∃ s ∈ l.store.sessions, ∃ epoch key mtime, op = .requestUpload s.id epoch key mtime ∧
      (l.apply op).2 = .upload (.check ⟨s.tabId, epoch, s.id, ⟨l.store.nextCheckId⟩, s.ioPath⟩) ∧
      (l.apply op).1.store =
        l.store.takeNextCheckId.1.getMut s.id (markChecking epoch ⟨l.store.nextCheckId⟩ mtime) := by
  cases op with
  | begin pending isTabLive => exact .inl ⟨rfl, .inl (begin_carried _ _)⟩
  | startDownload pending =>
    rcases startDownload_store (l := l) pending with h | h
    · exact .inl ⟨rfl, .inl (h ▸ .refl _)⟩
    · exact .inl ⟨rfl, .inr h⟩
  | abortDownload id => exact .inl ⟨rfl, .inl (abortDownload_carried id)⟩
  | requestUpload id epoch key mtime =>
    rcases requestUpload_cases (l := l) id epoch key mtime with ⟨notice, h⟩ | ⟨s, hs, rfl, h⟩
    · exact .inr (.inl ⟨id, epoch, key, mtime, notice, rfl, by simp [apply, h], by simp [apply, h]⟩)
    · exact .inr (.inr ⟨s, hs, epoch, key, mtime, rfl, by simp [apply, h], by simp [apply, h]⟩)
  | revertCheck id => exact .inl ⟨rfl, .inl (revertCheck_carried nodup id)⟩
  | onCheckResult result mtime => exact .inl ⟨rfl, .inl (onCheckResult_carried nodup result mtime)⟩
  | onTransferFinished finished facts => exact .inl ⟨rfl, .inl (onTransferFinished_carried nodup finished facts)⟩
  | resolveConflict id choice => exact .inl ⟨rfl, resolveConflict_store nodup id choice⟩
  | dispatchFailed id rollback => exact .inl ⟨rfl, .inl (dispatchFailed_carried nodup id rollback)⟩
  | recordLocalModified id path facts => exact .inl ⟨rfl, .inl (recordLocalModified_carried nodup id path facts)⟩
  | adoptListingBaselines tab listing => exact .inl ⟨rfl, .inl (adoptListingBaselines_carried nodup tab listing)⟩
  | updateEpochForTab tab epoch => exact .inl ⟨rfl, .inl (updateEpochForTab_carried _ tab epoch)⟩
  | removeForTab tab => exact .inl ⟨rfl, .inl (removeForTab_carried _ tab)⟩

end RemoteEditLifecycle

def EditSession.ChecksAgree (s : EditSession) : Prop :=
  (s.pendingCheckId.isSome ↔ s.phase = .checkingRemote) ∧ (s.checkingLocalMtime.isSome ↔ s.phase = .checkingRemote)

structure EditSessionStore.Valid (store : EditSessionStore) : Prop where
  ids : (store.sessions.map EditSession.id).Nodup
  idBound : ∀ s ∈ store.sessions, s.id.raw < store.nextId
  checkBound : ∀ s ∈ store.sessions, ∀ c, s.pendingCheckId = some c → c.raw < store.nextCheckId
  checks : ∀ s ∈ store.sessions, s.ChecksAgree

namespace EditSessionStore

variable {old new : EditSessionStore}

theorem Carried.pending (h : old.Carried new) {s' : EditSession} (hs' : s' ∈ new.sessions) {c : EditCheckId}
    (hc : s'.pendingCheckId = some c) :
    ∃ s ∈ old.sessions, s'.target = s.target ∧ s.pendingCheckId = some c ∧
      s'.checkingLocalMtime = s.checkingLocalMtime := by
  obtain ⟨s, hs, same, kept | dropped⟩ := h.origin s' hs'
  · exact ⟨s, hs, same, kept.1 ▸ hc, kept.2.1⟩
  · simp [dropped.1] at hc

theorem Carried.valid (h : old.Carried new) (v : old.Valid) : new.Valid := by
  refine ⟨v.ids.sublist h.ids, ?_, ?_, ?_⟩
  · intro s' hs'
    obtain ⟨s, hs, same, _⟩ := h.origin s' hs'
    have hid : s'.id = s.id := congrArg EditTarget.id same
    rw [hid, h.nextId]
    exact v.idBound s hs
  · intro s' hs' c hc
    obtain ⟨s, hs, _, hc', _⟩ := h.pending hs' hc
    rw [h.nextCheckId]
    exact v.checkBound s hs c hc'
  · intro s' hs'
    obtain ⟨s, hs, _, ⟨hp, hm, hphase⟩ | ⟨hp, hm, hphase⟩⟩ := h.origin s' hs'
    · rw [EditSession.ChecksAgree, hp, hm, hphase]
      exact v.checks s hs
    · simp [EditSession.ChecksAgree, hp, hm, hphase]

theorem Registered.mem (h : old.Registered new) {s' : EditSession} (hs' : s' ∈ new.sessions) :
    (∃ s ∈ old.sessions, s.Continues s') ∨ s'.Unchecked := by
  obtain ⟨mid, session, carried, _, unchecked, rfl⟩ := h
  rcases List.mem_append.mp hs' with hm | hm
  · exact .inl (carried.origin s' hm)
  · rw [List.mem_singleton.mp hm]
    exact .inr unchecked

theorem Registered.nextCheckId (h : old.Registered new) : new.nextCheckId = old.nextCheckId := by
  obtain ⟨mid, session, carried, _, _, rfl⟩ := h
  exact carried.nextCheckId

theorem Registered.valid (h : old.Registered new) (v : old.Valid) : new.Valid := by
  obtain ⟨mid, session, carried, hid, unchecked, rfl⟩ := h
  have vm := carried.valid v
  have fresh : ∀ s ∈ mid.sessions, s.id ≠ session.id := by
    intro s hs he
    have := vm.idBound s hs
    rw [he, hid] at this
    exact absurd this (lt_irrefl _)
  refine ⟨?_, ?_, ?_, ?_⟩
  · simp only [register, takeNextId, List.map_append, List.map_cons, List.map_nil]
    rw [List.nodup_append_comm]
    refine List.nodup_cons.mpr ⟨?_, vm.ids⟩
    rintro hm
    obtain ⟨s, hs, he⟩ := List.mem_map.mp hm
    exact fresh s hs he
  · intro s hs
    change s.id.raw < mid.nextId + 1
    rcases List.mem_append.mp hs with hm | hm
    · exact (vm.idBound s hm).trans (Nat.lt_succ_self _)
    · rw [List.mem_singleton.mp hm, hid]
      exact Nat.lt_succ_self _
  · intro s hs c hc
    rcases List.mem_append.mp hs with hm | hm
    · exact vm.checkBound s hm c hc
    · rw [List.mem_singleton.mp hm, unchecked.1] at hc
      cases hc
  · intro s hs
    rcases List.mem_append.mp hs with hm | hm
    · exact vm.checks s hm
    · rw [List.mem_singleton.mp hm]
      simp [EditSession.ChecksAgree, unchecked.1, unchecked.2.1, unchecked.2.2]

theorem takeNextCheckId_valid (v : old.Valid) : old.takeNextCheckId.1.Valid :=
  ⟨v.ids, v.idBound, fun s hs c hc => (v.checkBound s hs c hc).trans (Nat.lt_succ_self _), v.checks⟩

theorem markChecking_mem (v : old.Valid) {id : EditSessionId} {epoch : Nat} {check : EditCheckId}
    {mtime : Timestamp} {s' : EditSession}
    (hs' : s' ∈ (old.takeNextCheckId.1.getMut id (markChecking epoch check mtime)).sessions) :
    (s' ∈ old.sessions ∧ s'.id ≠ id) ∨
      ∃ s ∈ old.sessions, s.id = id ∧ s' = markChecking epoch check mtime s := by
  obtain ⟨s, hs, rfl⟩ := (mem_updateKey EditSession.id id _ v.ids).mp hs'
  split
  · exact .inr ⟨s, hs, ‹_›, rfl⟩
  · exact .inl ⟨hs, ‹_›⟩

theorem markChecking_valid (v : old.Valid) (id : EditSessionId) (epoch : Nat) (mtime : Timestamp) :
    (old.takeNextCheckId.1.getMut id (markChecking epoch ⟨old.nextCheckId⟩ mtime)).Valid := by
  have v' := takeNextCheckId_valid v
  refine ⟨?_, ?_, ?_, ?_⟩
  · change ((updateKey EditSession.id id (markChecking epoch ⟨old.nextCheckId⟩ mtime) old.sessions).map _).Nodup
    rw [updateKey_map]
    · exact v.ids
    · exact fun _ => rfl
  · intro s' hs'
    rcases markChecking_mem v hs' with ⟨hs, _⟩ | ⟨s, hs, _, rfl⟩
    · exact v.idBound s' hs
    · exact v.idBound s hs
  · intro s' hs' c hc
    rcases markChecking_mem v hs' with ⟨hs, _⟩ | ⟨s, hs, _, rfl⟩
    · exact v'.checkBound s' hs c hc
    · cases hc
      exact Nat.lt_succ_self _
  · intro s' hs'
    rcases markChecking_mem v hs' with ⟨hs, _⟩ | ⟨s, hs, _, rfl⟩
    · exact v.checks s' hs
    · simp [EditSession.ChecksAgree, markChecking]

end EditSessionStore

namespace EditSessionStore

variable {old new : EditSessionStore}

/-- Every session stored now was stored before, with the same file, connection and tab. -/
structure Retained (old new : EditSessionStore) : Prop where
  ids : List.Sublist (new.sessions.map EditSession.id) (old.sessions.map EditSession.id)
  origin : ∀ s' ∈ new.sessions, ∃ s ∈ old.sessions, s'.target = s.target

theorem Carried.retained (h : old.Carried new) : old.Retained new :=
  ⟨h.ids, fun s' hs' => let ⟨s, hs, same⟩ := h.origin s' hs'; ⟨s, hs, same.1⟩⟩

theorem Retained.refl (store : EditSessionStore) : store.Retained store :=
  ⟨.refl _, fun s hs => ⟨s, hs, rfl⟩⟩

end EditSessionStore

namespace RemoteEditLifecycle

variable {l : RemoteEditLifecycle}

theorem requestUpload_retained (valid : l.store.Valid) (id : EditSessionId) (epoch : Nat) (key : ConnectionKey)
    (mtime : Timestamp) : l.store.Retained (l.requestUpload id epoch key mtime).1.store := by
  rcases requestUpload_cases (l := l) id epoch key mtime with ⟨notice, h⟩ | ⟨s, _, _, h⟩
  · rw [h]
    exact ⟨.refl _, fun s hs => ⟨s, hs, rfl⟩⟩
  · rw [h]
    refine ⟨?_, ?_⟩
    · change List.Sublist ((updateKey EditSession.id id (markChecking epoch ⟨l.store.nextCheckId⟩ mtime)
        l.store.sessions).map EditSession.id) _
      rw [updateKey_map]
      exact fun _ => rfl
    · intro s' hs'
      rcases markChecking_mem valid hs' with ⟨hs, _⟩ | ⟨s, hs, _, rfl⟩
      · exact ⟨s', hs, rfl⟩
      · exact ⟨s, hs, rfl⟩

theorem startDownload_dirs (l : RemoteEditLifecycle) (pending : PendingEdit) :
    (l.startDownload pending).1.editsDir = l.editsDir ∧ (l.startDownload pending).1.runId = l.runId := by
  unfold startDownload
  split <;> exact ⟨rfl, rfl⟩

theorem beginDedup_dirs (l : RemoteEditLifecycle) (pending : PendingEdit) (isTabLive : TabId → Bool)
    (reaped : List EditEffect) : (l.beginDedup pending isTabLive reaped).1.editsDir = l.editsDir ∧
      (l.beginDedup pending isTabLive reaped).1.runId = l.runId := by
  unfold beginDedup
  split
  · exact ⟨rfl, rfl⟩
  · split <;> exact ⟨rfl, rfl⟩

theorem begin_dirs (l : RemoteEditLifecycle) (pending : PendingEdit) (isTabLive : TabId → Bool) :
    (l.begin pending isTabLive).1.editsDir = l.editsDir ∧ (l.begin pending isTabLive).1.runId = l.runId := by
  unfold begin
  split
  · exact beginDedup_dirs _ _ _ _
  · split
    · exact beginDedup_dirs _ _ _ _
    · split
      · exact ⟨rfl, rfl⟩
      · exact beginDedup_dirs _ _ _ _

theorem abortDownload_dirs (l : RemoteEditLifecycle) (id : EditSessionId) :
    (l.abortDownload id).1.editsDir = l.editsDir ∧ (l.abortDownload id).1.runId = l.runId := by
  unfold abortDownload
  split
  · exact ⟨rfl, rfl⟩
  · split <;> exact ⟨rfl, rfl⟩

theorem discardLocal_opens (session : EditSession) :
    ∃ pending, (l.discardLocal session).1 =
      ({ l with store := l.store.remove session.id }.startDownload pending).1 := by
  unfold discardLocal
  dsimp only
  split <;> exact ⟨_, rfl⟩

theorem apply_dirs (l : RemoteEditLifecycle) (op : EditOp) :
    (l.apply op).1.editsDir = l.editsDir ∧ (l.apply op).1.runId = l.runId := by
  cases op with
  | begin pending isTabLive => exact begin_dirs l pending isTabLive
  | startDownload pending => exact startDownload_dirs l pending
  | abortDownload id => exact abortDownload_dirs l id
  | requestUpload id epoch key mtime =>
    rcases requestUpload_cases (l := l) id epoch key mtime with ⟨notice, h⟩ | ⟨s, _, _, h⟩
    · simp [apply, h]
    · simp [apply, h]
  | revertCheck id => exact ⟨rfl, rfl⟩
  | onCheckResult result mtime =>
    simp only [apply, onCheckResult]
    repeat' split
    all_goals exact ⟨rfl, rfl⟩
  | onTransferFinished finished facts =>
    simp only [apply, onTransferFinished, finishDownload, failDownload, finishUpload, failUpload]
    repeat' split
    all_goals exact ⟨rfl, rfl⟩
  | resolveConflict id choice =>
    simp only [apply, resolveConflict]
    split
    · exact ⟨rfl, rfl⟩
    · rename_i session _
      split
      · exact ⟨rfl, rfl⟩
      · split
        · exact ⟨rfl, rfl⟩
        · obtain ⟨pending, h⟩ := discardLocal_opens (l := l) session
          rw [h]
          exact startDownload_dirs _ pending
        · exact ⟨rfl, rfl⟩
  | dispatchFailed id rollback =>
    cases rollback with
    | revertCheck | restoreConflict => exact ⟨rfl, rfl⟩
    | abortDownload => exact abortDownload_dirs l id
  | recordLocalModified id path facts =>
    simp only [apply, recordLocalModified]
    repeat' split
    all_goals exact ⟨rfl, rfl⟩
  | adoptListingBaselines tab listing => exact ⟨rfl, rfl⟩
  | updateEpochForTab tab epoch => exact ⟨rfl, rfl⟩
  | removeForTab tab => exact ⟨rfl, rfl⟩

theorem apply_opens (valid : l.store.Valid) (op : EditOp) :
    l.store.Retained (l.apply op).1.store ∨
    ∃ mid pending, mid.editsDir = l.editsDir ∧ mid.runId = l.runId ∧ l.store.Carried mid.store ∧
      (l.apply op).1 = (startDownload mid pending).1 := by
  cases op with
  | begin pending isTabLive => exact .inl (begin_carried pending isTabLive).retained
  | startDownload pending => exact .inr ⟨l, pending, rfl, rfl, .refl _, rfl⟩
  | abortDownload id => exact .inl (abortDownload_carried id).retained
  | requestUpload id epoch key mtime => exact .inl (requestUpload_retained valid id epoch key mtime)
  | revertCheck id => exact .inl (revertCheck_carried valid.ids id).retained
  | onCheckResult result mtime => exact .inl (onCheckResult_carried valid.ids result mtime).retained
  | onTransferFinished finished facts => exact .inl (onTransferFinished_carried valid.ids finished facts).retained
  | resolveConflict id choice =>
    by_cases discard : choice = .discardLocal
    · subst discard
      simp only [apply, resolveConflict]
      split
      · exact .inl (.refl _)
      · rename_i session _
        split
        · exact .inl (.refl _)
        · obtain ⟨pending, h⟩ := discardLocal_opens (l := l) session
          exact .inr ⟨{ l with store := l.store.remove session.id }, pending, rfl, rfl,
            remove_carried l.store session.id, h⟩
    · exact .inl (resolveConflict_carried valid.ids id discard).retained
  | dispatchFailed id rollback => exact .inl (dispatchFailed_carried valid.ids id rollback).retained
  | recordLocalModified id path facts => exact .inl (recordLocalModified_carried valid.ids id path facts).retained
  | adoptListingBaselines tab listing => exact .inl (adoptListingBaselines_carried valid.ids tab listing).retained
  | updateEpochForTab tab epoch => exact .inl (updateEpochForTab_carried _ tab epoch).retained
  | removeForTab tab => exact .inl (removeForTab_carried _ tab).retained

end RemoteEditLifecycle

theorem RemoteEditLifecycle.apply_valid {l : RemoteEditLifecycle} (v : l.store.Valid) (op : EditOp) :
    (l.apply op).1.store.Valid := by
  rcases apply_cases v.ids op with ⟨_, h | h⟩ | ⟨_, _, _, _, _, _, _, h⟩ | ⟨s, _, epoch, _, mtime, _, _, h⟩
  · exact h.valid v
  · exact h.valid v
  · rw [h]; exact takeNextCheckId_valid v
  · rw [h]; exact markChecking_valid v s.id epoch mtime

theorem RemoteEditLifecycle.new_valid (editsDir : LocalPath) (runId : List Char) :
    (new editsDir runId).store.Valid := by
  refine ⟨List.nodup_nil, ?_, ?_, ?_⟩ <;> intro s hs <;> cases hs

end MacSftp
