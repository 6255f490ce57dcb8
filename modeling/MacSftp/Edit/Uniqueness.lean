import MacSftp.Edit.Requests

namespace MacSftp

open Lib EditSessionStore

def EditSession.SameFile (s t : EditSession) : Prop :=
  s.connectionKey = t.connectionKey ∧ (s.ioPath = t.ioPath ∨ s.remotePath = t.remotePath)

instance (s t : EditSession) : Decidable (s.SameFile t) := inferInstanceAs (Decidable (_ ∧ _))

theorem EditSession.SameFile.symm {s t : EditSession} (h : s.SameFile t) : t.SameFile s :=
  ⟨h.1.symm, h.2.imp Eq.symm Eq.symm⟩

namespace EditSessionStore

variable {old new : EditSessionStore}

/-- No two stored sessions share connection and I/O path, or connection and listed path. -/
def OneEditPerFile (store : EditSessionStore) : Prop := store.sessions.Pairwise (fun s t => ¬ s.SameFile t)

instance (store : EditSessionStore) : Decidable store.OneEditPerFile :=
  inferInstanceAs (Decidable (store.sessions.Pairwise _))

theorem oneEditPerFile_iff (ids : (old.sessions.map EditSession.id).Nodup) :
    old.OneEditPerFile ↔ ∀ s ∈ old.sessions, ∀ t ∈ old.sessions, s.SameFile t → s = t := by
  constructor
  · intro h s hs t ht same
    by_contra hne
    have symm : Std.Symm (fun s t : EditSession => ¬ s.SameFile t) := ⟨fun _ _ hst hts => hst hts.symm⟩
    exact List.Pairwise.forall h hs ht hne same
  · intro h
    apply List.Nodup.pairwise_of_forall_ne (List.Nodup.of_map _ ids)
    intro s hs t ht hne same
    exact hne (h s hs t ht same)

theorem sameFile_of_target {s s' t t' : EditSession} (hs : s'.target = s.target) (ht : t'.target = t.target)
    (same : s'.SameFile t') : s.SameFile t := by
  simp only [EditSession.target, EditTarget.mk.injEq] at hs ht
  simp only [EditSession.SameFile] at same ⊢
  rw [← hs.2.1, ← hs.2.2.1, ← hs.2.2.2.2.1, ← ht.2.1, ← ht.2.2.1, ← ht.2.2.2.2.1]
  exact same

theorem Retained.oneEditPerFile (h : old.Retained new) (ids : (old.sessions.map EditSession.id).Nodup)
    (one : old.OneEditPerFile) : new.OneEditPerFile := by
  have ids' : (new.sessions.map EditSession.id).Nodup := ids.sublist h.ids
  rw [oneEditPerFile_iff ids']
  intro s' hs' t' ht' same
  obtain ⟨s, hs, es⟩ := h.origin s' hs'
  obtain ⟨t, ht, et⟩ := h.origin t' ht'
  have he : s = t := (oneEditPerFile_iff ids).mp one s hs t ht (sameFile_of_target es et same)
  apply key_unique EditSession.id ids' hs' ht'
  have hid : s'.target.id = t'.target.id := by rw [es, et, he]
  exact hid

theorem findActive_none {connectionKey : ConnectionKey} {ioPath : RemotePath} :
    old.findActive connectionKey ioPath = none ↔
      ∀ s ∈ old.sessions, ¬ (s.connectionKey = connectionKey ∧ s.ioPath = ioPath) := by
  simp [findActive]

theorem findActiveForRemotePath_none {connectionKey : ConnectionKey} {remotePath : RemotePath} :
    old.findActiveForRemotePath connectionKey remotePath = none ↔
      ∀ s ∈ old.sessions, ¬ (s.connectionKey = connectionKey ∧ s.remotePath = remotePath) := by
  simp [findActiveForRemotePath]

def Vacant (store : EditSessionStore) (connectionKey : ConnectionKey) (remotePath ioPath : RemotePath) : Prop :=
  store.findActive connectionKey ioPath = none ∧ store.findActiveForRemotePath connectionKey remotePath = none

instance (store : EditSessionStore) (connectionKey : ConnectionKey) (remotePath ioPath : RemotePath) :
    Decidable (store.Vacant connectionKey remotePath ioPath) := inferInstanceAs (Decidable (_ ∧ _))

theorem vacant_iff (s : EditSession) :
    old.Vacant s.connectionKey s.remotePath s.ioPath ↔ ∀ t ∈ old.sessions, ¬ t.SameFile s := by
  rw [Vacant, findActive_none, findActiveForRemotePath_none]
  constructor
  · rintro ⟨io, listed⟩ t ht ⟨key, path | path⟩
    · exact io t ht ⟨key, path⟩
    · exact listed t ht ⟨key, path⟩
  · intro h
    exact ⟨fun t ht same => h t ht ⟨same.1, Or.inl same.2⟩, fun t ht same => h t ht ⟨same.1, Or.inr same.2⟩⟩

theorem oneEditPerFile_register (one : old.OneEditPerFile) (session : EditSession) :
    (old.takeNextId.1.register session).OneEditPerFile ↔
      old.Vacant session.connectionKey session.remotePath session.ioPath := by
  rw [vacant_iff]
  simp only [OneEditPerFile, register, takeNextId, List.pairwise_append]
  constructor
  · rintro ⟨_, _, h⟩ t ht
    exact h t ht session (by simp)
  · intro h
    refine ⟨one, List.pairwise_singleton _ _, ?_⟩
    intro t ht s hs
    rw [List.mem_singleton.mp hs]
    exact h t ht

theorem get_register (session : EditSession) (fresh : ∀ s ∈ old.sessions, s.id ≠ session.id) :
    (old.register session).get session.id = some session := by
  have absent : old.sessions.find? (fun s => s.id = session.id) = none := by
    rw [List.find?_eq_none]
    intro s hs
    simpa using fresh s hs
  simp [EditSessionStore.get, register, findKey, List.find?_append, absent]

theorem remove_register {session : EditSession} (fresh : ∀ s ∈ old.sessions, s.id ≠ session.id) :
    ((old.register session).remove session.id).sessions = old.sessions := by
  have absent : ∀ s ∈ old.sessions, ¬ decide (s.id = session.id) = true := by
    intro s hs
    simpa using fresh s hs
  simp only [remove, register]
  rw [List.eraseP_append_right _ absent, List.eraseP_cons_of_pos (by simp), List.append_nil]

end EditSessionStore

namespace RemoteEditLifecycle

variable {l : RemoteEditLifecycle}

theorem reapTab_vacant {session : EditSession} (ids : (l.store.sessions.map EditSession.id).Nodup)
    (one : l.store.OneEditPerFile) (hs : session ∈ l.store.sessions) {t : EditSession}
    (ht : t ∈ (l.reapTab session.tabId).1.store.sessions) : ¬ t.SameFile session := by
  intro same
  obtain ⟨hm, hne⟩ := List.mem_filter.mp ht
  have he : t = session := (oneEditPerFile_iff ids).mp one t hm session hs same
  simp [he] at hne

theorem beginDedup_vacant (valid : l.store.Valid) (one : l.store.OneEditPerFile) {pending : PendingEdit}
    {isTabLive : TabId → Bool} {reaped effects : List EditEffect} {l' : RemoteEditLifecycle} {pending' : PendingEdit}
    (listed : ∀ s ∈ l.store.sessions, s.connectionKey = pending.connectionKey ∧ s.remotePath = pending.remotePath →
      s.ioPath = pending.ioPath)
    (h : l.beginDedup pending isTabLive reaped = (l', .start pending' effects)) :
    pending' = pending ∧ l'.store.Vacant pending.connectionKey pending.remotePath pending.ioPath := by
  unfold beginDedup at h
  split at h
  · rename_i free
    cases h
    refine ⟨rfl, free, ?_⟩
    rw [findActiveForRemotePath_none]
    intro s hs same
    exact findActive_none.mp free s hs ⟨same.1, listed s hs same⟩
  · rename_i existing found
    split at h
    · cases h
    cases h
    have hm := List.mem_of_find?_eq_some found
    have hkey : existing.connectionKey = pending.connectionKey ∧ existing.ioPath = pending.ioPath := by
      simpa using List.find?_some found
    refine ⟨rfl, ?_, ?_⟩
    · rw [findActive_none]
      intro s hs same
      exact reapTab_vacant valid.ids one hm hs ⟨same.1.trans hkey.1.symm, Or.inl (same.2.trans hkey.2.symm)⟩
    · rw [findActiveForRemotePath_none]
      intro s hs same
      have hio := listed s (List.mem_of_mem_filter hs) same
      exact reapTab_vacant valid.ids one hm hs ⟨same.1.trans hkey.1.symm, Or.inl (hio.trans hkey.2.symm)⟩

theorem begin_vacant (valid : l.store.Valid) (one : l.store.OneEditPerFile) {pending : PendingEdit}
    {isTabLive : TabId → Bool} {effects : List EditEffect} {l' : RemoteEditLifecycle} {pending' : PendingEdit}
    (h : l.begin pending isTabLive = (l', .start pending' effects)) :
    pending' = pending ∧ l'.store.Vacant pending.connectionKey pending.remotePath pending.ioPath := by
  unfold begin at h
  split at h
  · rename_i free
    refine beginDedup_vacant valid one ?_ h
    intro s hs same
    exact absurd same (findActiveForRemotePath_none.mp free s hs)
  · rename_i existing found
    have hm : existing ∈ l.store.sessions := by simpa using List.mem_of_find?_eq_some found
    have hkey : existing.connectionKey = pending.connectionKey ∧ existing.remotePath = pending.remotePath := by
      simpa using List.find?_some found
    have same_as : ∀ s : EditSession,
        s.connectionKey = pending.connectionKey ∧ s.remotePath = pending.remotePath → s.SameFile existing :=
      fun s same => ⟨same.1.trans hkey.1.symm, Or.inr (same.2.trans hkey.2.symm)⟩
    split at h
    · rename_i hio
      refine beginDedup_vacant valid one ?_ h
      intro s hs same
      rw [(oneEditPerFile_iff valid.ids).mp one s hs existing hm (same_as s same)]
      exact hio
    split at h
    · cases h
    · have carried := reapTab_carried (l := l) existing.tabId
      refine beginDedup_vacant (carried.valid valid) (carried.retained.oneEditPerFile valid.ids one) ?_ h
      intro s hs same
      exact absurd (same_as s same) (reapTab_vacant valid.ids one hm hs)

theorem startDownload_oneEditPerFile (one : l.store.OneEditPerFile) {pending : PendingEdit}
    (safe : safeFileName pending.remotePath ≠ none) :
    (l.startDownload pending).1.store.OneEditPerFile ↔
      l.store.Vacant pending.connectionKey pending.remotePath pending.ioPath := by
  unfold startDownload
  split
  · contradiction
  · exact oneEditPerFile_register one _

theorem startDownload_refused {pending : PendingEdit} (unsafe_ : safeFileName pending.remotePath = none) :
    (l.startDownload pending).1 = l := by
  simp only [startDownload, unsafe_]

theorem discardLocal_oneEditPerFile (valid : l.store.Valid) (one : l.store.OneEditPerFile) {session : EditSession}
    (hs : session ∈ l.store.sessions) : (l.discardLocal session).1.store.OneEditPerFile := by
  have removed : (l.store.remove session.id).OneEditPerFile :=
    (remove_carried l.store session.id).retained.oneEditPerFile valid.ids one
  have gone : (l.store.remove session.id).Vacant session.connectionKey session.remotePath session.ioPath := by
    rw [vacant_iff]
    intro t ht same
    rw [remove, eraseP_eq_filter EditSession.id valid.ids, List.mem_filter, decide_eq_true_eq] at ht
    exact ht.2 (congrArg EditSession.id ((oneEditPerFile_iff valid.ids).mp one t ht.1 session hs same))
  have started : ∀ pending : PendingEdit, pending.connectionKey = session.connectionKey →
      pending.remotePath = session.remotePath → pending.ioPath = session.ioPath →
      ({ l with store := l.store.remove session.id }.startDownload pending).1.store.OneEditPerFile := by
    intro pending key listed io
    by_cases safe : safeFileName pending.remotePath = none
    · rw [startDownload_refused safe]
      exact removed
    · rw [startDownload_oneEditPerFile removed safe, key, listed, io]
      exact gone
  unfold discardLocal
  dsimp only
  split <;> exact started _ rfl rfl rfl

theorem resolveConflict_oneEditPerFile (valid : l.store.Valid) (one : l.store.OneEditPerFile) (id : EditSessionId)
    (choice : ConflictChoice) : (l.resolveConflict id choice).1.store.OneEditPerFile := by
  by_cases discard : choice = .discardLocal
  · subst discard
    unfold resolveConflict
    split
    · exact one
    · rename_i session found
      split
      · exact one
      · exact discardLocal_oneEditPerFile valid one (get_mem found).1
  · exact (resolveConflict_carried valid.ids id discard).retained.oneEditPerFile valid.ids one

theorem followUp_oneEditPerFile (valid : l.store.Valid) (one : l.store.OneEditPerFile) (followUp : EditFollowUp) :
    (l.apply followUp.op).1.store.OneEditPerFile := by
  obtain ⟨op, isFollowUp⟩ := followUp
  have carried : ∀ {store}, l.store.Carried store → store.OneEditPerFile := fun h =>
    h.retained.oneEditPerFile valid.ids one
  cases op with
  | begin | startDownload => cases isFollowUp
  | abortDownload id => exact carried (abortDownload_carried id)
  | requestUpload id epoch key mtime => exact (requestUpload_retained valid id epoch key mtime).oneEditPerFile valid.ids one
  | revertCheck id => exact carried (revertCheck_carried valid.ids id)
  | onCheckResult result mtime => exact carried (onCheckResult_carried valid.ids result mtime)
  | onTransferFinished finished facts => exact carried (onTransferFinished_carried valid.ids finished facts)
  | resolveConflict id choice => exact resolveConflict_oneEditPerFile valid one id choice
  | dispatchFailed id rollback => exact carried (dispatchFailed_carried valid.ids id rollback)
  | recordLocalModified id path facts => exact carried (recordLocalModified_carried valid.ids id path facts)
  | adoptListingBaselines tab listing => exact carried (adoptListingBaselines_carried valid.ids tab listing)
  | updateEpochForTab tab epoch => exact carried (updateEpochForTab_carried _ tab epoch)
  | removeForTab tab => exact carried (removeForTab_carried _ tab)

theorem abort_started (valid : l.store.Valid) {pending : PendingEdit} {l' : RemoteEditLifecycle}
    {started : StartedEdit} (h : l.startDownload pending = (l', .ok started)) :
    (l'.abortDownload started.sessionId).1.store.sessions = l.store.sessions := by
  have fresh : ∀ s ∈ l.store.takeNextId.1.sessions, s.id ≠ ⟨l.store.nextId⟩ := by
    intro s hs he
    have bound := valid.idBound s hs
    rw [he] at bound
    exact absurd bound (lt_irrefl _)
  unfold startDownload at h
  split at h
  · cases h
  · rename_i name _
    cases h
    have found := get_register (downloadSession pending ⟨l.store.nextId⟩
      (l.tempPath ⟨l.store.nextId⟩ name)) fresh
    unfold abortDownload
    split
    · rename_i missing
      cases found.symm.trans missing
    · rename_i session hs
      cases found.symm.trans hs
      rw [if_neg (by simp [downloadSession])]
      exact remove_register fresh

end RemoteEditLifecycle

/-- The confirmation of a large edit finds no session for the file, whatever happened since it was asked for. -/
def EditAppOp.Clear (app : EditApp) : EditAppOp → Prop
  | .confirmLargeEdit window sent => ∀ tab pending, app.confirmedEdit window = some (tab, pending) → sent = true →
      safeFileName pending.remotePath ≠ none →
      app.editSessions.store.Vacant pending.connectionKey pending.remotePath pending.ioPath
  | _ => True

namespace EditApp

variable {app : EditApp}

theorem refreshProfile_target (tab : Option TabState) (pending : PendingEdit) :
    (refreshProfile tab pending).connectionKey = pending.connectionKey ∧
      (refreshProfile tab pending).remotePath = pending.remotePath ∧
      (refreshProfile tab pending).ioPath = pending.ioPath := by
  cases tab <;> exact ⟨rfl, rfl, rfl⟩

theorem startEditDownload_oneEditPerFile (app : EditApp) (valid : app.editSessions.store.Valid)
    (one : app.editSessions.store.OneEditPerFile) (tab : Option TabState) (pending : PendingEdit) (sent : Bool) :
    (app.startEditDownload tab pending sent).editSessions.store.OneEditPerFile ↔
      (sent = true → safeFileName pending.remotePath ≠ none →
        app.editSessions.store.Vacant pending.connectionKey pending.remotePath pending.ioPath) := by
  obtain ⟨key, listed, io⟩ := refreshProfile_target tab pending
  by_cases safe : safeFileName pending.remotePath = none
  · have refused : (app.editSessions.startDownload (refreshProfile tab pending)) =
        (app.editSessions, .error .unsafeFileName) := by
      simp only [RemoteEditLifecycle.startDownload, listed, safe]
    simp only [startEditDownload, refused]
    exact ⟨fun _ _ hsafe => absurd safe hsafe, fun _ => one⟩
  · have register := RemoteEditLifecycle.startDownload_oneEditPerFile one (listed.symm ▸ safe)
    rw [key, listed, io] at register
    unfold startEditDownload
    split
    · rename_i editSessions notice started
      unfold RemoteEditLifecycle.startDownload at started
      rw [listed] at started
      split at started
      · contradiction
      · cases started
    · rename_i editSessions edit started
      rw [started] at register
      cases sent with
      | true => simpa [safe] using register
      | false =>
        have back := RemoteEditLifecycle.abort_started valid started
        simp only [Bool.false_eq_true, ↓reduceIte, IsEmpty.forall_iff, iff_true]
        rw [OneEditPerFile, back]
        exact one

theorem startEditDownload_valid (app : EditApp) (valid : app.editSessions.store.Valid) (tab : Option TabState)
    (pending : PendingEdit) (sent : Bool) : (app.startEditDownload tab pending sent).editSessions.store.Valid := by
  have started := RemoteEditLifecycle.apply_valid valid (.startDownload (refreshProfile tab pending))
  simp only [RemoteEditLifecycle.apply] at started
  unfold startEditDownload
  split
  · rename_i h
    rwa [h] at started
  · rename_i h
    rw [h] at started
    split
    · exact started
    · exact RemoteEditLifecycle.apply_valid started (.abortDownload _)

theorem removeTabs_carried (tabs : List TabId) (l : RemoteEditLifecycle) :
    l.store.Carried (tabs.foldl (fun editSessions tabId => (editSessions.removeForTab tabId).1) l).store := by
  induction tabs generalizing l with
  | nil => exact .refl _
  | cons tab rest ih => exact (removeForTab_carried l.store tab).trans (ih (l.removeForTab tab).1)

theorem openEdit_valid (valid : app.editSessions.store.Valid) (id : Nat) (tab : TabState) (pending : PendingEdit)
    (sent : Bool) : (app.openEdit id tab pending sent).editSessions.store.Valid := by
  have began := (RemoteEditLifecycle.begin_carried (l := app.editSessions) pending
    (fun tabId => decide (tabId ∈ app.tabIds))).valid valid
  unfold openEdit
  split
  · rename_i h
    rw [h] at began
    exact began
  · rename_i h
    rw [h] at began
    dsimp only
    split
    · exact began
    · exact startEditDownload_valid { app with editSessions := _ } began _ _ _

theorem openEdit_oneEditPerFile (valid : app.editSessions.store.Valid)
    (one : app.editSessions.store.OneEditPerFile) (id : Nat) (tab : TabState) (pending : PendingEdit) (sent : Bool) :
    (app.openEdit id tab pending sent).editSessions.store.OneEditPerFile := by
  have carried := RemoteEditLifecycle.begin_carried (l := app.editSessions) pending
    (fun tabId => decide (tabId ∈ app.tabIds))
  have valid' := carried.valid valid
  have one' := carried.retained.oneEditPerFile valid.ids one
  unfold openEdit
  split
  · rename_i h
    rw [h] at one'
    exact one'
  · rename_i h
    obtain ⟨rfl, vacant⟩ := RemoteEditLifecycle.begin_vacant valid one h
    rw [h] at valid' one'
    dsimp only
    split
    · exact one'
    · exact (startEditDownload_oneEditPerFile { app with editSessions := _ } valid' one' _ _ _).mpr
        fun _ _ => vacant

theorem closeTab_carried (app : EditApp) (id : Nat) (tabId : TabId) :
    app.editSessions.store.Carried (app.closeTab id tabId).editSessions.store := by
  unfold closeTab
  split
  · exact .refl _
  · exact removeForTab_carried app.editSessions.store tabId

theorem openTab_sessions (app : EditApp) (id : Nat) (tab : TabState) :
    (app.openTab id tab).editSessions = app.editSessions := by
  unfold openTab
  split <;> rfl

theorem apply_valid (valid : app.editSessions.store.Valid) (op : EditAppOp) :
    (app.apply op).editSessions.store.Valid := by
  cases op with
  | openTab window tab =>
    rw [apply, openTab_sessions]
    exact valid
  | connectTab window tabId key profileId epoch =>
    exact (updateEpochForTab_carried app.editSessions.store tabId epoch).valid valid
  | connectionChanged window tabId connection => exact valid
  | beginEditResolved window tabId remotePath ioPath size modifiedAt sent =>
    rw [apply, beginEditResolved]
    split
    · exact valid
    · exact openEdit_valid valid _ _ _ _
  | confirmLargeEdit window sent =>
    rw [apply, confirmLargeEdit]
    split
    · exact valid
    · exact startEditDownload_valid (app.cancelLargeEdit window) valid _ _ _
  | cancelLargeEdit window => exact valid
  | closeTab window tabId => exact (closeTab_carried app window tabId).valid valid
  | closeWindow window => exact valid
  | cleanupOrphanedEditSessions => exact (removeTabs_carried _ app.editSessions).valid valid
  | lifecycle followUp => exact RemoteEditLifecycle.apply_valid valid followUp.op

theorem apply_oneEditPerFile_iff (valid : app.editSessions.store.Valid)
    (one : app.editSessions.store.OneEditPerFile) (op : EditAppOp) :
    (app.apply op).editSessions.store.OneEditPerFile ↔ op.Clear app := by
  have carried : ∀ {store}, app.editSessions.store.Carried store → store.OneEditPerFile := fun h =>
    h.retained.oneEditPerFile valid.ids one
  cases op with
  | confirmLargeEdit window sent =>
    rw [apply, confirmLargeEdit]
    cases h : app.confirmedEdit window with
    | none => exact ⟨fun _ => by simp [EditAppOp.Clear, h], fun _ => one⟩
    | some confirmed =>
      obtain ⟨tab, pending⟩ := confirmed
      rw [startEditDownload_oneEditPerFile (app.cancelLargeEdit window) valid one (some tab) pending sent]
      simp only [EditAppOp.Clear, h, Option.some.injEq, Prod.mk.injEq]
      constructor
      · rintro vacant _ _ ⟨rfl, rfl⟩
        exact vacant
      · intro vacant
        exact vacant tab pending ⟨rfl, rfl⟩
  | openTab window tab =>
    rw [apply, openTab_sessions]
    exact iff_of_true one trivial
  | connectTab window tabId key profileId epoch =>
    exact iff_of_true (carried (updateEpochForTab_carried app.editSessions.store tabId epoch)) trivial
  | connectionChanged window tabId connection => exact iff_of_true one trivial
  | beginEditResolved window tabId remotePath ioPath size modifiedAt sent =>
    refine iff_of_true ?_ trivial
    rw [apply, beginEditResolved]
    split
    · exact one
    · exact openEdit_oneEditPerFile valid one _ _ _ _
  | cancelLargeEdit window => exact iff_of_true one trivial
  | closeTab window tabId => exact iff_of_true (carried (closeTab_carried app window tabId)) trivial
  | closeWindow window => exact iff_of_true one trivial
  | cleanupOrphanedEditSessions => exact iff_of_true (carried (removeTabs_carried _ app.editSessions)) trivial
  | lifecycle followUp =>
    exact iff_of_true (RemoteEditLifecycle.followUp_oneEditPerFile valid one followUp) trivial

theorem one_edit_per_file_iff (editsDir : LocalPath) (runId : List Char) (ops : List EditAppOp) :
    (∀ k, (machine.run (new editsDir runId) (ops.take k)).editSessions.store.OneEditPerFile) ↔
      machine.Admissible (fun app op => op.Clear app) (new editsDir runId) ops := by
  apply machine.invariant_iff_admissible (V := fun app => app.editSessions.store.Valid)
    (I := fun app => app.editSessions.store.OneEditPerFile)
  · exact fun app op _ valid => apply_valid valid op
  · exact fun app op _ valid one => apply_oneEditPerFile_iff valid one op
  · exact RemoteEditLifecycle.new_valid editsDir runId
  · exact List.Pairwise.nil

/-- Both windows have connected with the saved profile 1. -/
def sampleKey : ConnectionKey := ⟨"srv", 22, "alex", .saved ⟨.sshAgent, none, none, 1, some ⟨1⟩, none⟩⟩

/-- Two windows ask for the same large file before either confirms it. -/
def twoConfirmations : List EditAppOp :=
  [.openTab 1 ⟨⟨1⟩, .connected 1, some sampleKey, none⟩, .openTab 2 ⟨⟨2⟩, .connected 1, some sampleKey, none⟩,
    .beginEditResolved 1 ⟨1⟩ (.new "/big.iso") (.new "/big.iso") (some 200000000) none true,
    .beginEditResolved 2 ⟨2⟩ (.new "/big.iso") (.new "/big.iso") (some 200000000) none true,
    .confirmLargeEdit 1 true, .confirmLargeEdit 2 true]

theorem two_confirmations_edit_one_file_twice :
    ¬ (machine.run (new (.new "/e") ['r']) twoConfirmations).editSessions.store.OneEditPerFile := by
  decide

end EditApp

end MacSftp
