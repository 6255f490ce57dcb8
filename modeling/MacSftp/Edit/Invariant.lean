import MacSftp.Edit.Baseline

namespace MacSftp

open Lib EditSessionStore

def EditEffect.startedDownload : EditEffect → Option (EditSessionId × LocalPath)
  | .dispatch _ sessionId (.startTransfer command) .abortDownload =>
    match command.destination with
    | .local path => some (sessionId, path)
    | .remote _ => none
  | _ => none

namespace RemoteEditLifecycle

variable {l : RemoteEditLifecycle}

def allocatedSession (l : RemoteEditLifecycle) (op : EditOp) : Option (EditSessionId × LocalPath) :=
  match op, (l.apply op).2 with
  | .startDownload _, .started (.ok edit) => some (edit.sessionId, edit.tempPath)
  | .resolveConflict _ _, .caused effects => effects.findSome? EditEffect.startedDownload
  | _, _ => none

/-- The check id that an operation takes from the store, whether the request is granted or not. -/
def allocatedCheck (l : RemoteEditLifecycle) : EditOp → Option EditCheckId
  | .requestUpload .. => some l.store.takeNextCheckId.2
  | _ => none

theorem startDownload_cases (pending : PendingEdit) :
    ((l.startDownload pending).1 = l ∧ ∃ notice, (l.startDownload pending).2 = .error notice) ∨
      ∃ name, (l.startDownload pending).1.store = l.store.takeNextId.1.register
          (downloadSession pending ⟨l.store.nextId⟩ (l.tempPath ⟨l.store.nextId⟩ name)) ∧
        (l.startDownload pending).2 = .ok ⟨⟨l.store.nextId⟩, l.tempPath ⟨l.store.nextId⟩ name,
          downloadCommand pending (l.tempPath ⟨l.store.nextId⟩ name)⟩ := by
  unfold startDownload
  split
  · exact Or.inl ⟨rfl, _, rfl⟩
  · exact Or.inr ⟨_, rfl, rfl⟩

/-- The operation hands out nothing and keeps the sessions' targets, or it hands out the next id with its temp path and
registers one session under them. -/
def Allocates (l : RemoteEditLifecycle) (op : EditOp) : Prop :=
  l.store.Retained (l.apply op).1.store ∧ l.allocatedSession op = none ∨
    ∃ mid pending name, l.store.Carried mid ∧
      l.allocatedSession op = some (⟨l.store.nextId⟩, l.tempPath ⟨l.store.nextId⟩ name) ∧
      (l.apply op).1.store = mid.takeNextId.1.register
        (downloadSession pending ⟨l.store.nextId⟩ (l.tempPath ⟨l.store.nextId⟩ name))

theorem startDownload_allocates (pending : PendingEdit) : l.Allocates (.startDownload pending) := by
  rcases startDownload_cases (l := l) pending with ⟨same, notice, refused⟩ | ⟨name, store, started⟩
  · refine Or.inl ⟨?_, ?_⟩
    · show l.store.Retained (l.startDownload pending).1.store
      rw [same]
      exact .refl _
    · simp only [allocatedSession, apply, refused]
  · refine Or.inr ⟨l.store, pending, name, .refl _, ?_, store⟩
    simp only [allocatedSession, apply, started]

theorem discardLocal_started (session : EditSession) :
    ∃ pending, (l.discardLocal session).1 = ({ l with store := l.store.remove session.id }.startDownload pending).1 ∧
      ((∃ notice, ({ l with store := l.store.remove session.id }.startDownload pending).2 = .error notice) →
        (l.discardLocal session).2.findSome? EditEffect.startedDownload = none) ∧
      ∀ id path, ({ l with store := l.store.remove session.id }.startDownload pending).2 =
          .ok ⟨id, path, downloadCommand pending path⟩ →
        (l.discardLocal session).2.findSome? EditEffect.startedDownload = some (id, path) := by
  unfold discardLocal
  dsimp only
  split
  · rename_i edit started
    refine ⟨_, rfl, ?_, ?_⟩
    · rintro ⟨notice, refused⟩
      rw [started] at refused
      cases refused
    · intro id path given
      rw [started] at given
      cases given
      rfl
  · rename_i notice refused
    refine ⟨_, rfl, fun _ => rfl, ?_⟩
    intro id path given
    rw [refused] at given
    cases given

theorem discardLocal_allocates (id : EditSessionId) : l.Allocates (.resolveConflict id .discardLocal) := by
  unfold Allocates allocatedSession
  simp only [apply, resolveConflict]
  cases found : l.store.get id with
  | none => exact Or.inl ⟨.refl _, rfl⟩
  | some session =>
    by_cases conflict : session.phase ≠ .remoteConflict
    · simp only [if_pos conflict]
      exact Or.inl ⟨.refl _, rfl⟩
    · simp only [if_neg conflict]
      obtain ⟨pending, state, refused, started⟩ := discardLocal_started (l := l) session
      rw [state]
      have removed := remove_carried l.store session.id
      rcases startDownload_cases (l := { l with store := l.store.remove session.id }) pending with
        ⟨same, error⟩ | ⟨name, store, given⟩
      · refine Or.inl ⟨?_, refused error⟩
        rw [same]
        exact removed.retained
      · exact Or.inr ⟨l.store.remove session.id, pending, name, removed, started _ _ given, store⟩

theorem apply_allocates (valid : l.store.Valid) (op : EditOp) : l.Allocates op := by
  cases op with
  | startDownload pending => exact startDownload_allocates pending
  | resolveConflict id choice =>
    by_cases discard : choice = .discardLocal
    · rw [discard]
      exact discardLocal_allocates id
    · refine Or.inl ⟨(resolveConflict_carried valid.ids id discard).retained, ?_⟩
      show (l.resolveConflict id choice).2.findSome? EditEffect.startedDownload = none
      unfold resolveConflict
      split
      · rfl
      · split
        · rfl
        · cases choice with
          | discardLocal => exact absurd rfl discard
          | overwrite => rfl
          | later => rfl
  | begin pending isTabLive => exact Or.inl ⟨(begin_carried pending isTabLive).retained, rfl⟩
  | abortDownload id => exact Or.inl ⟨(abortDownload_carried id).retained, rfl⟩
  | requestUpload id epoch key mtime => exact Or.inl ⟨requestUpload_retained valid id epoch key mtime, rfl⟩
  | revertCheck id => exact Or.inl ⟨(revertCheck_carried valid.ids id).retained, rfl⟩
  | onCheckResult result mtime => exact Or.inl ⟨(onCheckResult_carried valid.ids result mtime).retained, rfl⟩
  | onTransferFinished finished facts => exact Or.inl ⟨(onTransferFinished_carried valid.ids finished facts).retained, rfl⟩
  | dispatchFailed id rollback => exact Or.inl ⟨(dispatchFailed_carried valid.ids id rollback).retained, rfl⟩
  | recordLocalModified id path facts => exact Or.inl ⟨(recordLocalModified_carried valid.ids id path facts).retained, rfl⟩
  | adoptListingBaselines tab listing => exact Or.inl ⟨(adoptListingBaselines_carried valid.ids tab listing).retained, rfl⟩
  | updateEpochForTab tab epoch => exact Or.inl ⟨(updateEpochForTab_carried _ tab epoch).retained, rfl⟩
  | removeForTab tab => exact Or.inl ⟨(removeForTab_carried _ tab).retained, rfl⟩

theorem apply_counters (valid : l.store.Valid) (op : EditOp) :
    l.store.nextId ≤ (l.apply op).1.store.nextId ∧ l.store.nextCheckId ≤ (l.apply op).1.store.nextCheckId := by
  rcases l.apply_cases valid.ids op with ⟨_, carried | ⟨mid, session, carried, _, _, registered⟩⟩ |
    ⟨_, _, _, _, _, _, _, store⟩ | ⟨s, _, epoch, _, mtime, _, _, store⟩
  · exact ⟨carried.nextId.ge, carried.nextCheckId.ge⟩
  · rw [registered]
    exact ⟨carried.nextId.ge.trans (Nat.le_succ _), carried.nextCheckId.ge⟩
  · rw [store]
    exact ⟨le_refl _, Nat.le_succ _⟩
  · rw [store]
    exact ⟨le_refl _, Nat.le_succ _⟩

theorem allocatedSession_takes (valid : l.store.Valid) {op : EditOp} {entry : EditSessionId × LocalPath}
    (h : l.allocatedSession op = some entry) :
    entry.1.raw = l.store.nextId ∧ l.store.nextId < (l.apply op).1.store.nextId := by
  rcases apply_allocates valid op with ⟨_, none_⟩ | ⟨mid, pending, name, carried, some_, store⟩
  · rw [none_] at h
    cases h
  · rw [some_] at h
    cases h
    rw [store]
    refine ⟨rfl, ?_⟩
    show l.store.nextId < mid.nextId + 1
    rw [carried.nextId]
    exact Nat.lt_succ_self _

theorem allocatedCheck_takes {op : EditOp} {check : EditCheckId} (h : l.allocatedCheck op = some check) :
    check.raw = l.store.nextCheckId ∧ l.store.nextCheckId < (l.apply op).1.store.nextCheckId := by
  cases op with
  | requestUpload id epoch key mtime =>
    cases h
    refine ⟨rfl, ?_⟩
    show l.store.nextCheckId < (l.requestUpload id epoch key mtime).1.store.nextCheckId
    rcases requestUpload_cases (l := l) id epoch key mtime with ⟨notice, refused⟩ | ⟨s, _, _, granted⟩
    · rw [refused]
      exact Nat.lt_succ_self _
    · rw [granted]
      exact Nat.lt_succ_self _
  | begin | startDownload | abortDownload | revertCheck | onCheckResult | onTransferFinished | resolveConflict
  | dispatchFailed | recordLocalModified | adoptListingBaselines | updateEpochForTab | removeForTab => cases h

theorem allocatedSession_path (valid : l.store.Valid) {op : EditOp} {entry : EditSessionId × LocalPath}
    (h : l.allocatedSession op = some entry) : ∃ name, entry.2 = l.tempPath entry.1 name := by
  rcases apply_allocates valid op with ⟨_, none_⟩ | ⟨mid, pending, name, carried, some_, store⟩
  · rw [none_] at h
    cases h
  · rw [some_] at h
    cases h
    exact ⟨name, rfl⟩

section Run

variable (editsDir : LocalPath) (runId : List Char) (ops : List EditOp)

def allocatedSessions : List (EditSessionId × LocalPath) := machine.collect allocatedSession (new editsDir runId) ops

def allocatedChecks : List EditCheckId := machine.collect allocatedCheck (new editsDir runId) ops

theorem allocatedSessions_sorted :
    (allocatedSessions editsDir runId ops).Pairwise (fun a b => a.1.raw < b.1.raw) := by
  refine (machine.collect_numbered (I := fun l => l.store.Valid) (fun l => l.store.nextId) ?_ ?_ ?_
    (new_valid editsDir runId) ops).1
  · exact fun l op valid => apply_valid valid op
  · exact fun l op valid => (apply_counters valid op).1
  · exact fun l op entry valid taken => allocatedSession_takes valid taken

theorem allocatedChecks_sorted : (allocatedChecks editsDir runId ops).Pairwise (fun a b => a.raw < b.raw) := by
  refine (machine.collect_numbered (I := fun l => l.store.Valid) (fun l => l.store.nextCheckId) ?_ ?_ ?_
    (new_valid editsDir runId) ops).1
  · exact fun l op valid => apply_valid valid op
  · exact fun l op valid => (apply_counters valid op).2
  · exact fun l op check _ taken => allocatedCheck_takes taken

theorem allocatedSessions_path :
    ∀ entry ∈ allocatedSessions editsDir runId ops, ∃ name, entry.2 = (new editsDir runId).tempPath entry.1 name := by
  refine machine.collect_forall (I := fun l => l.store.Valid ∧ l.editsDir = editsDir ∧ l.runId = runId) ?_ ?_
    ⟨new_valid editsDir runId, rfl, rfl⟩ ops
  · rintro l op ⟨valid, dir, run⟩
    obtain ⟨sameDir, sameRun⟩ := apply_dirs l op
    exact ⟨apply_valid valid op, sameDir.trans dir, sameRun.trans run⟩
  · rintro l op entry ⟨valid, dir, run⟩ taken
    obtain ⟨name, path⟩ := allocatedSession_path valid taken
    refine ⟨name, ?_⟩
    rw [path, tempPath, tempPath, dir, run]
    rfl

theorem allocatedSessions_paths_nodup : ((allocatedSessions editsDir runId ops).map Prod.snd).Nodup := by
  rw [List.nodup_iff_pairwise_ne, List.pairwise_map]
  refine (allocatedSessions_sorted editsDir runId ops).imp_of_mem ?_
  intro a b ha hb below same
  obtain ⟨x, hx⟩ := allocatedSessions_path editsDir runId ops a ha
  obtain ⟨y, hy⟩ := allocatedSessions_path editsDir runId ops b hb
  rw [hx, hy] at same
  rw [tempPath_id same] at below
  exact lt_irrefl _ below

theorem stored_allocated :
    ∀ session ∈ (machine.run (new editsDir runId) ops).store.sessions,
      (session.id, session.localTempPath) ∈ allocatedSessions editsDir runId ops := by
  induction ops using List.reverseRecOn with
  | nil =>
    intro session hs
    cases hs
  | append_singleton before op ih =>
    have valid := (reachable_tempPaths editsDir runId before).1
    rw [Machine.run_concat, allocatedSessions, Machine.collect_concat]
    intro session hs
    rcases apply_allocates valid op with ⟨retained, _⟩ | ⟨mid, pending, name, carried, taken, store⟩
    · obtain ⟨old, ho, same⟩ := retained.origin session hs
      simp only [EditSession.target, EditTarget.mk.injEq] at same
      rw [same.1, same.2.2.2.2.2]
      exact List.mem_append_left _ (ih old ho)
    · have hs : session ∈ (mid.takeNextId.1.register _).sessions := store ▸ hs
      rcases List.mem_append.mp hs with kept | new
      · obtain ⟨old, ho, same⟩ := carried.retained.origin session kept
        simp only [EditSession.target, EditTarget.mk.injEq] at same
        rw [same.1, same.2.2.2.2.2]
        exact List.mem_append_left _ (ih old ho)
      · rw [List.mem_singleton.mp new, taken]
        exact List.mem_append_right _ (List.mem_singleton_self _)

theorem pending_allocated :
    ∀ session ∈ (machine.run (new editsDir runId) ops).store.sessions, ∀ check, session.pendingCheckId = some check →
      check ∈ allocatedChecks editsDir runId ops := by
  induction ops using List.reverseRecOn with
  | nil =>
    intro session hs
    cases hs
  | append_singleton before op ih =>
    have valid := (reachable_tempPaths editsDir runId before).1
    set l := machine.run (new editsDir runId) before with hl
    have grown : ∀ check, check ∈ allocatedChecks editsDir runId before →
        check ∈ allocatedChecks editsDir runId (before ++ [op]) := by
      intro check known
      rw [allocatedChecks, Machine.collect_concat]
      exact List.mem_append_left _ known
    rw [Machine.run_concat]
    intro session hs check pending
    rcases l.apply_cases valid.ids op with ⟨_, carried | registered⟩ | ⟨_, _, _, _, _, _, _, store⟩ |
      ⟨s, _, epoch, key, mtime, rfl, _, store⟩
    · obtain ⟨old, ho, _, same, _⟩ := carried.pending hs pending
      exact grown check (ih old ho check same)
    · rcases registered.mem hs with ⟨old, ho, _, kept | dropped⟩ | dropped
      · exact grown check (ih old ho check (kept.1 ▸ pending))
      · rw [dropped.1] at pending
        cases pending
      · rw [dropped.1] at pending
        cases pending
    · have hs : session ∈ l.store.takeNextCheckId.1.sessions := store ▸ hs
      exact grown check (ih session hs check pending)
    · have hs : session ∈ (l.store.takeNextCheckId.1.getMut s.id
          (markChecking epoch ⟨l.store.nextCheckId⟩ mtime)).sessions := store ▸ hs
      rcases markChecking_mem valid hs with ⟨old, _⟩ | ⟨old, _, _, rfl⟩
      · exact grown check (ih session old check pending)
      · cases pending
        rw [allocatedChecks, Machine.collect_concat]
        exact List.mem_append_right _ (List.mem_singleton_self _)

theorem removed_session_ignored {entry : EditSessionId × LocalPath} (allocated : entry ∈ allocatedSessions editsDir runId ops)
    (removed : ∀ session ∈ (machine.run (new editsDir runId) ops).store.sessions, session.id ≠ entry.1)
    (finished : EditTransferFinished) (facts : Option LocalFileFacts)
    (belonged : localEndpoint finished.source finished.destination = some entry.2) :
    (machine.run (new editsDir runId) ops).onTransferFinished finished facts =
      (machine.run (new editsDir runId) ops, []) := by
  have none_ : (machine.run (new editsDir runId) ops).store.findByTempPath entry.2 = none := by
    refine (findKey_eq_none EditSession.localTempPath).mpr ?_
    intro session hs same
    obtain ⟨x, hx⟩ := allocatedSessions_path editsDir runId ops _ (stored_allocated editsDir runId ops session hs)
    obtain ⟨y, hy⟩ := allocatedSessions_path editsDir runId ops entry allocated
    exact removed session hs (tempPath_id (hx.symm.trans (same.trans hy)))
  unfold onTransferFinished
  simp only [belonged, none_]

theorem tempPaths_nodup :
    ((machine.run (new editsDir runId) ops).store.sessions.map EditSession.localTempPath).Nodup := by
  obtain ⟨valid, paths⟩ := reachable_tempPaths editsDir runId ops
  refine List.Nodup.map_on ?_ (List.Nodup.of_map _ valid.ids)
  exact fun s hs t ht same => paths.unique valid hs ht same

end Run

end RemoteEditLifecycle

/-- Operations that act on the sessions of whole tabs: of the tab they name, or of the tabs they find gone. -/
def EditOp.tabWide : EditOp → Bool
  | .begin .. | .adoptListingBaselines .. | .updateEpochForTab .. | .removeForTab _ => true
  | _ => false

def EditOp.Names : EditOp → EditSession → Prop
  | .begin _ isTabLive, session => isTabLive session.tabId = false
  | .startDownload _, _ => False
  | .abortDownload id, session | .requestUpload id _ _ _, session | .revertCheck id, session
  | .resolveConflict id _, session | .dispatchFailed id _, session | .recordLocalModified id _ _, session => session.id = id
  | .onCheckResult result _, session => session.id = result.sessionId
  | .onTransferFinished finished _, session =>
    RemoteEditLifecycle.localEndpoint finished.source finished.destination = some session.localTempPath
  | .adoptListingBaselines tab _, session | .updateEpochForTab tab _, session | .removeForTab tab, session =>
    session.tabId = tab

namespace EditSessionStore

variable {store : EditSessionStore} {session : EditSession}

theorem removeForTab_keeps (hs : session ∈ store.sessions) {tab : TabId} (other : session.tabId ≠ tab) :
    session ∈ (store.removeForTab tab).1.sessions :=
  List.mem_filter.mpr ⟨hs, decide_eq_true other⟩

end EditSessionStore

namespace RemoteEditLifecycle

variable {l : RemoteEditLifecycle} {session : EditSession}

theorem abortDownload_keeps (hs : session ∈ l.store.sessions) {id : EditSessionId} (other : session.id ≠ id) :
    session ∈ (l.abortDownload id).1.store.sessions := by
  unfold abortDownload
  split
  · exact hs
  · split
    · exact hs
    · exact remove_keeps hs other

theorem beginDedup_keeps (hs : session ∈ l.store.sessions) (pending : PendingEdit) {isTabLive : TabId → Bool}
    (live : isTabLive session.tabId = true) (reaped : List EditEffect) :
    session ∈ (l.beginDedup pending isTabLive reaped).1.store.sessions := by
  unfold beginDedup
  split
  · exact hs
  · split
    · exact hs
    · rename_i existing _ gone
      refine removeForTab_keeps hs ?_
      intro same
      rw [same] at live
      exact gone live

theorem begin_keeps (hs : session ∈ l.store.sessions) (pending : PendingEdit) {isTabLive : TabId → Bool}
    (live : isTabLive session.tabId = true) : session ∈ (l.begin pending isTabLive).1.store.sessions := by
  unfold begin
  split
  · exact beginDedup_keeps hs pending live _
  · split
    · exact beginDedup_keeps hs pending live _
    · split
      · exact hs
      · rename_i existing _ _ gone
        refine beginDedup_keeps (removeForTab_keeps hs ?_) pending live _
        intro same
        rw [same] at live
        exact gone live

theorem startDownload_keeps (hs : session ∈ l.store.sessions) (pending : PendingEdit) :
    session ∈ (l.startDownload pending).1.store.sessions := by
  unfold startDownload
  split
  · exact hs
  · exact List.mem_append_left _ hs

theorem requestUpload_keeps (hs : session ∈ l.store.sessions) {id : EditSessionId} (other : session.id ≠ id) (epoch : Nat)
    (key : ConnectionKey) (mtime : Timestamp) : session ∈ (l.requestUpload id epoch key mtime).1.store.sessions := by
  rcases requestUpload_cases (l := l) id epoch key mtime with ⟨_, refused⟩ | ⟨_, _, _, granted⟩
  · rw [refused]
    exact hs
  · rw [granted]
    exact getMut_keeps hs other _

theorem onCheckResult_keeps (hs : session ∈ l.store.sessions) {result : EditCheckResult}
    (other : session.id ≠ result.sessionId) (mtime : Option Timestamp) :
    session ∈ (l.onCheckResult result mtime).1.store.sessions := by
  unfold onCheckResult
  split
  · exact hs
  split
  · exact hs
  split
  · exact getMut_keeps hs other _
  split
  · split
    · exact getMut_keeps hs other _
    · exact getMut_keeps hs other _
  · exact getMut_keeps hs other _

theorem onTransferFinished_keeps (valid : l.store.Valid) (hs : session ∈ l.store.sessions) {finished : EditTransferFinished}
    (other : localEndpoint finished.source finished.destination ≠ some session.localTempPath)
    (facts : Option LocalFileFacts) : session ∈ (l.onTransferFinished finished facts).1.store.sessions := by
  refine onTransferFinished_apart hs ?_ facts
  intro temp found path stored _ is
  obtain ⟨hf, same⟩ := findKey_mem EditSession.localTempPath stored
  rw [key_unique EditSession.id valid.ids hs hf is, same] at other
  exact other path

theorem resolveConflict_keeps (hs : session ∈ l.store.sessions) {id : EditSessionId} (other : session.id ≠ id)
    (choice : ConflictChoice) : session ∈ (l.resolveConflict id choice).1.store.sessions := by
  unfold resolveConflict
  split
  · exact hs
  rename_i found stored
  obtain ⟨_, rfl⟩ := get_mem stored
  split
  · exact hs
  cases choice with
  | overwrite => exact getMut_keeps hs other _
  | discardLocal =>
    obtain ⟨pending, state, _⟩ := discardLocal_started (l := l) found
    show session ∈ (l.discardLocal found).1.store.sessions
    rw [state]
    exact startDownload_keeps (remove_keeps hs other) pending
  | later => exact getMut_keeps hs other _

theorem dispatchFailed_keeps (hs : session ∈ l.store.sessions) {id : EditSessionId} (other : session.id ≠ id)
    (rollback : DispatchRollback) : session ∈ (l.dispatchFailed id rollback).1.store.sessions := by
  cases rollback with
  | revertCheck => exact getMut_keeps hs other _
  | restoreConflict => exact getMut_keeps hs other _
  | abortDownload => exact abortDownload_keeps hs other

theorem recordLocalModified_keeps (hs : session ∈ l.store.sessions) {id : EditSessionId} (other : session.id ≠ id)
    (path : LocalPath) (facts : Option LocalFileFacts) :
    session ∈ (l.recordLocalModified id path facts).1.store.sessions := by
  unfold recordLocalModified
  split
  · exact hs
  · split
    · exact hs
    · split
      · exact hs
      · exact getMut_keeps hs other _

theorem adoptListingBaselines_keeps (valid : l.store.Valid) (hs : session ∈ l.store.sessions) {tab : TabId}
    (other : session.tabId ≠ tab) (listing : List (RemotePath × RemoteSnapshot)) :
    session ∈ (l.adoptListingBaselines tab listing).store.sessions := by
  have fold : ∀ (adoptions : List (EditSessionId × RemoteSnapshot)) (store : EditSessionStore), session ∈ store.sessions →
      (∀ adoption ∈ adoptions, session.id ≠ adoption.1) →
      session ∈ (adoptions.foldl (fun store adoption =>
        store.getMut adoption.1 (fun s => { s with remoteSnapshot := adoption.2 })) store).sessions := by
    intro adoptions
    induction adoptions with
    | nil => exact fun store there _ => there
    | cons adoption rest ih =>
      intro store there apart
      refine ih _ (getMut_keeps there (apart adoption List.mem_cons_self) _) ?_
      exact fun adoption member => apart adoption (List.mem_cons_of_mem _ member)
  refine fold _ _ hs ?_
  intro adoption member is
  obtain ⟨adopting, ha, listed⟩ := List.mem_filterMap.mp member
  obtain ⟨there, editing⟩ := List.mem_filter.mp ha
  have same : adopting.id = adoption.1 := by
    unfold listedBaseline at listed
    split at listed
    · cases listed
    · split at listed
      · cases listed
      · split at listed
        · cases listed
          rfl
        · cases listed
  rw [key_unique EditSession.id valid.ids hs there (is.trans same.symm)] at other
  exact other (of_decide_eq_true editing).2

theorem updateEpochForTab_keeps (hs : session ∈ l.store.sessions) {tab : TabId} (other : session.tabId ≠ tab) (epoch : Nat) :
    session ∈ (l.updateEpochForTab tab epoch).store.sessions :=
  List.mem_map.mpr ⟨session, hs, if_neg other⟩

theorem apply_keeps (valid : l.store.Valid) (op : EditOp) (hs : session ∈ l.store.sessions) (other : ¬ op.Names session) :
    session ∈ (l.apply op).1.store.sessions := by
  cases op with
  | begin pending isTabLive => exact begin_keeps hs pending (by simpa [EditOp.Names] using other)
  | startDownload pending => exact startDownload_keeps hs pending
  | abortDownload id => exact abortDownload_keeps hs other
  | requestUpload id epoch key mtime => exact requestUpload_keeps hs other epoch key mtime
  | revertCheck id => exact getMut_keeps hs other _
  | onCheckResult result mtime => exact onCheckResult_keeps hs other mtime
  | onTransferFinished finished facts => exact onTransferFinished_keeps valid hs other facts
  | resolveConflict id choice => exact resolveConflict_keeps hs other choice
  | dispatchFailed id rollback => exact dispatchFailed_keeps hs other rollback
  | recordLocalModified id path facts => exact recordLocalModified_keeps hs other path facts
  | adoptListingBaselines tab listing => exact adoptListingBaselines_keeps valid hs other listing
  | updateEpochForTab tab epoch => exact updateEpochForTab_keeps hs other epoch
  | removeForTab tab => exact removeForTab_keeps hs other

theorem names_unique (valid : l.store.Valid) (paths : l.TempPaths) {op : EditOp} (single : op.tabWide = false)
    {s t : EditSession} (hs : s ∈ l.store.sessions) (ht : t ∈ l.store.sessions) (ns : op.Names s) (nt : op.Names t) :
    s = t := by
  have by_id : ∀ {id : EditSessionId}, s.id = id → t.id = id → s = t := fun a b =>
    key_unique EditSession.id valid.ids hs ht (a.trans b.symm)
  cases op with
  | begin | adoptListingBaselines | updateEpochForTab | removeForTab => cases single
  | startDownload => exact ns.elim
  | abortDownload | requestUpload | revertCheck | resolveConflict | dispatchFailed | recordLocalModified =>
    exact by_id ns nt
  | onCheckResult => exact by_id ns nt
  | onTransferFinished => exact paths.unique valid hs ht (Option.some.inj (ns.symm.trans nt))

theorem edit_session_invariant (editsDir : LocalPath) (runId : List Char) (ops : List EditOp) :
    let l := machine.run (new editsDir runId) ops
    let allocated := allocatedSessions editsDir runId ops
    (l.store.sessions.map EditSession.id).Nodup ∧
      ((allocated.map Prod.fst).Nodup ∧ (allocated.map Prod.snd).Nodup ∧ (allocatedChecks editsDir runId ops).Nodup) ∧
      (∀ session ∈ l.store.sessions, (session.id, session.localTempPath) ∈ allocated ∧
        ∀ check, session.pendingCheckId = some check → check ∈ allocatedChecks editsDir runId ops) ∧
      (l.store.sessions.map EditSession.localTempPath).Nodup ∧
      (∀ session ∈ l.store.sessions, session.ChecksAgree) ∧
      (∀ entry ∈ allocated, (∀ session ∈ l.store.sessions, session.id ≠ entry.1) → ∀ finished facts,
        localEndpoint finished.source finished.destination = some entry.2 →
          l.onTransferFinished finished facts = (l, [])) ∧
      ∀ op : EditOp, (∀ session ∈ l.store.sessions, ¬ op.Names session → session ∈ (l.apply op).1.store.sessions) ∧
        (op.tabWide = false → ∀ s ∈ l.store.sessions, ∀ t ∈ l.store.sessions, op.Names s → op.Names t → s = t) := by
  intro l allocated
  obtain ⟨valid, paths⟩ := reachable_tempPaths editsDir runId ops
  have sorted := allocatedSessions_sorted editsDir runId ops
  refine ⟨valid.ids, ⟨?_, allocatedSessions_paths_nodup editsDir runId ops, ?_⟩, ?_, tempPaths_nodup editsDir runId ops,
    valid.checks, ?_, ?_⟩
  · rw [List.nodup_iff_pairwise_ne, List.pairwise_map]
    exact sorted.imp fun below same => absurd (congrArg EditSessionId.raw same) below.ne
  · rw [List.nodup_iff_pairwise_ne]
    exact (allocatedChecks_sorted editsDir runId ops).imp fun below same => absurd (congrArg EditCheckId.raw same) below.ne
  · exact fun session hs => ⟨stored_allocated editsDir runId ops session hs, pending_allocated editsDir runId ops session hs⟩
  · exact fun entry member removed finished facts belonged =>
      removed_session_ignored editsDir runId ops member removed finished facts belonged
  · intro op
    exact ⟨fun session hs other => apply_keeps valid op hs other,
      fun single s hs t ht ns nt => names_unique valid paths single hs ht ns nt⟩

/-- The server's file has changed under the edit, and the user takes the server's version. -/
def discardedRun : List EditOp := sampleUploadRun ++
  [.onCheckResult { sampleResult with outcome := .matched ⟨some 11, some (.fromSecsSinceEpoch 101)⟩ }
    (some (.fromSecsSinceEpoch 200)), .resolveConflict ⟨1⟩ .discardLocal]

theorem edit_session_invariant_discarded :
    let l := machine.run (new (.new "/e") ['r']) discardedRun
    l.store.sessions.map EditSession.id = [⟨2⟩] ∧ ∀ facts,
      l.onTransferFinished ⟨.upload, .local (.new "/e/r/1/notes.txt"), .remote (.new "/notes.txt"), true⟩ facts = (l, []) := by
  intro l
  refine ⟨by decide, fun facts => ?_⟩
  obtain ⟨_, _, _, _, _, ignored, _⟩ := edit_session_invariant (.new "/e") ['r'] discardedRun
  exact ignored (⟨1⟩, .new "/e/r/1/notes.txt") (by decide) (by decide) _ facts rfl

def editingTwoFiles : List EditOp :=
  [.startDownload samplePending,
    .startDownload { samplePending with remotePath := .new "/todo.txt", ioPath := .new "/todo.txt" },
    .onTransferFinished ⟨.download, .remote (.new "/notes.txt"), .local (.new "/e/r/1/notes.txt"), true⟩ none,
    .onTransferFinished ⟨.download, .remote (.new "/todo.txt"), .local (.new "/e/r/2/todo.txt"), true⟩ none]

def laterListing : List (RemotePath × RemoteSnapshot) :=
  [(.new "/notes.txt", ⟨some 10, some ⟨100500000000⟩⟩), (.new "/todo.txt", ⟨some 10, some ⟨100500000000⟩⟩)]

theorem listing_changes_two_sessions :
    let l := machine.run (new (.new "/e") ['r']) editingTwoFiles
    l.store.sessions.map EditSession.id = [⟨1⟩, ⟨2⟩] ∧
      ∀ session ∈ l.store.sessions, session ∉ (l.adoptListingBaselines ⟨1⟩ laterListing).store.sessions := by
  decide +kernel

end RemoteEditLifecycle

end MacSftp
