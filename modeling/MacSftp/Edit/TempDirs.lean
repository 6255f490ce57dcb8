import MacSftp.Edit.Invariant

namespace MacSftp

open Lib EditSessionStore

def EditEffect.deletedTempDir : EditEffect → Option LocalPath
  | .deleteTempDir path => some path
  | _ => none

/-- The temp paths an answer hands to its caller for deletion. -/
def EditAnswer.reportedPaths : EditAnswer → List LocalPath
  | .removed sessions => sessions.map EditSession.localTempPath
  | answer => answer.editEffects.filterMap EditEffect.deletedTempDir

namespace EditSessionStore

variable {old mid new : EditSessionStore}

def departed (old new : EditSessionStore) : List EditSession :=
  old.sessions.filter (fun s => ∀ s' ∈ new.sessions, s'.id ≠ s.id)

theorem mem_departed {s : EditSession} :
    s ∈ old.departed new ↔ s ∈ old.sessions ∧ ∀ s' ∈ new.sessions, s'.id ≠ s.id := by
  simp [departed]

def Keeps (old new : EditSessionStore) : Prop := ∀ s ∈ old.sessions, ∃ s' ∈ new.sessions, s'.id = s.id

theorem Keeps.refl (store : EditSessionStore) : store.Keeps store := fun s hs => ⟨s, hs, rfl⟩

theorem Keeps.trans (h : old.Keeps mid) (k : mid.Keeps new) : old.Keeps new := by
  intro s hs
  obtain ⟨t, ht, et⟩ := h s hs
  obtain ⟨u, hu, eu⟩ := k t ht
  exact ⟨u, hu, eu.trans et⟩

theorem Keeps.departed (h : old.Keeps new) : old.departed new = [] := by
  refine List.filter_eq_nil_iff.mpr ?_
  intro s hs
  obtain ⟨s', hs', same⟩ := h s hs
  simpa using ⟨s', hs', same⟩

theorem getMut_keepsIds (store : EditSessionStore) (id : EditSessionId) {f : EditSession → EditSession}
    (same : ∀ s, (f s).id = s.id) : store.Keeps (store.getMut id f) := by
  intro s hs
  have ids : (store.getMut id f).sessions.map EditSession.id = store.sessions.map EditSession.id :=
    updateKey_map EditSession.id id EditSession.id same store.sessions
  have there : s.id ∈ (store.getMut id f).sessions.map EditSession.id := by
    rw [ids]
    exact List.mem_map_of_mem hs
  exact List.mem_map.mp there

theorem updateEpochForTab_keepsIds (store : EditSessionStore) (tab : TabId) (epoch : Nat) :
    store.Keeps (store.updateEpochForTab tab epoch) := by
  intro s hs
  refine ⟨_, List.mem_map_of_mem hs, ?_⟩
  split_ifs <;> rfl

theorem departed_filter (keep : EditSession → Bool) (ids : (old.sessions.map EditSession.id).Nodup)
    (h : new.sessions = old.sessions.filter keep) : old.departed new = old.sessions.filter (fun s => !keep s) := by
  refine List.filter_congr ?_
  intro s hs
  have gone : (∀ s' ∈ new.sessions, s'.id ≠ s.id) ↔ keep s = false := by
    rw [h]
    constructor
    · intro apart
      by_contra kept
      exact apart s (List.mem_filter.mpr ⟨hs, by simpa using kept⟩) rfl
    · intro dropped s' hs' same
      obtain ⟨there, kept⟩ := List.mem_filter.mp hs'
      rw [key_unique EditSession.id ids there hs same, dropped] at kept
      cases kept
  by_cases kept : keep s = true
  · rw [decide_eq_false (by rw [gone, kept]; exact Bool.noConfusion), kept]
    rfl
  · have dropped : keep s = false := by simpa using kept
    rw [decide_eq_true (gone.mpr dropped), dropped]
    rfl

theorem departed_removeForTab (ids : (old.sessions.map EditSession.id).Nodup) (tab : TabId) :
    old.departed (old.removeForTab tab).1 = (old.removeForTab tab).2 := by
  rw [departed_filter (fun s => s.tabId ≠ tab) ids rfl]
  exact List.filter_congr fun s _ => by simp

theorem departed_remove (ids : (old.sessions.map EditSession.id).Nodup) {session : EditSession}
    (stored : session ∈ old.sessions) : old.departed (old.remove session.id) = [session] := by
  have removed : (old.remove session.id).sessions = old.sessions.filter (fun s => s.id ≠ session.id) :=
    eraseP_eq_filter EditSession.id ids
  rw [departed_filter _ ids removed, ← filter_key EditSession.id ids stored]
  exact List.filter_congr fun s _ => by simp

theorem departed_register {session : EditSession} (fresh : ∀ s ∈ old.sessions, s.id ≠ session.id) :
    old.departed (new.register session) = old.departed new := by
  refine List.filter_congr ?_
  intro s hs
  have apart := fresh s hs
  simp only [register, List.mem_append, List.mem_singleton, or_imp, forall_and, forall_eq, decide_eq_decide]
  exact and_iff_left (Ne.symm apart)

end EditSessionStore

namespace RemoteEditLifecycle

variable {l : RemoteEditLifecycle}

def reports (entries : List (EditOp × EditAnswer)) : List LocalPath := entries.flatMap (fun e => e.2.reportedPaths)

/-- When `begin` reaps the gone tab of a re-pointed link, the file the link now leads to has no edit in a live tab. -/
def ReapReported (l : RemoteEditLifecycle) : EditOp → Prop
  | .begin pending isTabLive =>
    ∀ stale, l.store.findActiveForRemotePath pending.connectionKey pending.remotePath = some stale →
      stale.ioPath ≠ pending.ioPath → isTabLive stale.tabId = false →
      ∀ existing, (l.store.removeForTab stale.tabId).1.findActive pending.connectionKey pending.ioPath = some existing →
        isTabLive existing.tabId = false
  | _ => True

/-- What leaves the store at a step of the run is reported there and nowhere else in the run, nothing reported up to the
step is stored after it, and `begin` removes only sessions of tabs that are gone. -/
def TempDirsAccounted (start : RemoteEditLifecycle) (ops : List EditOp) : Prop :=
  ∀ before op after, ops = before ++ op :: after →
    let l := machine.run start before
    (∀ session ∈ l.store.departed (l.apply op).1.store,
      (l.apply op).2.reportedPaths.count session.localTempPath = 1 ∧
        (reports (machine.log start ops)).count session.localTempPath = 1) ∧
    (∀ session ∈ (l.apply op).1.store.sessions,
      session.localTempPath ∉ reports (machine.log start (before ++ [op]))) ∧
    ∀ pending isTabLive, op = .begin pending isTabLive →
      ∀ session ∈ l.store.departed (l.apply op).1.store, isTabLive session.tabId = false

/-- The answer reports what has left the store, each path once. -/
def Releases (l : RemoteEditLifecycle) (result : RemoteEditLifecycle × List LocalPath) : Prop :=
  result.2.Perm ((l.store.departed result.1.store).map EditSession.localTempPath)

theorem Releases.of_keeps {l' : RemoteEditLifecycle} (h : l.store.Keeps l'.store) : l.Releases (l', []) := by
  rw [Releases, h.departed]
  exact .nil

theorem releases_remove (ids : (l.store.sessions.map EditSession.id).Nodup) {session : EditSession}
    (stored : session ∈ l.store.sessions) :
    l.Releases ({ l with store := l.store.remove session.id }, [session.localTempPath]) := by
  rw [Releases, departed_remove ids stored]
  exact .refl _

theorem reapTab_reported (tab : TabId) : (l.reapTab tab).2.filterMap EditEffect.deletedTempDir =
    (l.store.removeForTab tab).2.map EditSession.localTempPath := by
  simp [reapTab, List.filterMap_map, Function.comp_def, EditEffect.deletedTempDir]

theorem releases_reapTab (ids : (l.store.sessions.map EditSession.id).Nodup) (tab : TabId) :
    l.Releases ((l.reapTab tab).1, (l.reapTab tab).2.filterMap EditEffect.deletedTempDir) := by
  rw [Releases, reapTab_reported]
  show List.Perm _ ((l.store.departed (l.store.removeForTab tab).1).map EditSession.localTempPath)
  rw [departed_removeForTab ids]

theorem releases_reapTabs (ids : (l.store.sessions.map EditSession.id).Nodup) (a b : TabId) :
    l.Releases (((l.reapTab a).1.reapTab b).1,
      ((l.reapTab a).2 ++ ((l.reapTab a).1.reapTab b).2).filterMap EditEffect.deletedTempDir) := by
  have both : (((l.reapTab a).1.reapTab b).1).store.sessions =
      l.store.sessions.filter (fun s => !(decide (s.tabId = a) || decide (s.tabId = b))) := by
    simp only [reapTab, EditSessionStore.removeForTab, List.filter_filter]
    exact List.filter_congr fun s _ => by simp [Bool.and_comm]
  rw [Releases, List.filterMap_append, reapTab_reported, reapTab_reported, ← List.map_append,
    departed_filter _ ids both]
  refine List.Perm.map _ ?_
  have split := List.filter_append_perm (fun s : EditSession => decide (s.tabId = a))
    (l.store.sessions.filter (fun s => decide (s.tabId = a) || decide (s.tabId = b)))
  simp only [List.filter_filter, Bool.not_not] at split ⊢
  refine List.Perm.trans (.of_eq ?_) split
  congr 1
  · exact List.filter_congr fun s _ => by by_cases h : s.tabId = a <;> simp [h]
  · simp only [reapTab, EditSessionStore.removeForTab, List.filter_filter]
    exact List.filter_congr fun s _ => by by_cases h : s.tabId = a <;> simp [h]

theorem reopen_reported (pending : PendingEdit) (existing : EditSession) :
    (reopen pending existing).filterMap EditEffect.deletedTempDir = [] := by
  unfold reopen
  cases existing.phase <;> rfl

theorem beginDedup_cases (pending : PendingEdit) (isTabLive : TabId → Bool) (reaped : List EditEffect) :
    (l.store.findActive pending.connectionKey pending.ioPath = none ∧
      l.beginDedup pending isTabLive reaped = (l, .start pending reaped)) ∨
    ∃ existing, l.store.findActive pending.connectionKey pending.ioPath = some existing ∧
      (isTabLive existing.tabId = true ∧
          l.beginDedup pending isTabLive reaped = (l, .handled (reopen pending existing)) ∨
        isTabLive existing.tabId = false ∧ l.beginDedup pending isTabLive reaped =
          ((l.reapTab existing.tabId).1, .start pending (reaped ++ (l.reapTab existing.tabId).2))) := by
  unfold beginDedup
  split
  · exact Or.inl ⟨‹_›, rfl⟩
  · rename_i existing found
    refine Or.inr ⟨existing, found, ?_⟩
    split
    · exact Or.inl ⟨‹_›, rfl⟩
    · rename_i gone
      exact Or.inr ⟨by simpa using gone, rfl⟩

theorem beginDedup_releases (ids : (l.store.sessions.map EditSession.id).Nodup) (pending : PendingEdit)
    (isTabLive : TabId → Bool) :
    l.Releases ((l.beginDedup pending isTabLive []).1, (EditAnswer.began (l.beginDedup pending isTabLive []).2).reportedPaths) := by
  rcases beginDedup_cases (l := l) pending isTabLive [] with ⟨_, free⟩ | ⟨existing, _, ⟨_, live⟩ | ⟨_, gone⟩⟩
  · rw [free]
    exact .of_keeps (.refl _)
  · rw [live]
    show l.Releases (l, (reopen pending existing).filterMap EditEffect.deletedTempDir)
    rw [reopen_reported]
    exact .of_keeps (.refl _)
  · rw [gone]
    exact releases_reapTab ids existing.tabId

theorem begin_releases (ids : (l.store.sessions.map EditSession.id).Nodup) {pending : PendingEdit}
    {isTabLive : TabId → Bool} (kept : l.ReapReported (.begin pending isTabLive)) :
    l.Releases ((l.begin pending isTabLive).1, (EditAnswer.began (l.begin pending isTabLive).2).reportedPaths) := by
  unfold begin
  split
  · exact beginDedup_releases ids pending isTabLive
  rename_i stale found
  split
  · exact beginDedup_releases ids pending isTabLive
  rename_i moved
  split
  · exact .of_keeps (.refl _)
  rename_i gone
  rcases beginDedup_cases (l := (l.reapTab stale.tabId).1) pending isTabLive (l.reapTab stale.tabId).2 with
    ⟨_, free⟩ | ⟨existing, active, ⟨live, _⟩ | ⟨_, both⟩⟩
  · rw [free]
    exact releases_reapTab ids stale.tabId
  · have dead := kept stale found moved (by simpa using gone) existing active
    rw [live] at dead
    cases dead
  · rw [both]
    exact releases_reapTabs ids stale.tabId existing.tabId

theorem begin_drops_reaped {pending : PendingEdit} {isTabLive : TabId → Bool}
    (dropped : ¬ l.ReapReported (.begin pending isTabLive)) :
    (EditAnswer.began (l.begin pending isTabLive).2).reportedPaths = [] ∧
      ∃ stale ∈ l.store.sessions, (l.begin pending isTabLive).1 = (l.reapTab stale.tabId).1 := by
  simp only [ReapReported, not_forall, Bool.not_eq_false] at dropped
  obtain ⟨stale, found, moved, gone, existing, active, live⟩ := dropped
  have step : l.begin pending isTabLive = ((l.reapTab stale.tabId).1, .handled (reopen pending existing)) := by
    unfold begin
    simp only [found, if_neg moved, gone, Bool.false_eq_true, ↓reduceIte]
    have active' : (l.reapTab stale.tabId).1.store.findActive pending.connectionKey pending.ioPath = some existing := active
    unfold beginDedup
    simp only [active', live, ↓reduceIte]
  rw [step]
  exact ⟨reopen_reported pending existing, stale, List.mem_reverse.mp (List.mem_of_find?_eq_some found), rfl⟩

theorem abortDownload_releases (ids : (l.store.sessions.map EditSession.id).Nodup) (id : EditSessionId) :
    l.Releases ((l.abortDownload id).1, (EditAnswer.caused (l.abortDownload id).2).reportedPaths) := by
  unfold abortDownload
  split
  · exact .of_keeps (.refl _)
  rename_i session found
  split
  · exact .of_keeps (.refl _)
  · obtain ⟨stored, rfl⟩ := get_mem found
    exact releases_remove ids stored

theorem startDownload_releases (pending : PendingEdit) :
    l.Releases ((l.startDownload pending).1, []) := by
  rcases startDownload_cases (l := l) pending with ⟨same, _⟩ | ⟨name, store, _⟩
  · rw [same]
    exact .of_keeps (.refl _)
  · refine .of_keeps ?_
    rw [store]
    exact fun s hs => ⟨s, List.mem_append_left _ hs, rfl⟩

theorem requestUpload_keepsIds (id : EditSessionId) (epoch : Nat) (key : ConnectionKey) (mtime : Timestamp) :
    l.store.Keeps (l.requestUpload id epoch key mtime).1.store := by
  rcases requestUpload_cases (l := l) id epoch key mtime with ⟨_, refused⟩ | ⟨_, _, _, granted⟩
  · rw [refused]
    exact .refl _
  · rw [granted]
    exact getMut_keepsIds _ id fun _ => rfl

theorem onCheckResult_releases (result : EditCheckResult) (mtime : Option Timestamp) :
    l.Releases ((l.onCheckResult result mtime).1, (EditAnswer.caused (l.onCheckResult result mtime).2).reportedPaths) := by
  unfold onCheckResult
  split
  · exact .of_keeps (.refl _)
  split
  · exact .of_keeps (.refl _)
  split
  · exact .of_keeps (getMut_keepsIds _ _ fun _ => rfl)
  split
  · split
    · exact .of_keeps (getMut_keepsIds _ _ fun _ => rfl)
    · exact .of_keeps (getMut_keepsIds _ _ fun _ => rfl)
  · exact .of_keeps (getMut_keepsIds _ _ fun _ => rfl)

theorem onTransferFinished_releases (ids : (l.store.sessions.map EditSession.id).Nodup) (finished : EditTransferFinished)
    (facts : Option LocalFileFacts) : l.Releases ((l.onTransferFinished finished facts).1,
      (EditAnswer.caused (l.onTransferFinished finished facts).2).reportedPaths) := by
  unfold onTransferFinished
  split
  · exact .of_keeps (.refl _)
  split
  · exact .of_keeps (.refl _)
  rename_i session found
  obtain ⟨stored, _⟩ := findKey_mem EditSession.localTempPath found
  split
  · exact .of_keeps (.refl _)
  split
  · split
    · exact .of_keeps (getMut_keepsIds _ _ fun _ => rfl)
    · exact releases_remove ids stored
  · split
    · cases facts with
      | none => exact .of_keeps (getMut_keepsIds _ _ fun _ => rfl)
      | some facts => exact .of_keeps (getMut_keepsIds _ _ fun _ => rfl)
    · exact .of_keeps (getMut_keepsIds _ _ fun _ => rfl)
  · exact .of_keeps (.refl _)

theorem discardLocal_releases (valid : l.store.Valid) {session : EditSession} (stored : session ∈ l.store.sessions) :
    l.Releases ((l.discardLocal session).1, (EditAnswer.caused (l.discardLocal session).2).reportedPaths) := by
  have reported : (EditAnswer.caused (l.discardLocal session).2).reportedPaths = [session.localTempPath] := by
    unfold discardLocal
    dsimp only
    split <;> rfl
  obtain ⟨pending, state, _⟩ := discardLocal_started (l := l) session
  rw [reported, state, Releases]
  have removed := releases_remove valid.ids stored
  rcases startDownload_cases (l := { l with store := l.store.remove session.id }) pending with
    ⟨same, _⟩ | ⟨name, store, _⟩
  · rw [same]
    exact removed
  · rw [store, departed_register]
    · exact removed
    · exact fun s hs same => absurd (congrArg EditSessionId.raw same) (valid.idBound s hs).ne

theorem resolveConflict_releases (valid : l.store.Valid) (id : EditSessionId) (choice : ConflictChoice) :
    l.Releases ((l.resolveConflict id choice).1, (EditAnswer.caused (l.resolveConflict id choice).2).reportedPaths) := by
  unfold resolveConflict
  split
  · exact .of_keeps (.refl _)
  rename_i session found
  split
  · exact .of_keeps (.refl _)
  cases choice with
  | overwrite => exact .of_keeps (getMut_keepsIds _ _ fun _ => rfl)
  | discardLocal => exact discardLocal_releases valid (get_mem found).1
  | later => exact .of_keeps (getMut_keepsIds _ _ fun _ => rfl)

theorem dispatchFailed_releases (ids : (l.store.sessions.map EditSession.id).Nodup) (id : EditSessionId)
    (rollback : DispatchRollback) : l.Releases ((l.dispatchFailed id rollback).1,
      (EditAnswer.caused (l.dispatchFailed id rollback).2).reportedPaths) := by
  cases rollback with
  | revertCheck => exact .of_keeps (getMut_keepsIds _ id fun _ => rfl)
  | restoreConflict =>
    refine .of_keeps (getMut_keepsIds _ id fun s => ?_)
    split <;> rfl
  | abortDownload => exact abortDownload_releases ids id

theorem recordLocalModified_keepsIds (id : EditSessionId) (path : LocalPath) (facts : Option LocalFileFacts) :
    l.store.Keeps (l.recordLocalModified id path facts).1.store := by
  unfold recordLocalModified
  split
  · exact .refl _
  split
  · exact .refl _
  split
  · exact .refl _
  · exact getMut_keepsIds _ id fun _ => rfl

theorem adoptListingBaselines_keepsIds (tab : TabId) (listing : List (RemotePath × RemoteSnapshot)) :
    l.store.Keeps (l.adoptListingBaselines tab listing).store := by
  have fold : ∀ (adoptions : List (EditSessionId × RemoteSnapshot)) (store : EditSessionStore),
      store.Keeps (adoptions.foldl (fun store adoption =>
        store.getMut adoption.1 (fun s => { s with remoteSnapshot := adoption.2 })) store) := by
    intro adoptions
    induction adoptions with
    | nil => exact fun store => .refl store
    | cons adoption rest ih =>
      intro store
      have first : store.Keeps (store.getMut adoption.1 (fun s => { s with remoteSnapshot := adoption.2 })) :=
        getMut_keepsIds store adoption.1 fun _ => rfl
      exact first.trans (ih _)
  exact fold _ _

theorem apply_releases (valid : l.store.Valid) {op : EditOp} (kept : l.ReapReported op) :
    l.Releases ((l.apply op).1, (l.apply op).2.reportedPaths) := by
  cases op with
  | begin pending isTabLive => exact begin_releases valid.ids kept
  | startDownload pending => exact startDownload_releases pending
  | abortDownload id => exact abortDownload_releases valid.ids id
  | requestUpload id epoch key mtime => exact .of_keeps (requestUpload_keepsIds id epoch key mtime)
  | revertCheck id => exact .of_keeps (getMut_keepsIds _ id fun _ => rfl)
  | onCheckResult result mtime => exact onCheckResult_releases result mtime
  | onTransferFinished finished facts => exact onTransferFinished_releases valid.ids finished facts
  | resolveConflict id choice => exact resolveConflict_releases valid id choice
  | dispatchFailed id rollback => exact dispatchFailed_releases valid.ids id rollback
  | recordLocalModified id path facts => exact .of_keeps (recordLocalModified_keepsIds id path facts)
  | adoptListingBaselines tab listing => exact .of_keeps (adoptListingBaselines_keepsIds tab listing)
  | updateEpochForTab tab epoch => exact .of_keeps (updateEpochForTab_keepsIds _ tab epoch)
  | removeForTab tab =>
    rw [Releases]
    show List.Perm _ ((l.store.departed (l.store.removeForTab tab).1).map EditSession.localTempPath)
    rw [departed_removeForTab valid.ids]
    exact .refl _

theorem begin_removes_dead (pending : PendingEdit) (isTabLive : TabId → Bool) :
    ∀ session ∈ l.store.departed (l.begin pending isTabLive).1.store, isTabLive session.tabId = false := by
  intro session left
  obtain ⟨stored, gone⟩ := mem_departed.mp left
  by_contra live
  exact gone session (begin_keeps stored pending (by simpa using live)) rfl

theorem apply_ids (valid : l.store.Valid) (op : EditOp) : ∀ session ∈ (l.apply op).1.store.sessions,
    (∃ s ∈ l.store.sessions, s.id = session.id) ∨ session.id.raw = l.store.nextId := by
  intro session hs
  rcases apply_allocates valid op with ⟨retained, _⟩ | ⟨mid, pending, name, carried, _, store⟩
  · obtain ⟨s, stored, same⟩ := retained.origin session hs
    exact Or.inl ⟨s, stored, (congrArg EditTarget.id same).symm⟩
  · have hs : session ∈ (mid.takeNextId.1.register _).sessions := store ▸ hs
    rcases List.mem_append.mp hs with kept | new
    · obtain ⟨s, stored, same⟩ := carried.retained.origin session kept
      exact Or.inl ⟨s, stored, (congrArg EditTarget.id same).symm⟩
    · rw [List.mem_singleton.mp new]
      exact Or.inr rfl

/-- The paths reported so far are all different, and each belongs to a session that was stored once and is not any more. -/
structure Booked (past : List LocalPath) (l : RemoteEditLifecycle) : Prop where
  nodup : past.Nodup
  gone : ∀ path ∈ past, ∃ id name, path = l.tempPath id name ∧ id.raw < l.store.nextId ∧
    ∀ session ∈ l.store.sessions, session.id ≠ id

theorem Booked.apart {past : List LocalPath} (booked : Booked past l) (paths : l.TempPaths) :
    ∀ session ∈ l.store.sessions, session.localTempPath ∉ past := by
  intro session hs reported
  obtain ⟨id, name, path, _, absent⟩ := booked.gone _ reported
  obtain ⟨name', path'⟩ := paths session hs
  exact absent session hs (tempPath_id (path'.symm.trans path))

theorem Booked.apply {past : List LocalPath} (booked : Booked past l) (valid : l.store.Valid) (paths : l.TempPaths)
    {op : EditOp} (kept : l.ReapReported op) : Booked (past ++ (l.apply op).2.reportedPaths) (l.apply op).1 := by
  have released := apply_releases valid kept
  obtain ⟨dir, run⟩ := apply_dirs l op
  have bound := (apply_counters valid op).1
  have left : ∀ path ∈ (l.apply op).2.reportedPaths, ∃ session ∈ l.store.departed (l.apply op).1.store,
      session.localTempPath = path := fun path reported => List.mem_map.mp (released.mem_iff.mp reported)
  constructor
  · refine List.nodup_append.mpr ⟨booked.nodup, released.nodup_iff.mpr ?_, ?_⟩
    · refine List.Nodup.map_on ?_ ((List.Nodup.of_map _ valid.ids).filter _)
      intro s hs t ht same
      exact paths.unique valid (mem_departed.mp hs).1 (mem_departed.mp ht).1 same
    · rintro path before path' reported rfl
      obtain ⟨session, departed, same⟩ := left path reported
      rw [← same] at before
      exact booked.apart paths session (mem_departed.mp departed).1 before
  · intro path reported
    have dirs : ∀ id name, (l.apply op).1.tempPath id name = l.tempPath id name := by
      intro id name
      rw [tempPath, tempPath, dir, run]
    rcases List.mem_append.mp reported with before | now
    · obtain ⟨id, name, path', below, absent⟩ := booked.gone path before
      refine ⟨id, name, path'.trans (dirs id name).symm, below.trans_le bound, ?_⟩
      intro session hs same
      rcases apply_ids valid op session hs with ⟨s, stored, is⟩ | fresh
      · exact absent s stored (is.trans same)
      · rw [← same, fresh] at below
        exact lt_irrefl _ below
    · obtain ⟨session, departed, same⟩ := left path now
      obtain ⟨stored, absent⟩ := mem_departed.mp departed
      obtain ⟨name, path'⟩ := paths session stored
      exact ⟨session.id, name, (same.symm.trans path').trans (dirs _ _).symm,
        (valid.idBound session stored).trans_le bound, absent⟩

theorem reports_concat (entries : List (EditOp × EditAnswer)) (entry : EditOp × EditAnswer) :
    reports (entries ++ [entry]) = reports entries ++ entry.2.reportedPaths := by
  simp [reports]

section Run

variable (editsDir : LocalPath) (runId : List Char)

theorem reachable_booked (ops : List EditOp)
    (legal : machine.Admissible ReapReported (new editsDir runId) ops) :
    Booked (reports (machine.log (new editsDir runId) ops)) (machine.run (new editsDir runId) ops) := by
  induction ops using List.reverseRecOn with
  | nil => exact ⟨List.nodup_nil, fun path hp => absurd hp List.not_mem_nil⟩
  | append_singleton before op ih =>
    obtain ⟨valid, paths⟩ := reachable_tempPaths editsDir runId before
    obtain ⟨earlier, kept⟩ := (machine.admissible_append _ before [op]).mp legal
    rw [Machine.log_concat, Machine.run_concat, reports_concat]
    exact (ih earlier).apply valid paths kept.1

theorem temp_dirs_accounted_iff (ops : List EditOp) :
    TempDirsAccounted (new editsDir runId) ops ↔ machine.Admissible ReapReported (new editsDir runId) ops := by
  constructor
  · intro accounted
    refine machine.admissible_iff_split.mpr ?_
    intro before op after split
    obtain ⟨reported, _⟩ := accounted before op after split
    by_contra dropped
    cases op with
    | begin pending isTabLive =>
      obtain ⟨nothing, stale, stored, state⟩ := begin_drops_reaped dropped
      have departed : stale ∈ (machine.run (new editsDir runId) before).store.departed
          ((machine.run (new editsDir runId) before).begin pending isTabLive).1.store := by
        rw [state]
        show stale ∈ EditSessionStore.departed _ (EditSessionStore.removeForTab _ stale.tabId).1
        rw [departed_removeForTab (reachable_tempPaths editsDir runId before).1.ids]
        exact List.mem_filter.mpr ⟨stored, decide_eq_true rfl⟩
      have one := (reported stale departed).1
      rw [show ((machine.run (new editsDir runId) before).apply (.begin pending isTabLive)).2.reportedPaths = [] from
        nothing] at one
      cases one
    | startDownload | abortDownload | requestUpload | revertCheck | onCheckResult | onTransferFinished | resolveConflict
    | dispatchFailed | recordLocalModified | adoptListingBaselines | updateEpochForTab | removeForTab =>
      exact dropped trivial
  · rintro legal before op after rfl l
    obtain ⟨valid, paths⟩ := reachable_tempPaths editsDir runId before
    have whole := (reachable_booked editsDir runId _ legal).nodup
    have kept := machine.admissible_iff_split.mp legal before op after rfl
    have legalNow : machine.Admissible ReapReported (new editsDir runId) (before ++ [op]) :=
      (machine.admissible_append _ _ _).mpr ⟨((machine.admissible_append _ _ _).mp legal).1, kept, trivial⟩
    have bookedNow := reachable_booked editsDir runId _ legalNow
    have pathsNow := (reachable_tempPaths editsDir runId (before ++ [op])).2
    have entries : reports (machine.log (new editsDir runId) (before ++ op :: after)) =
        reports (machine.log (new editsDir runId) before) ++ ((l.apply op).2.reportedPaths ++
          reports (machine.log (l.apply op).1 after)) := by
      rw [Machine.log_append]
      simp [reports, Machine.log, l, Machine.out, Machine.next, machine]
    refine ⟨?_, ?_, ?_⟩
    · intro session departed
      have here : session.localTempPath ∈ (l.apply op).2.reportedPaths :=
        (apply_releases valid kept).mem_iff.mpr (List.mem_map_of_mem departed)
      have whole' := whole
      rw [entries] at whole'
      have step := (List.nodup_append.mp (List.nodup_append.mp whole').2.1).1
      refine ⟨List.count_eq_one_of_mem step here, List.count_eq_one_of_mem whole ?_⟩
      rw [entries]
      exact List.mem_append_right _ (List.mem_append_left _ here)
    · intro session hs
      rw [Machine.run_concat] at pathsNow bookedNow
      exact bookedNow.apart pathsNow session hs
    · rintro pending isTabLive rfl
      exact begin_removes_dead pending isTabLive

end Run

/-- Tab 1 edits a link to `/a.txt`, tab 2 edits `/b.txt`. Tab 1 is gone when the link, which leads to `/b.txt` by now, is
opened again. -/
def relinkedRun : List EditOp :=
  [.startDownload { samplePending with remotePath := .new "/link.txt", ioPath := .new "/a.txt" },
    .startDownload { samplePending with remotePath := .new "/b.txt", ioPath := .new "/b.txt", tabId := ⟨2⟩ },
    .begin { samplePending with remotePath := .new "/link.txt", ioPath := .new "/b.txt", tabId := ⟨2⟩ }
      (fun tab => tab = ⟨2⟩)]

theorem relinked_edit_leaks_temp_dir : ¬ TempDirsAccounted (new (.new "/e") ['r']) relinkedRun := by
  intro accounted
  obtain ⟨reported, _⟩ := accounted (relinkedRun.take 2) _ [] rfl
  revert reported
  decide

end RemoteEditLifecycle

end MacSftp
