import MacSftp.Edit.Baseline
import MacSftp.Edit.Invariant

namespace MacSftp

open Lib EditSessionStore

namespace EditSessionStore

/-- No session's remote snapshot is other than it was. -/
def SnapshotsKept (old new : EditSessionStore) : Prop :=
  ∀ s' ∈ new.sessions, ∃ s ∈ old.sessions, s.id = s'.id ∧ s'.remoteSnapshot = s.remoteSnapshot

variable {a b c store : EditSessionStore}

theorem SnapshotsKept.refl (store : EditSessionStore) : store.SnapshotsKept store := fun s hs => ⟨s, hs, rfl, rfl⟩

theorem SnapshotsKept.trans (h : a.SnapshotsKept b) (k : b.SnapshotsKept c) : a.SnapshotsKept c := by
  intro u hu
  obtain ⟨t, ht, same, kept⟩ := k u hu
  obtain ⟨s, hs, first, before⟩ := h t ht
  exact ⟨s, hs, first.trans same, kept.trans before⟩

theorem snapshotsKept_of_subset {sessions : List EditSession} (h : sessions ⊆ store.sessions) :
    store.SnapshotsKept { store with sessions := sessions } := fun s hs => ⟨s, h hs, rfl, rfl⟩

theorem remove_snapshots (store : EditSessionStore) (id : EditSessionId) : store.SnapshotsKept (store.remove id) :=
  snapshotsKept_of_subset List.eraseP_subset

theorem removeForTab_snapshots (store : EditSessionStore) (tab : TabId) : store.SnapshotsKept (store.removeForTab tab).1 :=
  snapshotsKept_of_subset (List.filter_subset_self _)

theorem getMut_snapshots (ids : (store.sessions.map EditSession.id).Nodup) (id : EditSessionId) {f : EditSession → EditSession}
    (same : ∀ s, (f s).id = s.id) (kept : ∀ s, (f s).remoteSnapshot = s.remoteSnapshot) :
    store.SnapshotsKept (store.getMut id f) := by
  intro s' hs'
  obtain ⟨s, hs, rfl⟩ := (mem_updateKey EditSession.id id f ids).mp hs'
  refine ⟨s, hs, ?_⟩
  split_ifs
  · exact ⟨(same s).symm, kept s⟩
  · exact ⟨rfl, rfl⟩

theorem updateEpochForTab_snapshots (store : EditSessionStore) (tab : TabId) (epoch : Nat) :
    store.SnapshotsKept (store.updateEpochForTab tab epoch) := by
  intro s' hs'
  obtain ⟨s, hs, rfl⟩ := List.mem_map.mp hs'
  refine ⟨s, hs, ?_⟩
  split_ifs <;> exact ⟨rfl, rfl⟩

end EditSessionStore

/-- The listing shows the session's file as it was, up to the fractions of a second. -/
structure EditSession.AdoptsListing (s : EditSession) (tabId : TabId) (listing : List (RemotePath × RemoteSnapshot))
    (listed : RemoteSnapshot) : Prop where
  editing : s.phase = .editing
  tab : s.tabId = tabId
  direct : s.ioPath = s.remotePath
  found : listing.find? (fun entry => entry.1 = s.remotePath) = some (s.remotePath, listed)
  size : listed.size = s.remoteSnapshot.size
  mtime : listed.modifiedAt.map Timestamp.truncatedToSecs = s.remoteSnapshot.modifiedAt.map Timestamp.truncatedToSecs

/-- The operation reports the success of the session's upload. -/
structure EditSession.UploadSucceeds (s : EditSession) (finished : EditTransferFinished) : Prop where
  phase : s.phase = .uploadingBack
  direction : finished.direction = .upload
  destination : finished.destination = .remote s.ioPath
  endpoint : RemoteEditLifecycle.localEndpoint finished.source finished.destination = some s.localTempPath
  succeeded : finished.succeeded = true

namespace RemoteEditLifecycle

variable {l : RemoteEditLifecycle}

theorem listedBaseline_adopts {listing : List (RemotePath × RemoteSnapshot)} {session : EditSession} {tab : TabId}
    (editing : session ∈ l.store.editingSessionsForTab tab) {adoption : EditSessionId × RemoteSnapshot}
    (listed : listedBaseline listing session = some adoption) :
    adoption.1 = session.id ∧ session.AdoptsListing tab listing adoption.2 := by
  obtain ⟨-, phase, own⟩ : session ∈ l.store.sessions ∧ session.phase = .editing ∧ session.tabId = tab := by
    simpa [editingSessionsForTab] using editing
  unfold listedBaseline at listed
  split_ifs at listed with link
  split at listed
  · cases listed
  · rename_i path snapshot found
    split_ifs at listed with agrees
    obtain rfl := Option.some.inj listed
    have here : path = session.remotePath := by simpa using List.find?_some found
    subst here
    have same : session.remoteSnapshot.truncatedToSecs = snapshot.truncatedToSecs := by
      simpa [RemoteSnapshot.agreesAtSecondGranularity] using agrees
    obtain ⟨size, mtime⟩ := RemoteSnapshot.mk.inj same
    exact ⟨rfl, phase, own, by simpa using link, found, size.symm, mtime.symm⟩

theorem adoptions_mem (adoptions : List (EditSessionId × RemoteSnapshot)) {store : EditSessionStore}
    (ids : (store.sessions.map EditSession.id).Nodup) {s' : EditSession}
    (hs' : s' ∈ (adoptions.foldl (fun store adoption =>
      store.getMut adoption.1 (fun s => { s with remoteSnapshot := adoption.2 })) store).sessions) :
    ∃ s ∈ store.sessions, s.id = s'.id ∧ (s'.remoteSnapshot = s.remoteSnapshot ∨ (s.id, s'.remoteSnapshot) ∈ adoptions) := by
  induction adoptions generalizing store with
  | nil => exact ⟨s', hs', rfl, .inl rfl⟩
  | cons adoption rest ih =>
    have carried : store.Carried (store.getMut adoption.1 (fun s => { s with remoteSnapshot := adoption.2 })) :=
      getMut_carried _ _ ids fun s _ _ => ⟨rfl, .inl ⟨rfl, rfl, Iff.rfl⟩⟩
    obtain ⟨t, ht, same, from_⟩ := ih (ids.sublist carried.ids) hs'
    obtain ⟨s, hs, rfl⟩ := (mem_updateKey EditSession.id adoption.1 _ ids).mp ht
    refine ⟨s, hs, ?_⟩
    split_ifs at same from_ with own
    · refine ⟨same, .inr ?_⟩
      rcases from_ with adopted | later
      · rw [adopted, own]
        exact List.mem_cons_self
      · exact List.mem_cons_of_mem _ later
    · refine ⟨same, from_.imp_right fun later => ?_⟩
      exact List.mem_cons_of_mem _ later

theorem adoptListingBaselines_snapshots (valid : l.store.Valid) (tab : TabId) (listing : List (RemotePath × RemoteSnapshot))
    {s' : EditSession} (hs' : s' ∈ (l.adoptListingBaselines tab listing).store.sessions) :
    ∃ s ∈ l.store.sessions, s.id = s'.id ∧
      (s'.remoteSnapshot = s.remoteSnapshot ∨ s.AdoptsListing tab listing s'.remoteSnapshot) := by
  obtain ⟨s, hs, same, kept | adopted⟩ := adoptions_mem _ valid.ids hs'
  · exact ⟨s, hs, same, .inl kept⟩
  · obtain ⟨t, editing, listed⟩ := List.mem_filterMap.mp adopted
    obtain ⟨own, adopts⟩ := listedBaseline_adopts editing listed
    have ht : t ∈ l.store.sessions := List.mem_of_mem_filter editing
    obtain rfl : s = t := key_unique EditSession.id valid.ids hs ht own
    exact ⟨s, hs, same, .inr adopts⟩

theorem onTransferFinished_snapshots (valid : l.store.Valid) (finished : EditTransferFinished) (facts : Option LocalFileFacts)
    {s' : EditSession} (hs' : s' ∈ (l.onTransferFinished finished facts).1.store.sessions) :
    ∃ s ∈ l.store.sessions, s.id = s'.id ∧ (s'.remoteSnapshot = s.remoteSnapshot ∨ s.UploadSucceeds finished) := by
  have kept : ∀ {store : EditSessionStore}, l.store.SnapshotsKept store → s' ∈ store.sessions →
      ∃ s ∈ l.store.sessions, s.id = s'.id ∧ (s'.remoteSnapshot = s.remoteSnapshot ∨ s.UploadSucceeds finished) := by
    intro store kept hs'
    obtain ⟨s, hs, same, before⟩ := kept s' hs'
    exact ⟨s, hs, same, .inl before⟩
  unfold onTransferFinished at hs'
  split at hs'
  · exact kept (.refl _) hs'
  · rename_i temp endpoint
    split at hs'
    · exact kept (.refl _) hs'
    · rename_i session found
      obtain ⟨hs, path⟩ := findKey_mem EditSession.localTempPath found
      split at hs'
      · exact kept (.refl _) hs'
      · rename_i matching
        split at hs'
        · split at hs'
          · have finish : l.store.SnapshotsKept (l.finishDownload session facts).1.store :=
              getMut_snapshots valid.ids session.id (fun _ => rfl) fun _ => rfl
            exact kept finish hs'
          · exact kept (remove_snapshots _ _) hs'
        · rename_i phase
          split at hs'
          · rename_i succeeded
            obtain ⟨s, old, rfl⟩ := (mem_updateKey EditSession.id session.id _ valid.ids).mp hs'
            refine ⟨s, old, ?_⟩
            split_ifs with own
            · obtain rfl := key_unique EditSession.id valid.ids old hs own
              obtain ⟨direction, destination⟩ : finished.direction = .upload ∧ finished.destination = .remote s.ioPath := by
                simpa [matchesPhase, phase] using not_not.mp matching
              exact ⟨rfl, .inr ⟨phase, direction, destination, by rw [endpoint, path], succeeded⟩⟩
            · exact ⟨rfl, .inl rfl⟩
          · have fail : l.store.SnapshotsKept (l.failUpload session).1.store :=
              getMut_snapshots valid.ids session.id (fun _ => rfl) fun _ => rfl
            exact kept fail hs'
        · exact kept (.refl _) hs'

theorem onCheckResult_snapshots (valid : l.store.Valid) (result : EditCheckResult) (mtime : Option Timestamp) :
    l.store.SnapshotsKept (l.onCheckResult result mtime).1.store := by
  have reverted : l.store.SnapshotsKept (l.revertCheck result.sessionId).store :=
    getMut_snapshots valid.ids _ (fun _ => rfl) fun _ => rfl
  unfold onCheckResult
  split
  · exact .refl _
  · split
    · exact .refl _
    split
    · exact reverted
    · split
      · split <;> exact getMut_snapshots valid.ids _ (fun _ => rfl) fun _ => rfl
      · exact reverted

theorem beginDedup_snapshots (pending : PendingEdit) (isTabLive : TabId → Bool) (reaped : List EditEffect) :
    l.store.SnapshotsKept (l.beginDedup pending isTabLive reaped).1.store := by
  unfold beginDedup
  split
  · exact .refl _
  · split_ifs
    · exact .refl _
    · exact removeForTab_snapshots _ _

theorem begin_snapshots (pending : PendingEdit) (isTabLive : TabId → Bool) :
    l.store.SnapshotsKept (l.begin pending isTabLive).1.store := by
  unfold begin
  split
  · exact beginDedup_snapshots _ _ _
  · split_ifs
    · exact beginDedup_snapshots _ _ _
    · exact .refl _
    · exact (removeForTab_snapshots _ _).trans (beginDedup_snapshots _ _ _)

theorem abortDownload_snapshots (id : EditSessionId) : l.store.SnapshotsKept (l.abortDownload id).1.store := by
  unfold abortDownload
  split
  · exact .refl _
  · split_ifs
    · exact .refl _
    · exact remove_snapshots _ _

theorem dispatchFailed_snapshots (valid : l.store.Valid) (id : EditSessionId) (rollback : DispatchRollback) :
    l.store.SnapshotsKept (l.dispatchFailed id rollback).1.store := by
  cases rollback with
  | revertCheck => exact getMut_snapshots valid.ids id (fun _ => rfl) fun _ => rfl
  | restoreConflict =>
    apply getMut_snapshots valid.ids id
    · intro s
      split_ifs <;> rfl
    · intro s
      split_ifs <;> rfl
  | abortDownload => exact abortDownload_snapshots id

theorem recordLocalModified_snapshots (valid : l.store.Valid) (id : EditSessionId) (path : LocalPath)
    (facts : Option LocalFileFacts) :
    l.store.SnapshotsKept (l.recordLocalModified id path facts).1.store := by
  unfold recordLocalModified
  split
  · exact .refl _
  split
  · exact .refl _
  split
  · exact .refl _
  · exact getMut_snapshots valid.ids id (fun _ => rfl) fun _ => rfl

/-- A session that is registered gets an id of its own; the others keep their snapshots. -/
def Opens (old new : EditSessionStore) : Prop :=
  ∀ s' ∈ new.sessions, (∃ s ∈ old.sessions, s.id = s'.id ∧ s'.remoteSnapshot = s.remoteSnapshot) ∨ old.nextId ≤ s'.id.raw

theorem opens_of_kept {old new : EditSessionStore} (kept : old.SnapshotsKept new) :
    Opens old new := fun s' hs' => .inl (kept s' hs')

theorem startDownload_snapshots (pending : PendingEdit) : Opens l.store (l.startDownload pending).1.store := by
  unfold startDownload
  split
  · exact opens_of_kept (.refl _)
  · intro s' hs'
    rcases List.mem_append.mp hs' with old | last
    · exact .inl ⟨s', old, rfl, rfl⟩
    · obtain rfl := List.mem_singleton.mp last
      exact .inr (le_refl _)

theorem discardLocal_snapshots (session : EditSession) : Opens l.store (l.discardLocal session).1.store := by
  obtain ⟨pending, opened⟩ := discardLocal_opens (l := l) session
  rw [opened]
  intro s' hs'
  rcases startDownload_snapshots (l := { l with store := l.store.remove session.id }) pending s' hs' with ⟨s, hs, kept⟩ | fresh
  · exact .inl ⟨s, List.mem_of_mem_eraseP hs, kept⟩
  · exact .inr fresh

theorem resolveConflict_snapshots (valid : l.store.Valid) (id : EditSessionId) (choice : ConflictChoice) :
    Opens l.store (l.resolveConflict id choice).1.store := by
  unfold resolveConflict
  split
  · exact opens_of_kept (.refl _)
  · split
    · exact opens_of_kept (.refl _)
    · cases choice with
      | overwrite | later => exact opens_of_kept (getMut_snapshots valid.ids _ (fun _ => rfl) fun _ => rfl)
      | discardLocal => exact discardLocal_snapshots _

/-- How a session's remote snapshot comes to be what it is after an operation. -/
inductive SnapshotStep (l : RemoteEditLifecycle) (s' : EditSession) : EditOp → Prop
  | kept (op : EditOp) (s : EditSession) (hs : s ∈ l.store.sessions) (same : s.id = s'.id)
      (snapshot : s'.remoteSnapshot = s.remoteSnapshot) : SnapshotStep l s' op
  | listed (tab : TabId) (listing : List (RemotePath × RemoteSnapshot)) (s : EditSession) (hs : s ∈ l.store.sessions)
      (same : s.id = s'.id) (adopts : s.AdoptsListing tab listing s'.remoteSnapshot) :
      SnapshotStep l s' (.adoptListingBaselines tab listing)
  | uploaded (finished : EditTransferFinished) (facts : Option LocalFileFacts) (s : EditSession) (hs : s ∈ l.store.sessions)
      (same : s.id = s'.id) (succeeds : s.UploadSucceeds finished) : SnapshotStep l s' (.onTransferFinished finished facts)
  | opened (op : EditOp) (fresh : l.store.nextId ≤ s'.id.raw) : SnapshotStep l s' op

theorem apply_snapshots (valid : l.store.Valid) (op : EditOp) {s' : EditSession} (hs' : s' ∈ (l.apply op).1.store.sessions) :
    SnapshotStep l s' op := by
  have opens : ∀ {store : EditSessionStore}, Opens l.store store → s' ∈ store.sessions → SnapshotStep l s' op := by
    intro store opens hs'
    rcases opens s' hs' with ⟨s, hs, same, kept⟩ | fresh
    · exact .kept op s hs same kept
    · exact .opened op fresh
  cases op with
  | begin pending isTabLive => exact opens (opens_of_kept (begin_snapshots pending isTabLive)) hs'
  | startDownload pending => exact opens (startDownload_snapshots pending) hs'
  | abortDownload id => exact opens (opens_of_kept (abortDownload_snapshots id)) hs'
  | requestUpload id epoch key mtime =>
    rcases requestUpload_cases (l := l) id epoch key mtime with ⟨notice, refused⟩ | ⟨s, _, _, granted⟩
    · rw [apply, refused] at hs'
      exact .kept _ s' hs' rfl rfl
    · rw [apply, granted] at hs'
      have marked : l.store.SnapshotsKept (l.store.getMut id (markChecking epoch ⟨l.store.nextCheckId⟩ mtime)) :=
        getMut_snapshots valid.ids id (fun _ => rfl) fun _ => rfl
      exact opens (opens_of_kept marked) hs'
  | revertCheck id =>
    have reverted : l.store.SnapshotsKept (l.revertCheck id).store := getMut_snapshots valid.ids id (fun _ => rfl) fun _ => rfl
    exact opens (opens_of_kept reverted) hs'
  | onCheckResult result mtime => exact opens (opens_of_kept (onCheckResult_snapshots valid result mtime)) hs'
  | onTransferFinished finished facts =>
    obtain ⟨s, hs, same, kept | succeeds⟩ := onTransferFinished_snapshots valid finished facts hs'
    · exact .kept _ s hs same kept
    · exact .uploaded finished facts s hs same succeeds
  | resolveConflict id choice => exact opens (resolveConflict_snapshots valid id choice) hs'
  | dispatchFailed id rollback => exact opens (opens_of_kept (dispatchFailed_snapshots valid id rollback)) hs'
  | recordLocalModified id path facts => exact opens (opens_of_kept (recordLocalModified_snapshots valid id path facts)) hs'
  | adoptListingBaselines tab listing =>
    obtain ⟨s, hs, same, kept | adopts⟩ := adoptListingBaselines_snapshots valid tab listing hs'
    · exact .kept _ s hs same kept
    · exact .listed tab listing s hs same adopts
  | updateEpochForTab tab epoch => exact opens (opens_of_kept (updateEpochForTab_snapshots _ tab epoch)) hs'
  | removeForTab tab => exact opens (opens_of_kept (removeForTab_snapshots _ tab)) hs'

/-- The operation reports that an upload of the session has succeeded. -/
def Uploads (id : EditSessionId) (l : RemoteEditLifecycle) : EditOp → Prop
  | .onTransferFinished finished _ => ∃ s ∈ l.store.sessions, s.id = id ∧ s.UploadSucceeds finished
  | _ => False

theorem run_grows (valid : l.store.Valid) (ops : List EditOp) :
    (machine.run l ops).store.Valid ∧ l.store.nextId ≤ (machine.run l ops).store.nextId := by
  induction ops using List.reverseRecOn with
  | nil => exact ⟨valid, le_refl _⟩
  | append_singleton ops op ih =>
    rw [machine.run_concat]
    exact ⟨apply_valid ih.1 op, ih.2.trans (apply_counters ih.1 op).1⟩

theorem snapshot_drift (valid : l.store.Valid) {s : EditSession} (hs : s ∈ l.store.sessions) (middle : List EditOp)
    (quiet : machine.Admissible (fun l op => ¬ Uploads s.id l op) l middle) {s' : EditSession}
    (hs' : s' ∈ (machine.run l middle).store.sessions) (same : s'.id = s.id) :
    s'.remoteSnapshot.truncatedToSecs = s.remoteSnapshot.truncatedToSecs := by
  induction middle using List.reverseRecOn generalizing s' with
  | nil =>
    obtain rfl : s' = s := key_unique EditSession.id valid.ids hs' hs same
    rfl
  | append_singleton middle op ih =>
    obtain ⟨before, last, -⟩ := (machine.admissible_append l middle [op]).mp quiet
    obtain ⟨reached, grown⟩ := run_grows valid middle
    rw [machine.run_concat] at hs'
    have step := apply_snapshots reached op hs'
    generalize machine.run l middle = mid at ih last reached grown step
    cases step with
    | kept _ t ht own kept => rw [kept, ih before ht (own.trans same)]
    | listed tab listing t ht own adopts =>
      rw [← ih before ht (own.trans same)]
      exact congrArg₂ RemoteSnapshot.mk adopts.size adopts.mtime
    | uploaded finished facts t ht own succeeds => exact absurd ⟨t, ht, own.trans same, succeeds⟩ last
    | opened _ fresh =>
      have bound := valid.idBound s hs
      rw [same] at fresh
      omega

/-- A listing changes a session's snapshot only while the session is being edited, is not of a link, and is
listed as it was to the second; nothing else does but the success of its upload. -/
theorem listings_hide_nothing (editsDir : LocalPath) (runId : List Char) (before : List EditOp) :
    (∀ op s s', s ∈ (machine.run (new editsDir runId) before).store.sessions →
        s' ∈ (machine.run (new editsDir runId) (before ++ [op])).store.sessions → s'.id = s.id →
        s'.remoteSnapshot ≠ s.remoteSnapshot →
        Uploads s.id (machine.run (new editsDir runId) before) op ∨
          ∃ tab listing, op = .adoptListingBaselines tab listing ∧ s.AdoptsListing tab listing s'.remoteSnapshot) ∧
      ∀ middle s s', s ∈ (machine.run (new editsDir runId) before).store.sessions →
        s' ∈ (machine.run (new editsDir runId) (before ++ middle)).store.sessions → s'.id = s.id →
        machine.Admissible (fun l op => ¬ Uploads s.id l op) (machine.run (new editsDir runId) before) middle →
        s'.remoteSnapshot.truncatedToSecs = s.remoteSnapshot.truncatedToSecs := by
  obtain ⟨valid, -⟩ := run_grows (new_valid editsDir runId) before
  constructor
  · intro op s s' hs hs' same moved
    rw [machine.run_concat] at hs'
    have step := apply_snapshots valid op hs'
    generalize machine.run (new editsDir runId) before = l at valid hs step
    cases step with
    | kept _ t ht own kept =>
      obtain rfl := key_unique EditSession.id valid.ids ht hs (own.trans same)
      exact absurd kept moved
    | listed tab listing t ht own adopts =>
      obtain rfl := key_unique EditSession.id valid.ids ht hs (own.trans same)
      exact .inr ⟨tab, listing, rfl, adopts⟩
    | uploaded finished facts t ht own succeeds => exact .inl ⟨t, ht, own.trans same, succeeds⟩
    | opened _ fresh =>
      have bound := valid.idBound s hs
      rw [same] at fresh
      omega
  · intro middle s s' hs hs' same quiet
    rw [machine.run_append] at hs'
    exact snapshot_drift valid hs middle quiet hs' same

def editingNotes : EditSession := { downloadSession samplePending ⟨1⟩ (.new "/e/r/1/notes.txt") with phase := .editing }

def relistedNotes : EditSession := { editingNotes with remoteSnapshot := ⟨some 10, some ⟨100500000000⟩⟩ }

theorem relisted_within_second :
    relistedNotes.remoteSnapshot.truncatedToSecs = editingNotes.remoteSnapshot.truncatedToSecs :=
  (listings_hide_nothing (.new "/e") ['r'] (sampleUploadRun.take 2)).2 [.adoptListingBaselines ⟨1⟩ laterListing] editingNotes
    relistedNotes (by decide +kernel) (by decide +kernel) rfl ⟨fun uploads => uploads, trivial⟩

end RemoteEditLifecycle

end MacSftp
