import MacSftp.Edit.Transitions

namespace MacSftp

open Lib EditSessionStore

abbrev EditLog := List (EditOp × EditAnswer)

def EditEffect.isUpload : EditEffect → Bool
  | .dispatch _ _ command _ => command.isUpload
  | _ => false

def issuedCheck : EditOp × EditAnswer → Option (CheckRemoteEditSnapshotCommand × Timestamp)
  | (.requestUpload _ _ _ mtime, .upload (.check command)) => some (command, mtime)
  | _ => none

def issuedChecks (past : EditLog) : List (CheckRemoteEditSnapshotCommand × Timestamp) := past.filterMap issuedCheck

/-- The check the latest `request_upload` of a session issued, with the mtime it captured. A refused request issues none. -/
def latestCheck (past : EditLog) (id : EditSessionId) : Option (EditCheckId × Timestamp) :=
  ((issuedChecks past).reverse.find? (fun issue => issue.1.editSessionId = id)).map
    (fun issue => (issue.1.checkId, issue.2))

def authorizedCheck : EditOp × EditAnswer → Option EditCheckId
  | (.onCheckResult result _, answer) => if answer.editEffects.any EditEffect.isUpload then some result.checkId else none
  | _ => none

def authorizedChecks (past : EditLog) : List EditCheckId := past.filterMap authorizedCheck

def EditSessionStore.Spent (store : EditSessionStore) (c : EditCheckId) : Prop :=
  c.raw < store.nextCheckId ∧ ∀ s ∈ store.sessions, s.pendingCheckId ≠ some c

def AuthorizedByCheck (past : EditLog) (l : RemoteEditLifecycle) (op : EditOp) (id : EditSessionId) : Prop :=
  ∃ result captured session, op = .onCheckResult result (some captured) ∧ result.sessionId = id ∧
    l.store.get id = some session ∧ session.phase = .checkingRemote ∧
    latestCheck past id = some (result.checkId, captured) ∧
    result.tabId = session.tabId ∧ result.sessionEpoch = session.sessionEpoch ∧
    result.path = session.ioPath ∧ result.outcome = .matched session.remoteSnapshot

def AuthorizedByOverwrite (l : RemoteEditLifecycle) (op : EditOp) (id : EditSessionId) : Prop :=
  ∃ session, op = .resolveConflict id .overwrite ∧ l.store.get id = some session ∧ session.phase = .remoteConflict

namespace RemoteEditLifecycle

variable {l : RemoteEditLifecycle}

theorem reapTab_no_upload (tab : TabId) : ∀ e ∈ (l.reapTab tab).2, e.isUpload = false := by
  intro e he
  obtain ⟨s, _, rfl⟩ := List.mem_map.mp he
  rfl

theorem reopen_no_upload (pending : PendingEdit) (existing : EditSession) :
    ∀ e ∈ reopen pending existing, e.isUpload = false := by
  unfold reopen
  split <;> simp [EditEffect.isUpload]

theorem beginDedup_no_upload (pending : PendingEdit) (isTabLive : TabId → Bool) (reaped : List EditEffect)
    (hr : ∀ e ∈ reaped, e.isUpload = false) :
    ∀ e ∈ (EditAnswer.began (l.beginDedup pending isTabLive reaped).2).editEffects, e.isUpload = false := by
  unfold beginDedup
  split
  · exact hr
  · split
    · exact reopen_no_upload _ _
    · intro e he
      rcases List.mem_append.mp he with he | he
      · exact hr e he
      · exact reapTab_no_upload _ e he

theorem begin_no_upload (pending : PendingEdit) (isTabLive : TabId → Bool) :
    ∀ e ∈ (EditAnswer.began (l.begin pending isTabLive).2).editEffects, e.isUpload = false := by
  unfold begin
  split
  · exact beginDedup_no_upload _ _ _ (by simp)
  · split
    · exact beginDedup_no_upload _ _ _ (by simp)
    · split
      · simp [EditAnswer.editEffects, EditEffect.isUpload]
      · exact beginDedup_no_upload _ _ _ (reapTab_no_upload _)

theorem abortDownload_no_upload (id : EditSessionId) : ∀ e ∈ (l.abortDownload id).2, e.isUpload = false := by
  unfold abortDownload
  split
  · simp
  · split <;> simp [EditEffect.isUpload]

theorem onTransferFinished_no_upload (finished : EditTransferFinished) (facts : Option LocalFileFacts) :
    ∀ e ∈ (l.onTransferFinished finished facts).2, e.isUpload = false := by
  unfold onTransferFinished
  split
  · simp
  split
  · simp
  split
  · simp
  split
  · split <;> simp [finishDownload, failDownload, EditEffect.isUpload]
  · split
    · cases facts <;> simp [finishUpload, EditEffect.isUpload]
    · simp [failUpload, EditEffect.isUpload]
  · simp

theorem discardLocal_no_upload (session : EditSession) : ∀ e ∈ (l.discardLocal session).2, e.isUpload = false := by
  have download : ∀ (m : RemoteEditLifecycle) (pending : PendingEdit) (edit : StartedEdit),
      (m.startDownload pending).2 = .ok edit → edit.command.isUpload = false := by
    intro m pending edit h
    unfold startDownload at h
    split at h
    · cases h
    · cases h
      rfl
  unfold discardLocal
  dsimp only
  split
  · rename_i edit h
    simp [EditEffect.isUpload, download _ _ _ h]
  · simp [EditEffect.isUpload]

theorem resolveConflict_upload (id : EditSessionId) (choice : ConflictChoice) {e : EditEffect}
    (he : e ∈ (l.resolveConflict id choice).2) (up : e.isUpload = true) :
    AuthorizedByOverwrite l (.resolveConflict id choice) id ∧ ∃ tab command rollback, e = .dispatch tab id command rollback := by
  unfold resolveConflict at he
  split at he
  · simp at he
  rename_i session found
  split at he
  · simp at he
  rename_i conflict
  cases choice with
  | overwrite =>
    rw [List.mem_singleton.mp he]
    exact ⟨⟨session, rfl, found, by simpa using conflict⟩, _, _, _, rfl⟩
  | discardLocal =>
    rw [discardLocal_no_upload session e he] at up
    cases up
  | later => simp at he

theorem dispatchFailed_no_upload (id : EditSessionId) (rollback : DispatchRollback) :
    ∀ e ∈ (l.dispatchFailed id rollback).2, e.isUpload = false := by
  cases rollback with
  | revertCheck => simp [dispatchFailed]
  | restoreConflict => simp [dispatchFailed]
  | abortDownload => exact abortDownload_no_upload id

theorem onCheckResult_upload (result : EditCheckResult) (mtime : Option Timestamp) {e : EditEffect}
    (he : e ∈ (l.onCheckResult result mtime).2) (up : e.isUpload = true) :
    ∃ session, l.store.get result.sessionId = some session ∧ applicable session result = true ∧
      mtime = session.checkingLocalMtime ∧ result.outcome = .matched session.remoteSnapshot ∧
      (∃ tab command rollback, e = .dispatch tab result.sessionId command rollback) ∧
      (l.onCheckResult result mtime).1.store = l.store.getMut result.sessionId (fun s =>
        { s with phase := .uploadingBack, pendingCheckId := none, checkingLocalMtime := none }) := by
  unfold onCheckResult at he ⊢
  split at he
  · simp at he
  rename_i session found
  split at he
  · simp at he
  rename_i applies
  split at he
  · rw [List.mem_singleton.mp he] at up
    cases up
  rename_i unchanged
  split at he
  · rename_i snapshot outcome
    split at he
    · rename_i same
      subst same
      have applies : applicable session result = true := by simpa using applies
      have unchanged : mtime = session.checkingLocalMtime := by simpa using unchanged
      refine ⟨session, found, applies, unchanged, outcome, ?_, ?_⟩
      · exact ⟨_, _, _, List.mem_singleton.mp he⟩
      · simp [applies, unchanged]
    · simp at he
  · rw [List.mem_singleton.mp he] at up
    cases up

theorem apply_upload (op : EditOp) {e : EditEffect} (he : e ∈ (l.apply op).2.editEffects) (up : e.isUpload = true) :
    (∃ result mtime, op = .onCheckResult result mtime ∧ e ∈ (l.onCheckResult result mtime).2) ∨
      ∃ id choice, op = .resolveConflict id choice ∧ e ∈ (l.resolveConflict id choice).2 := by
  have refuted : ∀ {effects : List EditEffect}, (∀ e ∈ effects, e.isUpload = false) → e ∈ effects → False := by
    intro effects h he
    rw [h e he] at up
    cases up
  cases op with
  | begin pending isTabLive => exact (refuted (begin_no_upload pending isTabLive) he).elim
  | abortDownload id => exact (refuted (abortDownload_no_upload id) he).elim
  | onCheckResult result mtime => exact .inl ⟨result, mtime, rfl, he⟩
  | onTransferFinished finished facts => exact (refuted (onTransferFinished_no_upload finished facts) he).elim
  | resolveConflict id choice => exact .inr ⟨id, choice, rfl, he⟩
  | dispatchFailed id rollback => exact (refuted (dispatchFailed_no_upload id rollback) he).elim
  | _ => simp [apply, EditAnswer.editEffects] at he

theorem onCheckResult_one_effect (result : EditCheckResult) (mtime : Option Timestamp) :
    (l.onCheckResult result mtime).2.length ≤ 1 := by
  unfold onCheckResult
  split
  · exact Nat.zero_le 1
  split
  · exact Nat.zero_le 1
  split
  · exact le_refl 1
  split
  · split
    · exact le_refl 1
    · exact Nat.zero_le 1
  · exact le_refl 1

theorem resolveConflict_one_upload (id : EditSessionId) (choice : ConflictChoice) :
    ((l.resolveConflict id choice).2.filter EditEffect.isUpload).length ≤ 1 := by
  unfold resolveConflict
  split
  · exact Nat.zero_le 1
  split
  · exact Nat.zero_le 1
  rename_i session _ _
  cases choice with
  | overwrite => exact List.length_filter_le _ _
  | discardLocal =>
    have silent : (l.discardLocal session).2.filter EditEffect.isUpload = [] := by
      rw [List.filter_eq_nil_iff]
      intro e he
      simp [discardLocal_no_upload session e he]
    exact (congrArg List.length silent).trans_le (Nat.zero_le 1)
  | later => exact Nat.zero_le 1

theorem apply_one_upload (l : RemoteEditLifecycle) (op : EditOp) :
    ((l.apply op).2.editEffects.filter EditEffect.isUpload).length ≤ 1 := by
  cases found : (l.apply op).2.editEffects.filter EditEffect.isUpload with
  | nil => exact Nat.zero_le 1
  | cons e rest =>
    have member : e ∈ (l.apply op).2.editEffects.filter EditEffect.isUpload := found ▸ List.mem_cons_self
    obtain ⟨he, up⟩ := List.mem_filter.mp member
    rw [← found]
    rcases apply_upload op he up with ⟨result, mtime, rfl, _⟩ | ⟨id, choice, rfl, _⟩
    · exact (List.length_filter_le _ _).trans (onCheckResult_one_effect result mtime)
    · exact resolveConflict_one_upload id choice

theorem authorizedCheck_some {op : EditOp} {c : EditCheckId} (h : authorizedCheck (op, (l.apply op).2) = some c) :
    ∃ result mtime session, op = .onCheckResult result mtime ∧ result.checkId = c ∧
      l.store.get result.sessionId = some session ∧ session.pendingCheckId = some c ∧
      (l.apply op).1.store = l.store.getMut result.sessionId (fun s =>
        { s with phase := .uploadingBack, pendingCheckId := none, checkingLocalMtime := none }) := by
  cases op with
  | onCheckResult result mtime =>
    simp only [authorizedCheck] at h
    split at h
    · rename_i uploads
      cases h
      obtain ⟨e, he, up⟩ := List.any_eq_true.mp uploads
      obtain ⟨session, found, applies, _, _, _, store⟩ := onCheckResult_upload result mtime he up
      have pending : session.pendingCheckId = some result.checkId := by
        simp only [applicable, decide_eq_true_eq] at applies
        exact applies.2.1
      exact ⟨result, mtime, session, rfl, rfl, found, pending, store⟩
    · cases h
  | _ => simp [authorizedCheck] at h

end RemoteEditLifecycle

theorem issuedChecks_concat (past : EditLog) (entry : EditOp × EditAnswer) :
    issuedChecks (past ++ [entry]) = issuedChecks past ++ (issuedCheck entry).toList := by
  rw [issuedChecks, List.filterMap_append]
  cases h : issuedCheck entry <;> simp [h, issuedChecks]

theorem authorizedChecks_concat (past : EditLog) (entry : EditOp × EditAnswer) :
    authorizedChecks (past ++ [entry]) = authorizedChecks past ++ (authorizedCheck entry).toList := by
  rw [authorizedChecks, List.filterMap_append]
  cases h : authorizedCheck entry <;> simp [h, authorizedChecks]

theorem latestCheck_concat_none (past : EditLog) {entry : EditOp × EditAnswer} (h : issuedCheck entry = none)
    (id : EditSessionId) : latestCheck (past ++ [entry]) id = latestCheck past id := by
  simp [latestCheck, issuedChecks_concat, h]

theorem latestCheck_concat_some (past : EditLog) {entry : EditOp × EditAnswer}
    {issue : CheckRemoteEditSnapshotCommand × Timestamp} (h : issuedCheck entry = some issue) (id : EditSessionId) :
    latestCheck (past ++ [entry]) id =
      if issue.1.editSessionId = id then some (issue.1.checkId, issue.2) else latestCheck past id := by
  simp only [latestCheck, issuedChecks_concat, h, Option.toList_some, List.reverse_append, List.reverse_cons,
    List.reverse_nil, List.nil_append, List.cons_append, List.find?_cons]
  by_cases he : issue.1.editSessionId = id <;> simp [he]

theorem latestCheck_mem {past : EditLog} {id : EditSessionId} {c : EditCheckId} {m : Timestamp}
    (h : latestCheck past id = some (c, m)) :
    ∃ issue ∈ issuedChecks past, issue.1.editSessionId = id ∧ issue.1.checkId = c := by
  obtain ⟨issue, found, he⟩ := Option.map_eq_some_iff.mp h
  cases he
  exact ⟨issue, List.mem_reverse.mp (List.mem_of_find?_eq_some found), by simpa using List.find?_some found, rfl⟩

theorem issuedCheck_of_not_request {op : EditOp} (h : op.isRequest = false) (answer : EditAnswer) :
    issuedCheck (op, answer) = none := by
  cases op <;> first | rfl | cases h

theorem EditSessionStore.Spent.apply {l : RemoteEditLifecycle} (v : l.store.Valid) {c : EditCheckId}
    (h : l.store.Spent c) (op : EditOp) : (l.apply op).1.store.Spent c := by
  rcases l.apply_cases v.ids op with ⟨_, carried | registered⟩ | ⟨_, _, _, _, _, _, _, hstore⟩ |
    ⟨s, _, epoch, _, mtime, _, _, hstore⟩
  · refine ⟨carried.nextCheckId ▸ h.1, ?_⟩
    intro s' hs' hc
    obtain ⟨s, hs, _, hc', _⟩ := carried.pending hs' hc
    exact h.2 s hs hc'
  · refine ⟨registered.nextCheckId ▸ h.1, ?_⟩
    intro s' hs' hc
    rcases registered.mem hs' with ⟨s, hs, _, kept | dropped⟩ | dropped
    · exact h.2 s hs (kept.1 ▸ hc)
    · simp [dropped.1] at hc
    · simp [dropped.1] at hc
  · rw [hstore]
    exact ⟨h.1.trans (Nat.lt_succ_self _), h.2⟩
  · rw [hstore]
    refine ⟨h.1.trans (Nat.lt_succ_self _), ?_⟩
    intro s' hs' hc
    rcases markChecking_mem v hs' with ⟨hs, _⟩ | ⟨t, _, _, rfl⟩
    · exact h.2 s' hs hc
    · cases hc
      exact absurd h.1 (lt_irrefl _)

theorem spent_not_authorized {l : RemoteEditLifecycle} (v : l.store.Valid) {c : EditCheckId}
    (h : l.store.Spent c) (ops : List EditOp) :
    c ∉ authorizedChecks (RemoteEditLifecycle.machine.log l ops) := by
  induction ops generalizing l with
  | nil => simp [authorizedChecks, Machine.log]
  | cons op ops ih =>
    have later := ih (RemoteEditLifecycle.apply_valid v op) (h.apply v op)
    have now : authorizedCheck (op, (l.apply op).2) ≠ some c := by
      intro hc
      obtain ⟨_, _, session, _, _, found, pending, _⟩ := RemoteEditLifecycle.authorizedCheck_some hc
      exact h.2 session (get_mem found).1 pending
    intro hm
    obtain ⟨entry, he, hc⟩ := List.mem_filterMap.mp hm
    rcases List.mem_cons.mp he with rfl | he
    · exact now hc
    · exact later (List.mem_filterMap.mpr ⟨entry, he, hc⟩)

structure Tracked (past : EditLog) (store : EditSessionStore) : Prop where
  valid : store.Valid
  latest : ∀ s ∈ store.sessions, ∀ c, s.pendingCheckId = some c →
    ∃ m, s.checkingLocalMtime = some m ∧ latestCheck past s.id = some (c, m)
  issuedBound : ∀ issue ∈ issuedChecks past, issue.1.checkId.raw < store.nextCheckId
  issuedOwner : ∀ issue ∈ issuedChecks past, ∀ s ∈ store.sessions, s.pendingCheckId = some issue.1.checkId →
    s.id = issue.1.editSessionId ∧ s.tabId = issue.1.tabId
  issuedOnce : ((issuedChecks past).map (fun issue => issue.1.checkId)).Nodup
  authorizedSpent : ∀ c ∈ authorizedChecks past, store.Spent c
  authorizedOnce : (authorizedChecks past).Nodup

namespace Tracked

variable {past : EditLog} {l : RemoteEditLifecycle}

theorem pending_unique (h : Tracked past l.store) {s t : EditSession} (hs : s ∈ l.store.sessions)
    (ht : t ∈ l.store.sessions) {c : EditCheckId} (hc : s.pendingCheckId = some c)
    (hc' : t.pendingCheckId = some c) : s = t := by
  obtain ⟨m, _, hl⟩ := h.latest s hs c hc
  obtain ⟨issue, hi, hid, rfl⟩ := latestCheck_mem hl
  have ho := (h.issuedOwner issue hi t ht hc').1
  exact key_unique EditSession.id h.valid.ids hs ht (hid.symm.trans ho.symm)

theorem spent_of_authorized (h : Tracked past l.store) {op : EditOp} {c : EditCheckId}
    (hc : authorizedCheck (op, (l.apply op).2) = some c) : (l.apply op).1.store.Spent c := by
  obtain ⟨result, mtime, session, _, _, found, pending, hstore⟩ := RemoteEditLifecycle.authorizedCheck_some hc
  obtain ⟨hs, hid⟩ := get_mem found
  rw [hstore]
  refine ⟨h.valid.checkBound session hs c pending, ?_⟩
  intro s' hs' hc'
  obtain ⟨s, hm, rfl⟩ := (mem_updateKey EditSession.id _ _ h.valid.ids).mp hs'
  split at hc'
  · cases hc'
  · rename_i other
    exact other ((h.pending_unique hm hs hc' pending) ▸ hid)

theorem authorized_concat (h : Tracked past l.store) (op : EditOp) :
    (∀ c ∈ authorizedChecks (past ++ [(op, (l.apply op).2)]), (l.apply op).1.store.Spent c) ∧
      (authorizedChecks (past ++ [(op, (l.apply op).2)])).Nodup := by
  rw [authorizedChecks_concat]
  have before : ∀ c ∈ authorizedChecks past, (l.apply op).1.store.Spent c :=
    fun c hc => (h.authorizedSpent c hc).apply h.valid op
  cases hc : authorizedCheck (op, (l.apply op).2) with
  | none => simpa using ⟨before, h.authorizedOnce⟩
  | some c =>
    have fresh : c ∉ authorizedChecks past := by
      intro hm
      obtain ⟨_, _, session, _, _, found, pending, _⟩ := RemoteEditLifecycle.authorizedCheck_some hc
      exact (h.authorizedSpent c hm).2 session (get_mem found).1 pending
    constructor
    · intro c' hc'
      rcases List.mem_append.mp hc' with hm | hm
      · exact before c' hm
      · rw [List.mem_singleton.mp hm]
        exact h.spent_of_authorized hc
    · rw [Option.toList_some, List.nodup_append_comm]
      exact List.nodup_cons.mpr ⟨fresh, h.authorizedOnce⟩

theorem of_not_issued (h : Tracked past l.store) {op : EditOp} (hn : issuedCheck (op, (l.apply op).2) = none)
    (next : l.store.nextCheckId ≤ (l.apply op).1.store.nextCheckId)
    (origin : ∀ s' ∈ (l.apply op).1.store.sessions, ∀ c, s'.pendingCheckId = some c →
      ∃ s ∈ l.store.sessions, s'.target = s.target ∧ s.pendingCheckId = some c ∧
        s'.checkingLocalMtime = s.checkingLocalMtime) :
    Tracked (past ++ [(op, (l.apply op).2)]) (l.apply op).1.store := by
  have issued : issuedChecks (past ++ [(op, (l.apply op).2)]) = issuedChecks past := by
    simp [issuedChecks_concat, hn]
  obtain ⟨spent, once⟩ := h.authorized_concat op
  refine ⟨RemoteEditLifecycle.apply_valid h.valid op, ?_, ?_, ?_, ?_, spent, once⟩
  · intro s' hs' c hc
    obtain ⟨s, hs, target, hc', hm⟩ := origin s' hs' c hc
    obtain ⟨m, hm', hl⟩ := h.latest s hs c hc'
    have hid : s'.id = s.id := congrArg EditTarget.id target
    exact ⟨m, hm.trans hm', by rw [latestCheck_concat_none _ hn, hid, hl]⟩
  · intro issue hi
    rw [issued] at hi
    exact (h.issuedBound issue hi).trans_le next
  · intro issue hi s' hs' hc
    rw [issued] at hi
    obtain ⟨s, hs, target, hc', _⟩ := origin s' hs' _ hc
    have owner := h.issuedOwner issue hi s hs hc'
    exact ⟨(congrArg EditTarget.id target).trans owner.1, (congrArg EditTarget.tabId target).trans owner.2⟩
  · rw [issued]
    exact h.issuedOnce

theorem of_issued (h : Tracked past l.store) {s : EditSession} (hs : s ∈ l.store.sessions) {epoch : Nat}
    {key : ConnectionKey} {mtime : Timestamp}
    (answer : (l.apply (.requestUpload s.id epoch key mtime)).2 =
      .upload (.check ⟨s.tabId, epoch, s.id, ⟨l.store.nextCheckId⟩, s.ioPath⟩))
    (store : (l.apply (.requestUpload s.id epoch key mtime)).1.store =
      l.store.takeNextCheckId.1.getMut s.id (markChecking epoch ⟨l.store.nextCheckId⟩ mtime)) :
    Tracked (past ++ [(.requestUpload s.id epoch key mtime, (l.apply (.requestUpload s.id epoch key mtime)).2)])
      (l.apply (.requestUpload s.id epoch key mtime)).1.store := by
  have issue : issuedCheck (.requestUpload s.id epoch key mtime, (l.apply (.requestUpload s.id epoch key mtime)).2) =
      some (⟨s.tabId, epoch, s.id, ⟨l.store.nextCheckId⟩, s.ioPath⟩, mtime) := by rw [answer]; rfl
  obtain ⟨spent, once⟩ := h.authorized_concat (.requestUpload s.id epoch key mtime)
  refine ⟨RemoteEditLifecycle.apply_valid h.valid _, ?_, ?_, ?_, ?_, spent, once⟩
  · intro s' hs' c hc
    rw [store] at hs'
    rcases markChecking_mem h.valid hs' with ⟨hm, other⟩ | ⟨t, _, hid, rfl⟩
    · obtain ⟨m, hm', hl⟩ := h.latest s' hm c hc
      exact ⟨m, hm', by rw [latestCheck_concat_some _ issue, if_neg (Ne.symm other), hl]⟩
    · cases hc
      refine ⟨mtime, rfl, ?_⟩
      rw [latestCheck_concat_some _ issue]
      exact if_pos hid.symm
  · intro i hi
    rw [store]
    change i.1.checkId.raw < l.store.nextCheckId + 1
    rw [issuedChecks_concat, issue] at hi
    rcases List.mem_append.mp hi with hm | hm
    · exact (h.issuedBound i hm).trans (Nat.lt_succ_self _)
    · rw [List.mem_singleton.mp hm]
      exact Nat.lt_succ_self _
  · intro i hi s' hs' hc
    rw [store] at hs'
    rw [issuedChecks_concat, issue] at hi
    rcases List.mem_append.mp hi with hm | hm
    · rcases markChecking_mem h.valid hs' with ⟨hold, _⟩ | ⟨t, _, _, rfl⟩
      · exact h.issuedOwner i hm s' hold hc
      · have bound := h.issuedBound i hm
        have he : l.store.nextCheckId = i.1.checkId.raw := congrArg EditCheckId.raw (Option.some.inj hc)
        omega
    · rw [List.mem_singleton.mp hm] at hc ⊢
      rcases markChecking_mem h.valid hs' with ⟨hold, _⟩ | ⟨t, ht, hid, rfl⟩
      · exact absurd (h.valid.checkBound s' hold _ hc) (lt_irrefl _)
      · have he : t = s := key_unique EditSession.id h.valid.ids ht hs hid
        rw [he]
        exact ⟨rfl, rfl⟩
  · rw [issuedChecks_concat, issue, List.map_append, List.nodup_append_comm]
    refine List.nodup_cons.mpr ⟨?_, h.issuedOnce⟩
    intro hm
    obtain ⟨i, hi, he⟩ := List.mem_map.mp hm
    have bound := h.issuedBound i hi
    rw [he] at bound
    exact absurd bound (lt_irrefl _)

theorem apply (h : Tracked past l.store) (op : EditOp) :
    Tracked (past ++ [(op, (l.apply op).2)]) (l.apply op).1.store := by
  rcases l.apply_cases h.valid.ids op with ⟨hn, carried | registered⟩ | ⟨id, epoch, key, mtime, notice, rfl, ha, hst⟩ |
    ⟨s, hs, epoch, key, mtime, rfl, ha, hst⟩
  · apply h.of_not_issued (issuedCheck_of_not_request hn _) carried.nextCheckId.ge
    exact fun s' hs' c hc => carried.pending hs' hc
  · apply h.of_not_issued (issuedCheck_of_not_request hn _) registered.nextCheckId.ge
    intro s' hs' c hc
    rcases registered.mem hs' with ⟨s, hs, target, kept | dropped⟩ | dropped
    · exact ⟨s, hs, target, kept.1 ▸ hc, kept.2.1⟩
    · simp [dropped.1] at hc
    · simp [dropped.1] at hc
  · apply h.of_not_issued
    · rw [ha]; rfl
    · rw [hst]; exact Nat.le_succ _
    · rw [hst]
      exact fun s' hs' c hc => ⟨s', hs', rfl, hc, rfl⟩
  · exact h.of_issued hs ha hst

end Tracked

theorem tracked_run (editsDir : LocalPath) (runId : List Char) (ops : List EditOp) :
    Tracked (RemoteEditLifecycle.machine.log (.new editsDir runId) ops)
      (RemoteEditLifecycle.machine.run (.new editsDir runId) ops).store := by
  apply Machine.log_invariant RemoteEditLifecycle.machine (I := fun past l => Tracked past l.store)
  · exact fun past l op h => h.apply op
  · refine ⟨RemoteEditLifecycle.new_valid editsDir runId, ?_, ?_, ?_, List.nodup_nil, ?_, List.nodup_nil⟩
    · intro s hs; cases hs
    · intro issue hi; cases hi
    · intro issue hi; cases hi
    · intro c hc; cases hc

theorem authorized_upload {past : EditLog} {l : RemoteEditLifecycle} (h : Tracked past l.store) {op : EditOp}
    {tab : TabId} {id : EditSessionId} {command : AppCommand} {rollback : DispatchRollback}
    (he : .dispatch tab id command rollback ∈ (l.apply op).2.editEffects) (up : command.isUpload = true) :
    AuthorizedByCheck past l op id ∨ AuthorizedByOverwrite l op id := by
  rcases RemoteEditLifecycle.apply_upload op he up with ⟨result, mtime, rfl, hm⟩ | ⟨id', choice, rfl, hm⟩
  · obtain ⟨session, found, applies, hmt, outcome, ⟨_, _, _, hd⟩, _⟩ :=
      RemoteEditLifecycle.onCheckResult_upload result mtime hm up
    injection hd with _ hid _ _
    subst hid
    simp only [RemoteEditLifecycle.applicable, decide_eq_true_eq] at applies
    obtain ⟨hp, hc, _, hio, htab, hepoch⟩ := applies
    obtain ⟨hs, hid⟩ := get_mem found
    obtain ⟨m, hm', hl⟩ := h.latest session hs _ hc
    rw [hid] at hl
    rw [hm'] at hmt
    exact .inl ⟨result, m, session, by rw [hmt], rfl, found, hp, hl, htab, hepoch, hio.symm, outcome⟩
  · obtain ⟨authorized, _, _, _, hd⟩ := RemoteEditLifecycle.resolveConflict_upload id' choice hm up
    injection hd with _ hid _ _
    subst hid
    exact .inr authorized

theorem updateEpoch_spent {past : EditLog} {l : RemoteEditLifecycle} (h : Tracked past l.store) (epoch : Nat)
    {issue : CheckRemoteEditSnapshotCommand × Timestamp} (hi : issue ∈ issuedChecks past) :
    (l.updateEpochForTab issue.1.tabId epoch).store.Spent issue.1.checkId := by
  refine ⟨h.issuedBound issue hi, ?_⟩
  intro s' hs' hc
  obtain ⟨s, hs, rfl⟩ := List.mem_map.mp hs'
  have checks := h.valid.checks s hs
  split_ifs at hc with htab hp
  · cases hc
  · have : s.pendingCheckId.isSome := by simp [show s.pendingCheckId = some issue.1.checkId from hc]
    exact hp (checks.1.mp this)
  · exact htab (h.issuedOwner issue hi s hs hc).2

theorem uploads_are_authorized (editsDir : LocalPath) (runId : List Char) (ops : List EditOp) :
    let machine := RemoteEditLifecycle.machine
    let start := RemoteEditLifecycle.new editsDir runId
    (∀ before op after, ops = before ++ op :: after →
      ((machine.out (machine.run start before) op).editEffects.filter EditEffect.isUpload).length ≤ 1 ∧
      ∀ tab id command rollback,
        .dispatch tab id command rollback ∈ (machine.out (machine.run start before) op).editEffects →
        command.isUpload = true →
        AuthorizedByCheck (machine.log start before) (machine.run start before) op id ∨
          AuthorizedByOverwrite (machine.run start before) op id) ∧
    ((issuedChecks (machine.log start ops)).map (fun issue => issue.1.checkId)).Nodup ∧
    (authorizedChecks (machine.log start ops)).Nodup ∧
    ∀ before tab epoch after, ops = before ++ .updateEpochForTab tab epoch :: after →
      ∀ issue ∈ issuedChecks (machine.log start before), issue.1.tabId = tab →
        issue.1.checkId ∉ authorizedChecks (machine.log (machine.run start before) (.updateEpochForTab tab epoch :: after)) := by
  intro machine start
  have tracked := tracked_run editsDir runId
  refine ⟨?_, (tracked ops).issuedOnce, (tracked ops).authorizedOnce, ?_⟩
  · intro before op after _
    refine ⟨RemoteEditLifecycle.apply_one_upload _ op, ?_⟩
    intro tab id command rollback he up
    exact authorized_upload (tracked before) he up
  · rintro before tab epoch after _ issue hi rfl
    have known := tracked before
    have spent := updateEpoch_spent known epoch hi
    have valid := RemoteEditLifecycle.apply_valid known.valid (.updateEpochForTab issue.1.tabId epoch)
    exact spent_not_authorized valid spent after

def sampleKey : ConnectionKey := ⟨"srv", 22, "alex", .ephemeral ⟨1⟩⟩

def samplePending : PendingEdit where
  remotePath := .new "/notes.txt"
  ioPath := .new "/notes.txt"
  size := some 10
  modifiedAt := some (.fromSecsSinceEpoch 100)
  sessionEpoch := 3
  connectionKey := sampleKey
  tabId := ⟨1⟩
  profileId := ⟨1⟩

def sampleUploadRun : List EditOp :=
  [.startDownload samplePending,
    .onTransferFinished ⟨.download, .remote (.new "/notes.txt"), .local (.new "/e/r/1/notes.txt"), true⟩ none,
    .requestUpload ⟨1⟩ 3 sampleKey (.fromSecsSinceEpoch 200)]

def sampleResult : EditCheckResult :=
  ⟨⟨1⟩, 3, ⟨1⟩, ⟨1⟩, .new "/notes.txt", .matched ⟨some 10, some (.fromSecsSinceEpoch 100)⟩⟩

theorem uploads_are_authorized_sample :
    let op := EditOp.onCheckResult sampleResult (some (.fromSecsSinceEpoch 200))
    let start := RemoteEditLifecycle.new (.new "/e") ['r']
    let l := RemoteEditLifecycle.machine.run start sampleUploadRun
    (AuthorizedByCheck (RemoteEditLifecycle.machine.log start sampleUploadRun) l op ⟨1⟩ ∨
      AuthorizedByOverwrite l op ⟨1⟩) ∧
      ⟨1⟩ ∉ authorizedChecks (RemoteEditLifecycle.machine.log l [.updateEpochForTab ⟨1⟩ 4, op]) := by
  intro op start l
  constructor
  · have run := uploads_are_authorized (.new "/e") ['r'] (sampleUploadRun ++ [op])
    exact (run.1 sampleUploadRun op [] rfl).2 ⟨1⟩ ⟨1⟩
      (.startTransfer ⟨⟨1⟩, 3, ⟨1⟩, .upload, [.local (.new "/e/r/1/notes.txt")], .remote (.new "/notes.txt"), {}, .overwriteAll⟩)
      .revertCheck (by decide) (by decide)
  · have run := uploads_are_authorized (.new "/e") ['r'] (sampleUploadRun ++ [.updateEpochForTab ⟨1⟩ 4, op])
    exact run.2.2.2 sampleUploadRun ⟨1⟩ 4 [op] rfl (⟨⟨1⟩, 3, ⟨1⟩, ⟨1⟩, .new "/notes.txt"⟩, .fromSecsSinceEpoch 200)
      (by decide) rfl

end MacSftp
