import MacSftp.Edit.Lifecycle
import MacSftp.Lib.Runs

namespace MacSftp

open Lib

inductive EditOp
  | begin (pending : PendingEdit) (isTabLive : TabId → Bool)
  | startDownload (pending : PendingEdit)
  | abortDownload (id : EditSessionId)
  | requestUpload (id : EditSessionId) (sessionEpoch : Nat) (connectionKey : ConnectionKey)
      (checkingLocalMtime : Timestamp)
  | revertCheck (id : EditSessionId)
  | onCheckResult (result : EditCheckResult) (currentLocalMtime : Option Timestamp)
  | onTransferFinished (finished : EditTransferFinished) (localFacts : Option LocalFileFacts)
  | resolveConflict (id : EditSessionId) (choice : ConflictChoice)
  | dispatchFailed (id : EditSessionId) (rollback : DispatchRollback)
  | recordLocalModified (id : EditSessionId) (tempPath : LocalPath) (facts : Option LocalFileFacts)
  | adoptListingBaselines (tabId : TabId) (listing : List (RemotePath × RemoteSnapshot))
  | updateEpochForTab (tabId : TabId) (sessionEpoch : Nat)
  | removeForTab (tabId : TabId)

def EditOp.isRequest : EditOp → Bool
  | .requestUpload .. => true
  | _ => false

inductive EditAnswer
  | began (result : BeginEdit)
  | started (result : Except EditNotice StartedEdit)
  | upload (request : UploadRequest)
  | caused (effects : List EditEffect)
  | redraw (needed : Bool)
  | removed (sessions : List EditSession)
  | nothing

def EditAnswer.editEffects : EditAnswer → List EditEffect
  | .began (.start _ effects) => effects
  | .began (.handled effects) => effects
  | .caused effects => effects
  | _ => []

namespace RemoteEditLifecycle

def apply (l : RemoteEditLifecycle) : EditOp → RemoteEditLifecycle × EditAnswer
  | .begin pending isTabLive => ((l.begin pending isTabLive).1, .began (l.begin pending isTabLive).2)
  | .startDownload pending => ((l.startDownload pending).1, .started (l.startDownload pending).2)
  | .abortDownload id => ((l.abortDownload id).1, .caused (l.abortDownload id).2)
  | .requestUpload id epoch key mtime =>
    ((l.requestUpload id epoch key mtime).1, .upload (l.requestUpload id epoch key mtime).2)
  | .revertCheck id => (l.revertCheck id, .nothing)
  | .onCheckResult result mtime => ((l.onCheckResult result mtime).1, .caused (l.onCheckResult result mtime).2)
  | .onTransferFinished finished facts =>
    ((l.onTransferFinished finished facts).1, .caused (l.onTransferFinished finished facts).2)
  | .resolveConflict id choice => ((l.resolveConflict id choice).1, .caused (l.resolveConflict id choice).2)
  | .dispatchFailed id rollback => ((l.dispatchFailed id rollback).1, .caused (l.dispatchFailed id rollback).2)
  | .recordLocalModified id path facts =>
    ((l.recordLocalModified id path facts).1, .redraw (l.recordLocalModified id path facts).2)
  | .adoptListingBaselines tab listing => (l.adoptListingBaselines tab listing, .nothing)
  | .updateEpochForTab tab epoch => (l.updateEpochForTab tab epoch, .nothing)
  | .removeForTab tab => ((l.removeForTab tab).1, .removed (l.removeForTab tab).2)

def machine : Machine RemoteEditLifecycle EditOp EditAnswer := ⟨apply⟩

end RemoteEditLifecycle

/-- What never changes while a session is stored. -/
structure EditTarget where
  id : EditSessionId
  remotePath : RemotePath
  ioPath : RemotePath
  tabId : TabId
  connectionKey : ConnectionKey
  localTempPath : LocalPath

def EditSession.target (s : EditSession) : EditTarget :=
  ⟨s.id, s.remotePath, s.ioPath, s.tabId, s.connectionKey, s.localTempPath⟩

def EditSession.CheckKept (s s' : EditSession) : Prop :=
  s'.pendingCheckId = s.pendingCheckId ∧ s'.checkingLocalMtime = s.checkingLocalMtime ∧
    (s'.phase = .checkingRemote ↔ s.phase = .checkingRemote)

def EditSession.Unchecked (s : EditSession) : Prop :=
  s.pendingCheckId = none ∧ s.checkingLocalMtime = none ∧ s.phase ≠ .checkingRemote

def EditSession.Continues (s s' : EditSession) : Prop :=
  s'.target = s.target ∧ (s.CheckKept s' ∨ s'.Unchecked)

theorem EditSession.Continues.refl (s : EditSession) : s.Continues s :=
  ⟨rfl, .inl ⟨rfl, rfl, Iff.rfl⟩⟩

theorem EditSession.Continues.trans {s t u : EditSession} (h : s.Continues t) (k : t.Continues u) :
    s.Continues u := by
  refine ⟨k.1.trans h.1, ?_⟩
  rcases k.2 with kept | dropped
  · obtain ⟨hp, hm, hc⟩ := kept
    rcases h.2 with ⟨hp', hm', hc'⟩ | ⟨hp', hm', hc'⟩
    · exact .inl ⟨hp.trans hp', hm.trans hm', hc.trans hc'⟩
    · exact .inr ⟨hp.trans hp', hm.trans hm', fun he => hc' (hc.mp he)⟩
  · exact .inr dropped

/-- Every operation that registers no session and issues no check leaves the store like this. -/
structure EditSessionStore.Carried (old new : EditSessionStore) : Prop where
  ids : List.Sublist (new.sessions.map EditSession.id) (old.sessions.map EditSession.id)
  nextId : new.nextId = old.nextId
  nextCheckId : new.nextCheckId = old.nextCheckId
  origin : ∀ s' ∈ new.sessions, ∃ s ∈ old.sessions, s.Continues s'

namespace EditSessionStore

theorem Carried.refl (store : EditSessionStore) : store.Carried store :=
  ⟨.refl _, rfl, rfl, fun s hs => ⟨s, hs, .refl s⟩⟩

theorem Carried.trans {a b c : EditSessionStore} (h : a.Carried b) (k : b.Carried c) : a.Carried c := by
  refine ⟨k.ids.trans h.ids, k.nextId.trans h.nextId, k.nextCheckId.trans h.nextCheckId, ?_⟩
  intro u hu
  obtain ⟨t, ht, htu⟩ := k.origin u hu
  obtain ⟨s, hs, hst⟩ := h.origin t ht
  exact ⟨s, hs, hst.trans htu⟩

theorem carried_of_sublist {store : EditSessionStore} {sessions : List EditSession}
    (h : List.Sublist sessions store.sessions) : store.Carried { store with sessions := sessions } :=
  ⟨h.map _, rfl, rfl, fun s hs => ⟨s, h.subset hs, .refl s⟩⟩

theorem remove_carried (store : EditSessionStore) (id : EditSessionId) : store.Carried (store.remove id) :=
  carried_of_sublist List.eraseP_sublist

theorem removeForTab_carried (store : EditSessionStore) (tab : TabId) :
    store.Carried (store.removeForTab tab).1 := carried_of_sublist List.filter_sublist

theorem getMut_carried (store : EditSessionStore) (id : EditSessionId) {f : EditSession → EditSession}
    (nodup : (store.sessions.map EditSession.id).Nodup)
    (h : ∀ s ∈ store.sessions, s.id = id → s.Continues (f s)) : store.Carried (store.getMut id f) := by
  have origin : ∀ s' ∈ (store.getMut id f).sessions, ∃ s ∈ store.sessions, s.Continues s' := by
    intro s' hs'
    obtain ⟨s, hs, rfl⟩ := (mem_updateKey EditSession.id id f nodup).mp hs'
    refine ⟨s, hs, ?_⟩
    split
    · exact h s hs ‹_›
    · exact .refl s
  refine ⟨?_, rfl, rfl, origin⟩
  change List.Sublist ((updateKey EditSession.id id f store.sessions).map EditSession.id) _
  have same : (updateKey EditSession.id id f store.sessions).map EditSession.id =
      store.sessions.map EditSession.id := by
    rw [updateKey_eq_map EditSession.id id f nodup, List.map_map]
    apply List.map_congr_left
    intro s hs
    simp only [Function.comp_apply]
    split
    · exact congrArg EditTarget.id (h s hs ‹_›).1
    · rfl
  rw [same]

theorem updateEpochForTab_carried (store : EditSessionStore) (tab : TabId) (epoch : Nat) :
    store.Carried (store.updateEpochForTab tab epoch) := by
  refine ⟨?_, rfl, rfl, ?_⟩
  · simp only [updateEpochForTab, List.map_map]
    rw [List.map_congr_left (g := EditSession.id)]
    intro s _
    simp only [Function.comp_apply]
    split_ifs <;> rfl
  · intro s' hs'
    obtain ⟨s, hs, rfl⟩ := List.mem_map.mp hs'
    refine ⟨s, hs, ?_⟩
    split_ifs
    · exact ⟨rfl, .inr ⟨rfl, rfl, by simp [EditSession.reverted]⟩⟩
    · exact ⟨rfl, .inl ⟨rfl, rfl, Iff.rfl⟩⟩
    · exact .refl s

end EditSessionStore

end MacSftp
