import MacSftp.Edit.Authorization
import MacSftp.Edit.Correlation
import MacSftp.Edit.Invariant

namespace MacSftp

open Lib EditSessionStore

/-- A command that goes to the runtime, and what is undone when it does not get there. -/
structure EditDispatch where
  sessionId : EditSessionId
  command : AppCommand
  rollback : DispatchRollback
  deriving DecidableEq, Repr

def EditEffect.dispatched : EditEffect → Option EditDispatch
  | .dispatch _ sessionId command rollback => some ⟨sessionId, command, rollback⟩
  | _ => none

def EditAnswer.dispatches : EditAnswer → List EditDispatch
  | .started (.ok edit) => [⟨edit.sessionId, edit.command, .abortDownload⟩]
  | .upload (.check command) => [⟨command.editSessionId, .checkRemoteEditSnapshot command, .revertCheck⟩]
  | answer => answer.editEffects.filterMap EditEffect.dispatched

/-- The operations that do not come from the outcome of another one. -/
def EditOp.isOwn : EditOp → Bool
  | .abortDownload _ | .revertCheck _ | .onTransferFinished .. | .dispatchFailed .. => false
  | _ => true

namespace RemoteEditLifecycle

variable {l : RemoteEditLifecycle}

/-- The session whose upload the operation allows: its check has come back unchanged, or the user overwrites. -/
def authorizedBy (l : RemoteEditLifecycle) : EditOp → Option EditSessionId
  | .onCheckResult result mtime =>
    (l.store.get result.sessionId).bind fun session =>
      if applicable session result = true ∧ mtime = session.checkingLocalMtime ∧
        result.outcome = .matched session.remoteSnapshot then some result.sessionId else none
  | .resolveConflict id .overwrite =>
    (l.store.get id).bind fun session => if session.phase = .remoteConflict then some id else none
  | _ => none

/-- What an operation sends: commands that upload nothing, or the one upload that it allows. -/
inductive Sends (l : RemoteEditLifecycle) (op : EditOp) : List EditDispatch → Prop
  | others (ds : List EditDispatch) (each : ∀ d ∈ ds, d.command.isUpload = false) : Sends l op ds
  | upload (session : EditSession) (hs : session ∈ l.store.sessions) (told : l.authorizedBy op = some session.id)
      (rollback : DispatchRollback) : Sends l op [⟨session.id, buildEditUploadCommand session, rollback⟩]

theorem sends_nothing {op : EditOp} {answer : EditAnswer} (none_ : answer.dispatches = []) : l.Sends op answer.dispatches := by
  rw [none_]
  exact .others [] fun _ never => absurd never List.not_mem_nil

theorem reapTab_silent (tab : TabId) : (l.reapTab tab).2.filterMap EditEffect.dispatched = [] := by
  rw [List.filterMap_eq_nil_iff]
  intro effect member
  obtain ⟨session, _, rfl⟩ := List.mem_map.mp member
  rfl

theorem beginDedup_silent (pending : PendingEdit) (isTabLive : TabId → Bool) {reaped : List EditEffect}
    (silent : reaped.filterMap EditEffect.dispatched = []) :
    (EditAnswer.began (l.beginDedup pending isTabLive reaped).2).dispatches = [] := by
  unfold beginDedup
  split
  · exact silent
  · rename_i existing _
    split
    · show (reopen pending existing).filterMap EditEffect.dispatched = []
      unfold reopen
      split <;> rfl
    · show (reaped ++ (l.reapTab existing.tabId).2).filterMap EditEffect.dispatched = []
      rw [List.filterMap_append, silent, reapTab_silent]
      rfl

theorem begin_silent (pending : PendingEdit) (isTabLive : TabId → Bool) :
    (EditAnswer.began (l.begin pending isTabLive).2).dispatches = [] := by
  unfold begin
  split
  · exact beginDedup_silent _ _ rfl
  · split
    · exact beginDedup_silent _ _ rfl
    · split
      · rfl
      · exact beginDedup_silent _ _ (reapTab_silent _)

theorem startDownload_sends (pending : PendingEdit) :
    ∀ d ∈ (EditAnswer.started (l.startDownload pending).2).dispatches, d.command.isUpload = false := by
  intro d member
  obtain ⟨_, notice, refused⟩ | ⟨name, _, given⟩ := startDownload_cases (l := l) pending
  · rw [refused] at member
    cases member
  · rw [given] at member
    cases List.mem_singleton.mp member
    rfl

theorem discardLocal_sends (session : EditSession) :
    ∀ d ∈ (EditAnswer.caused (l.discardLocal session).2).dispatches, d.command.isUpload = false := by
  intro d member
  unfold discardLocal at member
  dsimp only at member
  split at member
  · rename_i edit started
    cases List.mem_singleton.mp member
    obtain ⟨_, notice, refused⟩ | ⟨name, _, given⟩ := startDownload_cases (l := { l with store := l.store.remove session.id }) {
      remotePath := session.remotePath
      ioPath := session.ioPath
      size := session.remoteSnapshot.size
      modifiedAt := session.remoteSnapshot.modifiedAt
      sessionEpoch := session.sessionEpoch
      connectionKey := session.connectionKey
      tabId := session.tabId
      profileId := session.profileId }
    · rw [refused] at started
      cases started
    · rw [given] at started
      cases started
      rfl
  · cases member

theorem onCheckResult_sends (result : EditCheckResult) (mtime : Option Timestamp) :
    l.Sends (.onCheckResult result mtime) (EditAnswer.caused (l.onCheckResult result mtime).2).dispatches := by
  unfold onCheckResult
  split
  · exact sends_nothing rfl
  rename_i session found
  split
  · exact sends_nothing rfl
  rename_i applies
  split
  · exact sends_nothing rfl
  rename_i unchanged
  split
  · rename_i snapshot outcome
    split
    · rename_i same
      obtain ⟨hs, own⟩ := get_mem found
      have told : l.authorizedBy (.onCheckResult result mtime) = some session.id := by
        rw [authorizedBy, found, Option.bind_some, if_pos, own]
        exact ⟨by simpa using applies, by simpa using unchanged, by rw [outcome, same]⟩
      have sent := Sends.upload session hs told .revertCheck
      rw [own] at sent
      exact sent
    · exact sends_nothing rfl
  · exact sends_nothing rfl

theorem resolveConflict_sends (id : EditSessionId) (choice : ConflictChoice) :
    l.Sends (.resolveConflict id choice) (EditAnswer.caused (l.resolveConflict id choice).2).dispatches := by
  unfold resolveConflict
  split
  · exact sends_nothing rfl
  rename_i session found
  split
  · exact sends_nothing rfl
  rename_i conflict
  cases choice with
  | overwrite =>
    obtain ⟨hs, own⟩ := get_mem found
    subst own
    refine .upload session hs ?_ .restoreConflict
    rw [authorizedBy, found, Option.bind_some, if_pos]
    simpa using conflict
  | discardLocal => exact .others _ (discardLocal_sends session)
  | later => exact sends_nothing rfl

theorem requestUpload_sends (id : EditSessionId) (epoch : Nat) (key : ConnectionKey) (mtime : Timestamp) :
    ∀ d ∈ (EditAnswer.upload (l.requestUpload id epoch key mtime).2).dispatches, d.command.isUpload = false := by
  intro d member
  cases answer : (l.requestUpload id epoch key mtime).2 with
  | check command =>
    rw [answer] at member
    cases List.mem_singleton.mp member
    rfl
  | rejected rejection =>
    rw [answer] at member
    cases member

theorem apply_sends {op : EditOp} (own : op.isOwn = true) : l.Sends op (l.apply op).2.dispatches := by
  cases op with
  | begin pending isTabLive => exact sends_nothing (begin_silent pending isTabLive)
  | startDownload pending => exact .others _ (startDownload_sends pending)
  | requestUpload id epoch key mtime => exact .others _ (requestUpload_sends id epoch key mtime)
  | onCheckResult result mtime => exact onCheckResult_sends result mtime
  | resolveConflict id choice => exact resolveConflict_sends id choice
  | recordLocalModified | adoptListingBaselines | updateEpochForTab | removeForTab => exact sends_nothing rfl
  | abortDownload | revertCheck | onTransferFinished | dispatchFailed => cases own

/-- One step of the lifecycle with what becomes of its commands: they are sent, or undone when they cannot be. -/
def perform (l : RemoteEditLifecycle) (op : EditOp) (delivered : Bool) : RemoteEditLifecycle × List EditDispatch :=
  let performed := l.apply op
  if delivered then (performed.1, performed.2.dispatches)
  else (performed.2.dispatches.foldl (fun l d => (l.dispatchFailed d.sessionId d.rollback).1) performed.1, [])

theorem perform_keeps {I : RemoteEditLifecycle → Prop} (keep : ∀ l op, I l → I (l.apply op).1) (h : I l) (op : EditOp)
    (delivered : Bool) : I (l.perform op delivered).1 := by
  have fold : ∀ (ds : List EditDispatch) (l : RemoteEditLifecycle), I l →
      I (ds.foldl (fun l d => (l.dispatchFailed d.sessionId d.rollback).1) l) := by
    intro ds
    induction ds with
    | nil => exact fun _ held => held
    | cons d ds ih => exact fun l held => ih _ (keep l (.dispatchFailed d.sessionId d.rollback) held)
  cases delivered with
  | true => exact keep l op h
  | false => exact fold _ _ (keep l op h)

theorem perform_sends {op : EditOp} (own : op.isOwn = true) (delivered : Bool) :
    (l.perform op delivered).2 = [] ∨ delivered = true ∧ l.Sends op (l.perform op delivered).2 := by
  cases delivered with
  | true => exact Or.inr ⟨rfl, apply_sends own⟩
  | false => exact Or.inl rfl

end RemoteEditLifecycle

end MacSftp
