import MacSftp.Lib.Holders
import MacSftp.Tabs.Stale
import MacSftp.Transfer.Representation
import Mathlib.Data.List.Nodup

namespace MacSftp.ConflictPrompts

open Lib

structure WindowId where
  index : Nat
  deriving DecidableEq, Repr

inductive ModalRequestId
  | trust (requestId : Nat)
  | keyboardInteractive (requestId : Nat)
  | conflict (requestId : ConflictRequestId)
  deriving DecidableEq, Repr

def requestIdOf : Tabs.ModalRequest → Option ModalRequestId
  | .hostKey prompt => some (.trust prompt.requestId)
  | .keyboardInteractive prompt => some (.keyboardInteractive prompt.requestId)
  | .transferConflict prompt => some (.conflict prompt.requestId)

/-- A window of the app, and the tabs and modals of its workspace. -/
structure WorkspaceWindow where
  id : WindowId
  state : Tabs.AppState := {}
  deriving DecidableEq, Repr

namespace WorkspaceWindow

def hasTransferConflictModal (window : WorkspaceWindow) (requestId : ConflictRequestId) : Bool :=
  window.state.modals.any (fun modal => requestIdOf modal = some (.conflict requestId))

def presentTransferConflict (prompt : Tabs.TransferConflictPrompt) (window : WorkspaceWindow) : WorkspaceWindow :=
  if window.hasTransferConflictModal prompt.requestId then window
  else { window with state := { window.state with modals := window.state.modals ++ [.transferConflict prompt] } }

def removeModal (requestId : ModalRequestId) (window : WorkspaceWindow) : WorkspaceWindow :=
  { window with
    state := { window.state with modals := window.state.modals.filter (fun modal => requestIdOf modal ≠ some requestId) } }

end WorkspaceWindow

def conflictPrompt (conflict : ConflictRequest) : Tabs.TransferConflictPrompt where
  requestId := conflict.id
  planId := conflict.planId
  transferId := conflict.transferId
  source := conflict.source
  destination := conflict.destination
  sourceSize := conflict.sourceSize
  sourceModifiedAt := conflict.sourceModifiedAt

/-- What a window does by itself: it shows no conflict. -/
def WindowOp : Type := { op : Tabs.AppOp // ∀ prompt, op ≠ .present (.transferConflict prompt) }

/-- `active` is the window the platform calls active; `updating` the one whose handler runs, so that it cannot be read. -/
inductive PromptOp
  | transferEvent (event : TransferEvent) (now : Timestamp) (active : Option WindowId)
  | markCancelling (transferId : TransferId)
  | clearTerminal
  | openWindow (slot : Nat) (updating active : Option WindowId)
  | closeWindow (id : WindowId) (active : Option WindowId)
  | window (id : WindowId) (op : WindowOp)
  | answerHostKey (id : WindowId) (requestId : Nat)
  | answerKeyboardInteractive (id : WindowId) (requestId : Nat)
  | resolveTransferConflict (id : WindowId) (prompt : Tabs.TransferConflictPrompt) (sent : Bool)

structure PromptSystem where
  transfers : TransferStore := {}
  windows : List WorkspaceWindow := []
  nextWindow : Nat := 0
  deriving DecidableEq, Repr

namespace PromptSystem

def updateWindow (s : PromptSystem) (id : WindowId) (f : WorkspaceWindow → WorkspaceWindow) : PromptSystem :=
  { s with windows := updateKey (fun window => window.id) id f s.windows }

def workspaceWindows (s : PromptSystem) (updating : Option WindowId) : List WorkspaceWindow :=
  s.windows.filter (fun window => some window.id ≠ updating)

def activeWorkspaceWindow (s : PromptSystem) (updating active : Option WindowId) : Option WindowId :=
  active.filter (fun id => (s.workspaceWindows updating).any (fun window => window.id = id))

/-- One turn of the loop over the pending conflicts. -/
def presentConflict (updating active : Option WindowId) (s : PromptSystem) (conflict : ConflictRequest) : PromptSystem :=
  match s.workspaceWindows updating with
  | [] => s
  | first :: rest =>
    if (first :: rest).any (fun window => window.hasTransferConflictModal conflict.id) then s
    else
      s.updateWindow ((s.activeWorkspaceWindow updating active).getD first.id)
        (WorkspaceWindow.presentTransferConflict (conflictPrompt conflict))

def presentOrphanedTransferConflicts (s : PromptSystem) (updating active : Option WindowId) : PromptSystem :=
  s.transfers.pendingConflicts.foldl (presentConflict updating active) s

def dispatchTransferEvent (s : PromptSystem) (event : TransferEvent) (now : Timestamp) (active : Option WindowId) : PromptSystem :=
  let s := { s with transfers := (s.transfers.applyEvent event now).1 }
  match event with
  | .conflict _ => s.presentOrphanedTransferConflicts none active
  | _ => s

def addWindow (s : PromptSystem) (slot : Nat) : PromptSystem :=
  { s with
    windows := s.windows.insertIdx (min slot s.windows.length) { id := ⟨s.nextWindow⟩ }
    nextWindow := s.nextWindow + 1 }

/-- The handler that opens the window may be one of a window that is open already. -/
def openWorkspaceWindow (s : PromptSystem) (slot : Nat) (updating active : Option WindowId) : PromptSystem :=
  let opener := updating.filter (fun id => s.windows.any (fun window => window.id = id))
  (s.addWindow slot).presentOrphanedTransferConflicts opener active

def onWindowClosed (s : PromptSystem) (id : WindowId) (active : Option WindowId) : PromptSystem :=
  let s := { s with windows := s.windows.filter (fun window => window.id ≠ id) }
  s.presentOrphanedTransferConflicts none active

/-- A prompt is answered in a window, with a button that was drawn for it or with a new name for the prompt that is shown. A
command that cannot be sent leaves everything as it is. -/
def resolveTransferConflict (s : PromptSystem) (id : WindowId) (prompt : Tabs.TransferConflictPrompt) (sent : Bool) :
    PromptSystem :=
  match findKey (fun window => window.id) id s.windows with
  | none => s
  | some _ =>
    if sent then
      let s := s.updateWindow id (WorkspaceWindow.removeModal (.conflict prompt.requestId))
      { s with transfers := (s.transfers.removeConflict prompt.requestId).1 }
    else s

def apply (s : PromptSystem) : PromptOp → PromptSystem
  | .transferEvent event now active => s.dispatchTransferEvent event now active
  | .markCancelling transferId => { s with transfers := (s.transfers.markCancelling transferId).1 }
  | .clearTerminal => { s with transfers := s.transfers.clearTerminal.1 }
  | .openWindow slot updating active => s.openWorkspaceWindow slot updating active
  | .closeWindow id active => s.onWindowClosed id active
  | .window id op => s.updateWindow id (fun window => { window with state := (window.state.apply op.val).1 })
  | .answerHostKey id requestId => s.updateWindow id (WorkspaceWindow.removeModal (.trust requestId))
  | .answerKeyboardInteractive id requestId => s.updateWindow id (WorkspaceWindow.removeModal (.keyboardInteractive requestId))
  | .resolveTransferConflict id prompt sent => s.resolveTransferConflict id prompt sent

def machine : Machine PromptSystem PromptOp Unit := ⟨fun s op => (s.apply op, ())⟩

end PromptSystem

section Windows

def conflictOf (modal : Tabs.ModalRequest) : Option ConflictRequestId :=
  match requestIdOf modal with
  | some (.conflict requestId) => some requestId
  | _ => none

theorem conflictOf_iff {modal : Tabs.ModalRequest} {requestId : ConflictRequestId} :
    conflictOf modal = some requestId ↔ requestIdOf modal = some (.conflict requestId) := by
  cases modal <;> simp [conflictOf, requestIdOf]

theorem conflicts_of_filter {keep : Tabs.ModalRequest → Bool} {kept : ConflictRequestId → Bool}
    (h : ∀ modal requestId, conflictOf modal = some requestId → keep modal = kept requestId) (modals : List Tabs.ModalRequest) :
    (modals.filter keep).filterMap conflictOf = (modals.filterMap conflictOf).filter kept := by
  induction modals with
  | nil => rfl
  | cons modal modals ih =>
    cases asks : conflictOf modal with
    | none => by_cases keeps : keep modal = true <;> simp [keeps, asks, ih]
    | some requestId =>
      have same := h modal requestId asks
      by_cases keeps : keep modal = true <;> simp_all

namespace WorkspaceWindow

def conflictIds (window : WorkspaceWindow) : List ConflictRequestId := window.state.modals.filterMap conflictOf

theorem hasTransferConflictModal_iff {window : WorkspaceWindow} {requestId : ConflictRequestId} :
    window.hasTransferConflictModal requestId = true ↔ requestId ∈ window.conflictIds := by
  simp [hasTransferConflictModal, conflictIds, conflictOf_iff]

theorem present_new {window : WorkspaceWindow} (prompt : Tabs.TransferConflictPrompt)
    (absent : prompt.requestId ∉ window.conflictIds) :
    (window.presentTransferConflict prompt).conflictIds = window.conflictIds ++ [prompt.requestId] := by
  have lacks : ¬ window.hasTransferConflictModal prompt.requestId = true := fun has => absent (hasTransferConflictModal_iff.mp has)
  rw [presentTransferConflict, if_neg lacks]
  simp [conflictIds, conflictOf, requestIdOf]

@[simp] theorem present_id (prompt : Tabs.TransferConflictPrompt) (window : WorkspaceWindow) :
    (window.presentTransferConflict prompt).id = window.id := by
  unfold presentTransferConflict
  split <;> rfl

theorem removeModal_conflictIds (requestId : ModalRequestId) (window : WorkspaceWindow) :
    (window.removeModal requestId).conflictIds = window.conflictIds.filter (fun other => requestId ≠ .conflict other) := by
  refine conflicts_of_filter ?_ window.state.modals
  intro modal other asks
  rw [conflictOf_iff.mp asks]
  simp [eq_comm]

theorem apply_conflictIds (op : WindowOp) (state : Tabs.AppState) :
    (state.apply op.val).1.modals.filterMap conflictOf = state.modals.filterMap conflictOf := by
  obtain ⟨op, plain⟩ := op
  cases op with
  | openTab | closeTab | activateTab | beginConnect | beginReconnect | disconnectTab => rfl
  | onEvent event change =>
    change (state.onEvent event change).modals.filterMap conflictOf = _
    unfold Tabs.AppState.onEvent
    split
    · split <;> rfl
    · rfl
  | present request =>
    cases request with
    | transferConflict prompt => exact absurd rfl (plain prompt)
    | hostKey | keyboardInteractive => simp [Tabs.AppState.apply, conflictOf, requestIdOf]
  | drainExpiredModals =>
    change (Tabs.AppState.retainModals state.tabs state.modals []).1.filterMap conflictOf = _
    have kept : ∀ modal requestId, conflictOf modal = some requestId → (!Tabs.AppState.modalExpired state.tabs modal) = true := by
      intro modal requestId asks
      cases modal with
      | transferConflict prompt => rfl
      | hostKey prompt | keyboardInteractive prompt => cases asks
    rw [Tabs.AppState.retainModals_eq]
    exact (conflicts_of_filter kept state.modals).trans (List.filter_true _)

end WorkspaceWindow

end Windows

namespace PromptSystem

/-- The requests on screen, with each window that shows one. -/
def shown (s : PromptSystem) : List ConflictRequestId := s.windows.flatMap WorkspaceWindow.conflictIds

section Presenting

variable {s t u : PromptSystem} {updating active : Option WindowId} {conflict : ConflictRequest}

theorem mem_workspaceWindows {window : WorkspaceWindow} :
    window ∈ s.workspaceWindows updating ↔ window ∈ s.windows ∧ some window.id ≠ updating := by
  simp [workspaceWindows]

theorem activeWorkspaceWindow_mem {id : WindowId} (h : s.activeWorkspaceWindow updating active = some id) :
    ∃ window ∈ s.workspaceWindows updating, window.id = id := by
  obtain ⟨-, found⟩ := Option.filter_eq_some_iff.mp h
  simpa using found

theorem presentConflict_cases (s : PromptSystem) (updating active : Option WindowId) (conflict : ConflictRequest) :
    (presentConflict updating active s conflict = s ∧
      (s.workspaceWindows updating = [] ∨ ∃ window ∈ s.workspaceWindows updating, conflict.id ∈ window.conflictIds)) ∨
    ∃ target ∈ s.workspaceWindows updating, (∀ window ∈ s.workspaceWindows updating, conflict.id ∉ window.conflictIds) ∧
      presentConflict updating active s conflict =
        s.updateWindow target.id (WorkspaceWindow.presentTransferConflict (conflictPrompt conflict)) := by
  unfold presentConflict
  cases readable : s.workspaceWindows updating with
  | nil => exact .inl ⟨rfl, .inl rfl⟩
  | cons first rest =>
    dsimp only
    split
    · rename_i has
      obtain ⟨window, mem, shows⟩ := List.any_eq_true.mp has
      exact .inl ⟨rfl, .inr ⟨window, mem, WorkspaceWindow.hasTransferConflictModal_iff.mp shows⟩⟩
    · rename_i lacks
      have none_shows : ∀ window ∈ first :: rest, conflict.id ∉ window.conflictIds := fun window mem shows =>
        lacks (List.any_eq_true.mpr ⟨window, mem, WorkspaceWindow.hasTransferConflictModal_iff.mpr shows⟩)
      cases chosen : s.activeWorkspaceWindow updating active with
      | none => exact .inr ⟨first, List.mem_cons_self, none_shows, rfl⟩
      | some id =>
        obtain ⟨target, mem, rfl⟩ := activeWorkspaceWindow_mem chosen
        exact .inr ⟨target, readable ▸ mem, none_shows, rfl⟩

/-- What presenting conflicts leaves as it was. -/
structure Presented (updating : Option WindowId) (s t : PromptSystem) : Prop where
  transfers : t.transfers = s.transfers
  nextWindow : t.nextWindow = s.nextWindow
  ids : t.windows.map (fun window => window.id) = s.windows.map (fun window => window.id)
  shown : List.Subperm s.shown t.shown
  unread : ∀ window ∈ t.windows, some window.id = updating → window ∈ s.windows
  once : (∀ window ∈ s.windows, window.conflictIds.Nodup) → ∀ window ∈ t.windows, window.conflictIds.Nodup

theorem Presented.refl (updating : Option WindowId) (s : PromptSystem) : Presented updating s s :=
  ⟨rfl, rfl, rfl, List.Subperm.refl _, fun _ mem _ => mem, fun once => once⟩

theorem Presented.trans (first : Presented updating s t) (second : Presented updating t u) : Presented updating s u where
  transfers := second.transfers.trans first.transfers
  nextWindow := second.nextWindow.trans first.nextWindow
  ids := second.ids.trans first.ids
  shown := first.shown.trans second.shown
  unread := fun window mem its => first.unread window (second.unread window mem its) its
  once := fun once => second.once (first.once once)

theorem presented_new (unique : (s.windows.map (fun window => window.id)).Nodup) {target : WorkspaceWindow}
    (mem : target ∈ s.workspaceWindows updating) (absent : ∀ window ∈ s.workspaceWindows updating,
      conflict.id ∉ window.conflictIds) :
    (s.updateWindow target.id (WorkspaceWindow.presentTransferConflict (conflictPrompt conflict))).shown.Perm
      (conflict.id :: s.shown) := by
  obtain ⟨inside, -⟩ := mem_workspaceWindows.mp mem
  refine held_updateKey (findKey_of_mem _ unique inside) (?_ : List.Perm _ ([conflict.id] ++ _))
  rw [WorkspaceWindow.present_new (conflictPrompt conflict) (absent target mem)]
  exact List.perm_append_comm

theorem presentConflict_presented (unique : (s.windows.map (fun window => window.id)).Nodup) (updating active : Option WindowId)
    (conflict : ConflictRequest) : Presented updating s (presentConflict updating active s conflict) := by
  rcases presentConflict_cases s updating active conflict with ⟨same, -⟩ | ⟨target, mem, absent, next⟩
  · rw [same]
    exact .refl updating s
  · rw [next]
    obtain ⟨-, readable⟩ := mem_workspaceWindows.mp mem
    refine ⟨rfl, rfl, updateKey_map _ _ _ (fun window => WorkspaceWindow.present_id _ window) _, ?_, ?_, ?_⟩
    · exact (List.sublist_cons_self _ _).subperm.trans (presented_new unique mem absent).symm.subperm
    · intro window there its
      obtain ⟨old, before, rfl⟩ := (mem_updateKey _ _ _ unique).mp there
      split_ifs at its ⊢ with here
      · rw [WorkspaceWindow.present_id, here] at its
        exact absurd its readable
      · exact before
    · intro once window there
      obtain ⟨old, before, rfl⟩ := (mem_updateKey _ _ _ unique).mp there
      split_ifs with here
      · have is : old = target := key_unique _ unique before (mem_workspaceWindows.mp mem).1 here
        subst is
        rw [WorkspaceWindow.present_new (conflictPrompt conflict) (absent old mem)]
        exact (List.nodup_append_comm.mp (List.nodup_cons.mpr ⟨absent old mem, once old before⟩))
      · exact once old before

theorem presented_all (unique : (s.windows.map (fun window => window.id)).Nodup) (updating active : Option WindowId)
    (conflicts : List ConflictRequest) :
    Presented updating s (conflicts.foldl (presentConflict updating active) s) := by
  induction conflicts generalizing s with
  | nil => exact .refl updating s
  | cons conflict conflicts ih =>
    have first := presentConflict_presented unique updating active conflict
    exact first.trans (ih (first.ids ▸ unique))

theorem presentConflict_shows (unique : (s.windows.map (fun window => window.id)).Nodup)
    (readable : s.workspaceWindows updating ≠ []) : conflict.id ∈ (presentConflict updating active s conflict).shown := by
  rcases presentConflict_cases s updating active conflict with ⟨same, none_read | ⟨window, mem, shows⟩⟩ |
    ⟨target, mem, absent, next⟩
  · exact absurd none_read readable
  · rw [same]
    exact List.mem_flatMap.mpr ⟨window, (mem_workspaceWindows.mp mem).1, shows⟩
  · rw [next]
    exact (presented_new unique mem absent).mem_iff.mpr List.mem_cons_self

theorem Presented.readable (h : Presented updating s t) (readable : s.workspaceWindows updating ≠ []) :
    t.workspaceWindows updating ≠ [] := by
  obtain ⟨window, mem⟩ := List.exists_mem_of_ne_nil _ readable
  obtain ⟨inside, apart⟩ := mem_workspaceWindows.mp mem
  have listed : window.id ∈ t.windows.map (fun window => window.id) := h.ids ▸ List.mem_map_of_mem inside
  obtain ⟨after, there, same⟩ := List.mem_map.mp listed
  exact List.ne_nil_of_mem (mem_workspaceWindows.mpr ⟨there, same ▸ apart⟩)

theorem presented_shows (unique : (s.windows.map (fun window => window.id)).Nodup) (readable : s.workspaceWindows updating ≠ [])
    {conflicts : List ConflictRequest} (mem : conflict ∈ conflicts) :
    conflict.id ∈ (conflicts.foldl (presentConflict updating active) s).shown := by
  induction conflicts generalizing s with
  | nil => cases mem
  | cons next conflicts ih =>
    have first := presentConflict_presented unique updating active next
    rcases List.mem_cons.mp mem with rfl | later
    · exact (presented_all (first.ids ▸ unique) updating active conflicts).shown.subset (presentConflict_shows unique readable)
    · exact ih (first.ids ▸ unique) (first.readable readable) later

/-- A window that cannot be read has none of the conflicts, so none is shown a second time. -/
theorem presented_once (unique : (s.windows.map (fun window => window.id)).Nodup) {conflicts : List ConflictRequest}
    (unread : ∀ window ∈ s.windows, some window.id = updating → ∀ conflict ∈ conflicts, conflict.id ∉ window.conflictIds)
    (once : s.shown.Nodup) : (conflicts.foldl (presentConflict updating active) s).shown.Nodup := by
  induction conflicts generalizing s with
  | nil => exact once
  | cons conflict conflicts ih =>
    have first := presentConflict_presented unique updating active conflict
    refine ih (first.ids ▸ unique) ?_ ?_
    · intro window mem its later there
      exact unread window (first.unread window mem its) its later (List.mem_cons_of_mem _ there)
    · rcases presentConflict_cases s updating active conflict with ⟨same, -⟩ | ⟨target, mem, absent, next⟩
      · rwa [same]
      · rw [next]
        refine (presented_new unique mem absent).nodup_iff.mpr (List.nodup_cons.mpr ⟨?_, once⟩)
        intro shows
        obtain ⟨window, inside, its⟩ := List.mem_flatMap.mp shows
        by_cases here : some window.id = updating
        · exact unread window inside here conflict List.mem_cons_self its
        · exact absent window (mem_workspaceWindows.mpr ⟨inside, here⟩) its

/-- A conflict that only a window shows that cannot be read is shown again. -/
theorem presented_twice (unique : (s.windows.map (fun window => window.id)).Nodup) (readable : s.workspaceWindows updating ≠ [])
    {conflicts : List ConflictRequest} (mem : conflict ∈ conflicts) {window : WorkspaceWindow} (inside : window ∈ s.windows)
    (its : some window.id = updating) (shows : conflict.id ∈ window.conflictIds) :
    ¬ (conflicts.foldl (presentConflict updating active) s).shown.Nodup := by
  induction conflicts generalizing s with
  | nil => cases mem
  | cons next conflicts ih =>
    have first := presentConflict_presented unique updating active next
    have still := presented_all (first.ids ▸ unique) updating active conflicts
    have kept : window ∈ (presentConflict updating active s next).windows := by
      rcases presentConflict_cases s updating active next with ⟨same, -⟩ | ⟨target, mem, absent, changed⟩
      · rwa [same]
      · rw [changed]
        refine mem_updateKey_of_ne _ inside (fun is => ?_) _
        exact (mem_workspaceWindows.mp mem).2 (is ▸ its)
    rcases List.mem_cons.mp mem with rfl | later
    · intro once
      obtain ⟨before, same, sub⟩ := still.shown
      have held := same.nodup_iff.mp (once.sublist sub)
      rcases presentConflict_cases s updating active conflict with ⟨same, none_read | ⟨other, there, also⟩⟩ |
        ⟨target, there, absent, changed⟩
      · exact readable none_read
      · rw [same] at held
        obtain ⟨among, apart⟩ := mem_workspaceWindows.mp there
        have is := held_unique held inside among shows also
        exact apart (is ▸ its)
      · rw [changed] at held
        have split := (presented_new unique there absent).nodup_iff.mp held
        exact (List.nodup_cons.mp split).1 (List.mem_flatMap.mpr ⟨window, inside, shows⟩)
    · exact ih (first.ids ▸ unique) (first.readable readable) later kept

end Presenting

section Runs

variable {s : PromptSystem}

structure Arranged (s : PromptSystem) : Prop where
  unique : (s.windows.map (fun window => window.id)).Nodup
  fresh : ∀ window ∈ s.windows, window.id.index < s.nextWindow
  once : ∀ window ∈ s.windows, window.conflictIds.Nodup

/-- While a window is open, every conflict that waits for its user is on screen. -/
structure InView (s : PromptSystem) : Prop extends s.Arranged where
  covered : s.windows ≠ [] → ∀ conflict ∈ s.transfers.pendingConflicts, conflict.id ∈ s.shown

theorem Arranged.presented (h : s.Arranged) {updating active : Option WindowId}
    (readable : s.windows ≠ [] → s.workspaceWindows updating ≠ []) :
    (s.presentOrphanedTransferConflicts updating active).InView := by
  have keeps := presented_all h.unique updating active s.transfers.pendingConflicts
  change Presented updating s (s.presentOrphanedTransferConflicts updating active) at keeps
  refine ⟨⟨keeps.ids ▸ h.unique, ?_, keeps.once h.once⟩, ?_⟩
  · intro window mem
    have listed : window.id ∈ s.windows.map (fun window => window.id) := keeps.ids ▸ List.mem_map_of_mem mem
    obtain ⟨old, before, same⟩ := List.mem_map.mp listed
    rw [keeps.nextWindow, ← same]
    exact h.fresh old before
  · intro open_ conflict pending
    rw [keeps.transfers] at pending
    refine presented_shows h.unique (readable fun closed => ?_) pending
    have empty : (s.presentOrphanedTransferConflicts updating active).windows.map (fun window => window.id) = [] := by
      rw [keeps.ids, closed, List.map_nil]
    exact open_ (List.map_eq_nil_iff.mp empty)

theorem workspaceWindows_none (s : PromptSystem) : s.workspaceWindows none = s.windows := by
  simp [workspaceWindows]

theorem InView.retold (h : s.InView) {transfers : TransferStore}
    (fewer : ∀ conflict ∈ transfers.pendingConflicts, conflict ∈ s.transfers.pendingConflicts) :
    ({ s with transfers := transfers } : PromptSystem).InView :=
  ⟨⟨h.unique, h.fresh, h.once⟩, fun open_ conflict pending => h.covered open_ conflict (fewer conflict pending)⟩

theorem Arranged.updateWindow (h : s.Arranged) (id : WindowId) {f : WorkspaceWindow → WorkspaceWindow}
    (same : ∀ window, (f window).id = window.id)
    (fewer : ∀ window, List.Sublist (f window).conflictIds window.conflictIds) : (s.updateWindow id f).Arranged := by
  refine ⟨?_, ?_, ?_⟩
  · exact (updateKey_map (fun window : WorkspaceWindow => window.id) id (fun window => window.id) same s.windows).symm ▸ h.unique
  all_goals
    intro window mem
    obtain ⟨old, before, rfl⟩ := (mem_updateKey _ _ _ h.unique).mp mem
    split_ifs
  · exact (same old).symm ▸ h.fresh old before
  · exact h.fresh old before
  · exact (h.once old before).sublist (fewer old)
  · exact h.once old before

theorem updateWindow_shown {id : WindowId} {f : WorkspaceWindow → WorkspaceWindow}
    (same : ∀ window, (f window).conflictIds = window.conflictIds) :
    (s.updateWindow id f).shown = s.shown := by
  rw [shown, shown, List.flatMap_def, List.flatMap_def]
  exact congrArg List.flatten (updateKey_map _ _ _ same _)

theorem InView.updateWindow (h : s.InView) {id : WindowId} {f : WorkspaceWindow → WorkspaceWindow}
    (same : ∀ window, (f window).id = window.id)
    (kept : ∀ window, (f window).conflictIds = window.conflictIds) : (s.updateWindow id f).InView := by
  refine ⟨h.toArranged.updateWindow id same (fun window => kept window ▸ List.Sublist.refl _), fun open_ conflict pending => ?_⟩
  rw [updateWindow_shown kept]
  refine h.covered (fun closed => open_ ?_) conflict pending
  rw [PromptSystem.updateWindow, closed]
  rfl

theorem addWindow_perm (s : PromptSystem) (slot : Nat) :
    (s.addWindow slot).windows.Perm (({ id := ⟨s.nextWindow⟩ } : WorkspaceWindow) :: s.windows) :=
  List.perm_insertIdx _ _ (by omega)

theorem addWindow_shown (s : PromptSystem) (slot : Nat) : (s.addWindow slot).shown.Perm s.shown :=
  (addWindow_perm s slot).flatMap_right _

theorem Arranged.addWindow (h : s.Arranged) (slot : Nat) : (s.addWindow slot).Arranged := by
  have added := addWindow_perm s slot
  have unique : ((({ id := ⟨s.nextWindow⟩ } : WorkspaceWindow) :: s.windows).map (fun window => window.id)).Nodup := by
    refine List.nodup_cons.mpr ⟨fun mem => ?_, h.unique⟩
    obtain ⟨window, before, same⟩ := List.mem_map.mp mem
    have older := h.fresh window before
    rw [same] at older
    exact Nat.lt_irrefl _ older
  refine ⟨(added.map _).nodup_iff.mpr unique, ?_, ?_⟩
  all_goals
    intro window mem
    rcases List.mem_cons.mp (added.mem_iff.mp mem) with rfl | before
  · exact Nat.lt_succ_self _
  · exact Nat.lt_succ_of_lt (h.fresh window before)
  · exact List.nodup_nil
  · exact h.once window before

theorem addWindow_readable (h : s.Arranged) (slot : Nat) (updating : Option WindowId) :
    (s.addWindow slot).workspaceWindows (updating.filter (fun id => s.windows.any (fun window => window.id = id))) ≠ [] := by
  have there : ({ id := ⟨s.nextWindow⟩ } : WorkspaceWindow) ∈ (s.addWindow slot).windows :=
    (addWindow_perm s slot).mem_iff.mpr List.mem_cons_self
  refine List.ne_nil_of_mem (mem_workspaceWindows.mpr ⟨there, fun is => ?_⟩)
  obtain ⟨-, found⟩ := Option.filter_eq_some_iff.mp is.symm
  obtain ⟨window, mem, same⟩ := List.any_eq_true.mp found
  have older := h.fresh window mem
  rw [of_decide_eq_true same] at older
  exact Nat.lt_irrefl _ older

theorem removeModal_shown (h : s.Arranged) {id : WindowId} {requestId other : ConflictRequestId} (apart : other ≠ requestId)
    (shows : other ∈ s.shown) : other ∈ (s.updateWindow id (WorkspaceWindow.removeModal (.conflict requestId))).shown := by
  obtain ⟨window, inside, its⟩ := List.mem_flatMap.mp shows
  refine List.mem_flatMap.mpr ⟨_, (mem_updateKey _ _ _ h.unique).mpr ⟨window, inside, rfl⟩, ?_⟩
  split_ifs
  · rw [WorkspaceWindow.removeModal_conflictIds]
    refine List.mem_filter.mpr ⟨its, decide_eq_true fun is => apart ?_⟩
    cases is
    rfl
  · exact its

theorem InView.step (h : s.InView) (op : PromptOp) : (s.apply op).InView := by
  cases op with
  | transferEvent event now active =>
    have arranged : ({ s with transfers := (s.transfers.applyEvent event now).1 } : PromptSystem).Arranged :=
      ⟨h.unique, h.fresh, h.once⟩
    change (s.dispatchTransferEvent event now active).InView
    by_cases asked : ∃ prompt, event = .conflict prompt
    · obtain ⟨prompt, rfl⟩ := asked
      exact arranged.presented (by rw [workspaceWindows_none]; exact id)
    · have settles : ∀ conflict ∈ (s.transfers.applyEvent event now).1.pendingConflicts,
        conflict ∈ s.transfers.pendingConflicts := by
        by_cases ends : event.outcome = none
        · rw [TransferStore.applyEvent_conflicts now ends fun prompt is => asked ⟨prompt, is⟩]
          exact fun _ mem => mem
        · exact fun _ mem => (TransferStore.outcome_conflicts now ends).subset mem
      have same : s.dispatchTransferEvent event now active = { s with transfers := (s.transfers.applyEvent event now).1 } := by
        cases event with
        | conflict prompt => exact absurd ⟨prompt, rfl⟩ asked
        | _ => rfl
      rw [same]
      exact h.retold settles
  | markCancelling transferId =>
    refine h.retold fun conflict mem => ?_
    exact TransferStore.editJob_conflicts s.transfers transferId _ ▸ mem
  | clearTerminal => exact h.retold fun conflict mem => mem
  | openWindow slot updating active =>
    exact (h.toArranged.addWindow slot).presented fun _ => addWindow_readable h.toArranged slot updating
  | closeWindow id active =>
    refine Arranged.presented ⟨h.unique.sublist (List.filter_sublist.map _), ?_, ?_⟩
      (by rw [workspaceWindows_none]; exact fun open_ => open_)
    · exact fun window mem => h.fresh window (List.mem_filter.mp mem).1
    · exact fun window mem => h.once window (List.mem_filter.mp mem).1
  | window id op => exact h.updateWindow (fun _ => rfl) fun window => WorkspaceWindow.apply_conflictIds op window.state
  | answerHostKey id requestId =>
    refine h.updateWindow (fun _ => rfl) fun window => ?_
    rw [WorkspaceWindow.removeModal_conflictIds]
    simp
  | answerKeyboardInteractive id requestId =>
    refine h.updateWindow (fun _ => rfl) fun window => ?_
    rw [WorkspaceWindow.removeModal_conflictIds]
    simp
  | resolveTransferConflict id prompt sent =>
    change (s.resolveTransferConflict id prompt sent).InView
    unfold resolveTransferConflict
    split
    · exact h
    split
    · have kept := h.toArranged.updateWindow id (f := WorkspaceWindow.removeModal (.conflict prompt.requestId)) (fun _ => rfl)
        (fun window => WorkspaceWindow.removeModal_conflictIds _ window ▸ List.filter_sublist)
      refine ⟨⟨kept.unique, kept.fresh, kept.once⟩, fun open_ conflict pending => ?_⟩
      obtain ⟨before, other⟩ := List.mem_filter.mp pending
      refine removeModal_shown h.toArranged (of_decide_eq_true other) (h.covered (fun closed => open_ ?_) conflict before)
      rw [PromptSystem.updateWindow, closed]
      rfl
    · exact h

/-- A new window is opened from a window that shows a conflict that waits for its user. -/
def opensOverPrompt (s : PromptSystem) : PromptOp → Bool
  | .openWindow _ (some opener) _ =>
    s.windows.any fun window =>
      window.id = opener && s.transfers.pendingConflicts.any (fun conflict => window.hasTransferConflictModal conflict.id)
  | _ => false

theorem opensOverPrompt_iff {slot : Nat} {updating active : Option WindowId} :
    s.opensOverPrompt (.openWindow slot updating active) = true ↔ ∃ window ∈ s.windows, some window.id = updating ∧
      ∃ conflict ∈ s.transfers.pendingConflicts, conflict.id ∈ window.conflictIds := by
  cases updating <;> simp [opensOverPrompt, WorkspaceWindow.hasTransferConflictModal_iff]

theorem presented_nodup (unique : (s.windows.map (fun window => window.id)).Nodup) (once : s.shown.Nodup)
    (active : Option WindowId) :
    (s.presentOrphanedTransferConflicts none active).shown.Nodup := by
  refine presented_once unique ?_ once
  intro window mem never
  cases never

theorem updateWindow_nodup (once : s.shown.Nodup) {id : WindowId} {f : WorkspaceWindow → WorkspaceWindow}
    (fewer : ∀ window, List.Sublist (f window).conflictIds window.conflictIds) : (s.updateWindow id f).shown.Nodup :=
  once.sublist (held_updateKey_sublist fewer)

theorem openWindow_nodup_iff (h : s.InView) (once : s.shown.Nodup) (slot : Nat) (updating active : Option WindowId) :
    (s.openWorkspaceWindow slot updating active).shown.Nodup ↔ ¬ s.opensOverPrompt (.openWindow slot updating active) = true := by
  have added := addWindow_perm s slot
  have unique := (h.toArranged.addWindow slot).unique
  rw [opensOverPrompt_iff]
  constructor
  · rintro after ⟨window, inside, rfl, conflict, pending, shows⟩
    have opener : (some window.id).filter (fun id => s.windows.any (fun window => window.id = id)) = some window.id :=
      Option.filter_eq_some_iff.mpr ⟨rfl, List.any_eq_true.mpr ⟨window, inside, decide_eq_true rfl⟩⟩
    have readable := addWindow_readable h.toArranged slot (some window.id)
    unfold openWorkspaceWindow at after
    dsimp only at after
    rw [opener] at after readable
    exact presented_twice unique readable pending (added.mem_iff.mpr (List.mem_cons_of_mem _ inside)) rfl shows after
  · intro apart
    refine presented_once unique ?_ ((addWindow_shown s slot).nodup_iff.mpr once)
    intro window mem its conflict pending shows
    rcases List.mem_cons.mp (added.mem_iff.mp mem) with rfl | before
    · cases shows
    · obtain ⟨opened, -⟩ := Option.filter_eq_some_iff.mp its.symm
      exact apart ⟨window, before, opened.symm, conflict, pending, shows⟩

theorem step_nodup_iff (h : s.InView) (once : s.shown.Nodup) (op : PromptOp) :
    (s.apply op).shown.Nodup ↔ ¬ s.opensOverPrompt op = true := by
  have keeps : ∀ window : WorkspaceWindow, ∀ requestId,
    List.Sublist (window.removeModal requestId).conflictIds window.conflictIds :=
    fun window requestId => WorkspaceWindow.removeModal_conflictIds requestId window ▸ List.filter_sublist
  cases op with
  | openWindow slot updating active => exact openWindow_nodup_iff h once slot updating active
  | transferEvent event now active =>
    refine iff_of_true ?_ Bool.false_ne_true
    change (s.dispatchTransferEvent event now active).shown.Nodup
    cases event with
    | conflict prompt =>
      let told : PromptSystem := { s with transfers := (s.transfers.applyEvent (.conflict prompt) now).1 }
      have shown : told.shown.Nodup := once
      exact presented_nodup (s := told) h.unique shown active
    | _ => exact once
  | markCancelling | clearTerminal => exact iff_of_true once Bool.false_ne_true
  | closeWindow id active =>
    refine iff_of_true (presented_nodup ?_ ?_ active) Bool.false_ne_true
    · exact h.unique.sublist (List.filter_sublist.map _)
    · exact once.sublist (held_sublist List.filter_sublist)
  | window id op =>
    refine iff_of_true (updateWindow_nodup once fun window => ?_) Bool.false_ne_true
    change List.Sublist ((window.state.apply op.val).1.modals.filterMap conflictOf) _
    rw [WorkspaceWindow.apply_conflictIds]
    exact List.Sublist.refl _
  | answerHostKey id requestId | answerKeyboardInteractive id requestId =>
    exact iff_of_true (updateWindow_nodup once fun window => keeps window _) Bool.false_ne_true
  | resolveTransferConflict id prompt sent =>
    refine iff_of_true ?_ Bool.false_ne_true
    change (s.resolveTransferConflict id prompt sent).shown.Nodup
    unfold resolveTransferConflict
    split
    · exact once
    · split
      · exact updateWindow_nodup once fun window => keeps window _
      · exact once

theorem conflicts_stay_in_view (ops : List PromptOp) :
    let s := machine.run {} ops
    (s.windows ≠ [] → ∀ conflict ∈ s.transfers.pendingConflicts,
      ∃ window ∈ s.windows, window.hasTransferConflictModal conflict.id = true) ∧
    (∀ window ∈ s.windows, window.conflictIds.Nodup) ∧
    ((∀ k, (machine.run {} (ops.take k)).shown.Nodup) ↔ machine.Admissible (fun s op => ¬ s.opensOverPrompt op = true) {} ops) := by
  intro s
  have start : InView {} := by
    refine ⟨⟨List.nodup_nil, ?_, ?_⟩, fun never => absurd rfl never⟩
    all_goals
      intro window never
      cases never
  have inView : s.InView := machine.run_invariant (fun _ op h => h.step op) start ops
  refine ⟨fun open_ conflict pending => ?_, inView.once, ?_⟩
  · obtain ⟨window, mem, shows⟩ := List.mem_flatMap.mp (inView.covered open_ conflict pending)
    exact ⟨window, mem, WorkspaceWindow.hasTransferConflictModal_iff.mpr shows⟩
  · exact machine.invariant_iff_admissible (I := fun s => s.shown.Nodup) (V := InView) (fun _ op _ h => h.step op)
      (fun _ op _ h once => step_nodup_iff h once op) start List.nodup_nil

/-- The window that is being updated is asked in vain, and the conflict it shows is presented by the new one as well. -/
example : (machine.run {} [.openWindow 0 none none,
    .transferEvent (.conflict ⟨⟨7⟩, ⟨1⟩, ⟨2⟩, .local (.new "/a"), .remote (.new "/b"), none, none⟩) (.fromSecsSinceEpoch 1) none,
    .openWindow 1 (some ⟨0⟩) none]).shown = [⟨7⟩, ⟨7⟩] := by decide

end Runs

end PromptSystem

end MacSftp.ConflictPrompts
