import MacSftp.Lib.Recency
import MacSftp.Tabs.Store

namespace MacSftp.Tabs

open Lib

inductive TabOp
  | openTab (tab : TabState)
  | activateTab (tabId : TabId)
  | closeTab (tabId : TabId)
  deriving DecidableEq, Repr

namespace TabStore

def apply (store : TabStore) : TabOp → TabStore
  | .openTab tab => store.openTab tab
  | .activateTab tabId => (store.activateTab tabId).1
  | .closeTab tabId => (store.closeTab tabId).1

def machine : Machine TabStore TabOp Unit where
  step store op := (store.apply op, ())

/-- Tabs are opened under ids that no open tab has. -/
def OpensNew (store : TabStore) : TabOp → Prop
  | .openTab tab => tab.id ∉ store.ids
  | .activateTab _ | .closeTab _ => True

/-- The three views of the open tabs agree. -/
structure Consistent (store : TabStore) : Prop where
  once : store.recentTabs.Nodup
  permuted : store.recentTabs.Perm store.ids
  idle : store.activeTabId = none ↔ store.tabs = []
  active : ∀ tabId, store.activeTabId = some tabId → tabId ∈ store.ids

/-- The active tab has come to the front, and the other open tabs stand as before. -/
structure Fronted (before after : TabStore) : Prop where
  front : after.recentTabs.head? = after.activeTabId
  others : after.recentTabs.filter (fun tabId => some tabId ≠ after.activeTabId) =
    before.recentTabs.filter (fun tabId => tabId ∈ after.ids ∧ some tabId ≠ after.activeTabId)

theorem ids_ne_nil {store : TabStore} {tabId : TabId} (mem : tabId ∈ store.ids) : store.tabs ≠ [] := by
  intro none
  rw [ids, none] at mem
  cases mem

theorem Consistent.nodup {store : TabStore} (c : Consistent store) : store.ids.Nodup := c.permuted.nodup_iff.mp c.once

theorem consistent_openTab {store : TabStore} (c : Consistent store) {tab : TabState} (new : tab.id ∉ store.ids) :
    Consistent (store.openTab tab) := by
  have fresh : tab.id ∉ store.recentTabs := fun mem => new (c.permuted.mem_iff.mp mem)
  have opened := ids_openTab store tab
  constructor
  · exact toFront_nodup tab.id c.once
  · rw [opened]
    change (toFront tab.id store.recentTabs).Perm (store.ids ++ [tab.id])
    rw [toFront_fresh fresh]
    exact (c.permuted.cons tab.id).trans (List.perm_append_singleton tab.id store.ids).symm
  · cases active : store.activeTabId <;> simp [openTab, touchRecentTab, active]
  · intro tabId active
    rw [opened]
    apply List.mem_append.mpr
    cases was : store.activeTabId with
    | none =>
      right
      simp only [openTab, touchRecentTab, was, Option.isNone_none, if_true, Option.some.injEq] at active
      simp [active]
    | some current =>
      left
      simp only [openTab, touchRecentTab, was, Option.isNone_some, Bool.false_eq_true, if_false] at active
      exact c.active tabId (was.trans active)

theorem consistent_touch (store : TabStore) (once : store.recentTabs.Nodup) (permuted : store.recentTabs.Perm store.ids)
    {tabId : TabId} (active : store.activeTabId = some tabId) (mem : tabId ∈ store.ids) :
    Consistent (store.touchRecentTab tabId) := by
  constructor
  · exact toFront_nodup tabId once
  · exact toFront_perm once permuted mem
  · have some : (store.touchRecentTab tabId).activeTabId ≠ none := fun none => by cases active.symm.trans none
    exact ⟨fun none => absurd none some, fun none => absurd none (ids_ne_nil mem)⟩
  · intro other is
    cases active.symm.trans is
    exact mem

theorem consistent_activateTab {store : TabStore} (c : Consistent store) (tabId : TabId) :
    Consistent (store.activateTab tabId).1 := by
  unfold activateTab
  cases found : store.findTab tabId with
  | none => exact c
  | some tab => exact consistent_touch { store with activeTabId := some tabId } c.once c.permuted rfl (findTab_isSome found)

theorem consistent_withoutTab {store : TabStore} (c : Consistent store) {tabId : TabId} (mem : tabId ∈ store.ids) :
    Consistent (store.withoutTab tabId) := by
  constructor
  · exact c.once.filter _
  · rw [ids_withoutTab c.nodup]
    exact c.permuted.filter _
  · by_cases current : store.activeTabId = some tabId
    · simp [withoutTab, current]
    · -- the tab that stays active stays open
      obtain ⟨active, is⟩ : ∃ active, store.activeTabId = some active :=
        Option.ne_none_iff_exists'.mp fun none => ids_ne_nil mem (c.idle.mp none)
      have other : active ≠ tabId := fun same => current (is.trans (congrArg some same))
      have stays : active ∈ (store.withoutTab tabId).ids := (mem_withoutTab c.nodup).mpr ⟨c.active active is, other⟩
      have same : (store.withoutTab tabId).activeTabId = some active := (if_neg current).trans is
      rw [same]
      exact ⟨fun none => (by cases none), fun none => absurd none (ids_ne_nil stays)⟩
  · intro active is
    by_cases current : store.activeTabId = some tabId
    · have first : (store.withoutTab tabId).tabs.head?.map TabState.id = some active := (if_pos current).symm.trans is
      obtain ⟨tab, head, rfl⟩ := Option.map_eq_some_iff.mp first
      exact List.mem_map.mpr ⟨tab, List.mem_of_mem_head? head, rfl⟩
    · have was : store.activeTabId = some active := (if_neg current).symm.trans is
      have other : active ≠ tabId := fun same => current (was.trans (congrArg some same))
      exact (mem_withoutTab c.nodup).mpr ⟨c.active active was, other⟩

theorem consistent_closeTab {store : TabStore} (c : Consistent store) (tabId : TabId) :
    Consistent (store.closeTab tabId).1 := by
  unfold closeTab
  cases found : store.findTab tabId with
  | none => exact c
  | some tab =>
    have rest := consistent_withoutTab c (findTab_isSome found)
    cases active : (store.withoutTab tabId).activeTabId with
    | none => simpa [active] using rest
    | some next => simpa [active] using consistent_touch _ rest.once rest.permuted active (rest.active next active)

theorem consistent_apply {store : TabStore} (c : Consistent store) (op : TabOp) (ok : OpensNew store op) :
    Consistent (store.apply op) := by
  cases op with
  | openTab tab => exact consistent_openTab c ok
  | activateTab tabId => exact consistent_activateTab c tabId
  | closeTab tabId => exact consistent_closeTab c tabId

theorem consistent_run (ops : List TabOp) (legal : machine.Admissible OpensNew {} ops) : Consistent (machine.run {} ops) := by
  apply machine.admissible_invariant (I := Consistent) ?_ ?_ ops legal
  · exact fun store op ok c => consistent_apply c op ok
  · exact ⟨List.nodup_nil, List.Perm.refl [], by simp, fun tabId active => by cases active⟩

theorem fronted_touch {before store : TabStore} {tabId : TabId} (active : store.activeTabId = some tabId)
    (stand : store.recentTabs.filter (· ≠ tabId) = before.recentTabs.filter (fun other => other ∈ store.ids ∧ other ≠ tabId)) :
    Fronted before (store.touchRecentTab tabId) := by
  have is : (store.touchRecentTab tabId).activeTabId = some tabId := active
  constructor
  · rw [is]; rfl
  · rw [is]
    simp only [ne_eq, Option.some.injEq]
    exact (toFront_others tabId store.recentTabs).trans stand

theorem fronted_activateTab {store : TabStore} (c : Consistent store) {tabId : TabId}
    (done : (store.activateTab tabId).2 = true) : Fronted store (store.activateTab tabId).1 := by
  unfold activateTab at done ⊢
  cases found : store.findTab tabId with
  | none => simp [found] at done
  | some tab =>
    apply fronted_touch rfl
    apply List.filter_congr
    intro other mem
    have opened : other ∈ ({ store with activeTabId := some tabId } : TabStore).ids := c.permuted.mem_iff.mp mem
    simp [opened]

theorem fronted_closeTab {store : TabStore} (c : Consistent store) {tabId : TabId}
    (done : (store.closeTab tabId).2 ≠ none) : Fronted store (store.closeTab tabId).1 := by
  unfold closeTab at done ⊢
  cases found : store.findTab tabId with
  | none => simp [found] at done
  | some tab =>
    have rest := consistent_withoutTab c (findTab_isSome found)
    cases active : (store.withoutTab tabId).activeTabId with
    | none =>
      have gone : (store.withoutTab tabId).ids = [] := by rw [ids, rest.idle.mp active]; rfl
      have empty : (store.withoutTab tabId).recentTabs = [] := by
        apply List.Perm.eq_nil
        rw [← gone]
        exact rest.permuted
      constructor
      · simp [active, empty]
      · simp [active, gone, empty]
    | some next =>
      have fronted : Fronted store ((store.withoutTab tabId).touchRecentTab next) := by
        apply fronted_touch active
        change (store.recentTabs.filter (· ≠ tabId)).filter (· ≠ next) = _
        rw [List.filter_filter]
        apply List.filter_congr
        intro other mem
        have opened : other ∈ store.ids := c.permuted.mem_iff.mp mem
        simp [mem_withoutTab c.nodup, opened, Bool.and_comm]
      simpa [active] using fronted

theorem closeTab_unknown {store : TabStore} {tabId : TabId} (unknown : tabId ∉ store.ids) :
    store.closeTab tabId = (store, none) := by
  rw [closeTab, findTab_eq_none.mpr unknown]

theorem activateTab_open {store : TabStore} {tabId : TabId} :
    (store.activateTab tabId).2 = true ↔ tabId ∈ store.ids := by
  rw [activateTab, ← not_iff_not, ← findTab_eq_none]
  cases store.findTab tabId <;> simp

theorem activateTab_active {store : TabStore} {tabId : TabId} (opened : tabId ∈ store.ids) :
    (store.activateTab tabId).1.activeTabId = some tabId := by
  have done := activateTab_open.mpr opened
  rw [activateTab] at done ⊢
  cases found : store.findTab tabId with
  | none => simp [found] at done
  | some tab => rfl

theorem closeTab_open {store : TabStore} {tabId : TabId} : (store.closeTab tabId).2 ≠ none ↔ tabId ∈ store.ids := by
  rw [closeTab, ← not_iff_not, ← findTab_eq_none]
  cases store.findTab tabId with
  | none => simp
  | some tab =>
    dsimp only
    split <;> simp

/-- The tab store in every run: the recency list is the open tabs, each once, one of them is active, the open tabs are those
that can be activated or closed, and doing so only brings the active one to the front. -/
theorem tab_views_agree (ops : List TabOp) (legal : machine.Admissible OpensNew {} ops) :
    Consistent (machine.run {} ops) ∧ ∀ tabId,
      (((machine.run {} ops).activateTab tabId).2 = true ↔ tabId ∈ (machine.run {} ops).ids) ∧
      (tabId ∈ (machine.run {} ops).ids → ((machine.run {} ops).activateTab tabId).1.activeTabId = some tabId) ∧
      (((machine.run {} ops).closeTab tabId).2 ≠ none ↔ tabId ∈ (machine.run {} ops).ids) ∧
      (((machine.run {} ops).activateTab tabId).2 = true →
        Fronted (machine.run {} ops) ((machine.run {} ops).activateTab tabId).1) ∧
      (((machine.run {} ops).closeTab tabId).2 ≠ none →
        Fronted (machine.run {} ops) ((machine.run {} ops).closeTab tabId).1) ∧
      (tabId ∉ (machine.run {} ops).ids → (machine.run {} ops).closeTab tabId = (machine.run {} ops, none)) := by
  have c := consistent_run ops legal
  refine ⟨c, fun tabId => ⟨activateTab_open, activateTab_active, closeTab_open, ?_⟩⟩
  exact ⟨fronted_activateTab c, fronted_closeTab c, closeTab_unknown⟩

def threeTabs : List TabOp :=
  [.openTab (.new ⟨1⟩ "host"), .openTab (.new ⟨2⟩ "host"), .openTab (.new ⟨3⟩ "host"), .activateTab ⟨2⟩, .closeTab ⟨2⟩]

theorem threeTabs_agree : Consistent (machine.run {} threeTabs) ∧ (machine.run {} threeTabs).recentTabs = [⟨1⟩, ⟨3⟩] :=
  ⟨(tab_views_agree threeTabs (by simp only [threeTabs, Machine.Admissible, OpensNew]; decide)).1, by decide⟩

end TabStore

end MacSftp.Tabs
