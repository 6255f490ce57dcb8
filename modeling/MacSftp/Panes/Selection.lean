import MacSftp.Panes.Workspace

namespace MacSftp.Panes

open Lib Tabs

/-- The filters that apply when a tab is shown: other tabs are shown without any. -/
def Workspace.queryFor (s : Workspace) (tabId : TabId) (side : PaneSide) : List Char :=
  if s.tabs.activeTabId = some tabId then s.filterQuery side else []

section Shown

variable (folding : CaseFolding)

/-- Every listed entry that is selected passes the filters. -/
def ShownUnder (panes : TabPanes) (showHidden : Bool) (query : PaneSide → List Char) : Prop :=
  ∀ side, ∀ entry ∈ panes.entries side, entryPath side entry ∈ panes.selectedPaths →
    visibleName folding showHidden (query side) entry.name = true

def SelectionShown (s : Workspace) : Prop := ∀ tabId, ShownUnder folding (s.panes tabId) s.showHidden (s.queryFor tabId)

/-- No selected entry disappears from the list: not by a filter, not by hiding dotfiles, not by closing the tab in front
of its own under the filters of the closed one, and not by coming back in a listing that the filters apply to. -/
def HidesNothing (s : Workspace) : PaneOp → Prop
  | .filterChanged side value => (s.filter side).explicitFocus = true → ∀ tabId, s.tabs.activeTabId = some tabId →
      ShownUnder folding (s.panes tabId) s.showHidden (Function.update s.filterQuery side value)
  | .setShowHidden value => ∀ tabId, ShownUnder folding (s.panes tabId) value (s.queryFor tabId)
  | .closeTabById tabId => s.tabs.activeTabId = some tabId → ∀ next, (s.tabs.closeTab tabId).1.activeTabId = some next →
      ShownUnder folding (s.panes next) s.showHidden s.filterQuery
  | .localDirectoryRead tabId requestEpoch path (some listing) =>
      (s.panes tabId).local_.readEpoch = requestEpoch → (s.panes tabId).local_.path = some path →
        ∀ entry ∈ listing.entries, entryPath .local entry ∈ (s.panes tabId).selectedPaths →
          visibleName folding s.showHidden (s.queryFor tabId .local) entry.name = true
  | _ => True

end Shown

section Steps

variable {folding : CaseFolding} {s : Workspace}

theorem visibleName_cleared {showHidden : Bool} {query name : List Char}
    (shown : visibleName folding showHidden query name = true) :
    visibleName folding showHidden [] name = true := by
  unfold visibleName at shown ⊢
  rw [Bool.and_eq_true] at shown
  rw [queryMatches_empty, shown.1]
  rfl

/-- What is listed and selected was so before. -/
def Narrower (after before : TabPanes) : Prop :=
  ∀ side, ∀ entry ∈ after.entries side, entryPath side entry ∈ after.selectedPaths →
    entry ∈ before.entries side ∧ entryPath side entry ∈ before.selectedPaths

theorem narrower_refl (panes : TabPanes) : Narrower panes panes := fun _ _ listed selected => ⟨listed, selected⟩

theorem narrower_unselected {after before : TabPanes} (none_ : after.selectedPaths = []) : Narrower after before := by
  intro side entry _ selected
  rw [none_] at selected
  cases selected

theorem shown_of_narrower {after : Workspace} (shown : SelectionShown folding s) (hidden : after.showHidden = s.showHidden)
    (narrower : ∀ tabId, Narrower (after.panes tabId) (s.panes tabId))
    (query : ∀ tabId side, after.queryFor tabId side = s.queryFor tabId side ∨ after.queryFor tabId side = []) :
    SelectionShown folding after := by
  intro tabId side entry listed selected
  obtain ⟨was, wasSelected⟩ := narrower tabId side entry listed selected
  have before := shown tabId side entry was wasSelected
  rw [hidden]
  rcases query tabId side with same | none_
  · rw [same]
    exact before
  · rw [none_]
    exact visibleName_cleared before

theorem narrower_updatePanes {tabId : TabId} {f : TabPanes → TabPanes} (narrower : Narrower (f (s.panes tabId)) (s.panes tabId))
    (other : TabId) : Narrower ((s.updatePanes tabId f).panes other) (s.panes other) := by
  change Narrower (Function.update s.panes tabId (f (s.panes tabId)) other) (s.panes other)
  by_cases same : other = tabId
  · subst same
    rw [Function.update_self]
    exact narrower
  · rw [Function.update_of_ne same]
    exact narrower_refl _

theorem shown_updatePanes {tabId : TabId} {f : TabPanes → TabPanes} (shown : SelectionShown folding s)
    (narrower : Narrower (f (s.panes tabId)) (s.panes tabId)) : SelectionShown folding (s.updatePanes tabId f) :=
  shown_of_narrower shown rfl (narrower_updatePanes narrower) fun _ _ => .inl rfl

theorem query_clearFilter (side other : PaneSide) (tabId : TabId) :
    (s.clearFilter side).queryFor tabId other = s.queryFor tabId other ∨ (s.clearFilter side).queryFor tabId other = [] := by
  unfold Workspace.queryFor Workspace.clearFilter
  cases side <;> cases other
  · exact .inr (ite_self _)
  · exact .inl rfl
  · exact .inl rfl
  · exact .inr (ite_self _)

theorem shown_clearFilter (shown : SelectionShown folding s) (side : PaneSide) : SelectionShown folding (s.clearFilter side) := by
  apply shown_of_narrower shown
  · cases side <;> rfl
  · intro tabId
    cases side <;> exact narrower_refl _
  · intro tabId other
    exact query_clearFilter side other tabId

theorem query_clearFilters (tabId : TabId) (side : PaneSide) : s.clearFilters.queryFor tabId side = [] := by
  cases side <;> exact ite_self _

end Steps

section Selecting

variable {folding : CaseFolding} {s : Workspace}

/-- A path that the filters show in the tab in front. -/
def VisiblePath (folding : CaseFolding) (s : Workspace) (path : EntryPath) : Prop :=
  ∃ panes, s.activePanes = some panes ∧ ∃ side, ∃ entry ∈ panes.entries side,
    entryPath side entry = path ∧ visibleName folding s.showHidden (s.filterQuery side) entry.name = true

theorem entryPath_inj {side other : PaneSide} {a b : FileEntry} (same : entryPath side a = entryPath other b) :
    side = other ∧ a.path = b.path := by
  cases side <;> cases other
  · exact ⟨rfl, congrArg LocalPath.chars (EntryPath.local.inj same)⟩
  · cases same
  · cases same
  · exact ⟨rfl, congrArg RemotePath.chars (EntryPath.remote.inj same)⟩

theorem shown_select {paths : List EntryPath} (shown : SelectionShown folding s)
    (visible : ∀ path ∈ paths, path ∈ s.selectedPaths ∨ VisiblePath folding s path) : SelectionShown folding (s.select paths) := by
  unfold Workspace.select
  cases active : s.tabs.activeTabId with
  | none => exact shown
  | some tabId =>
    have front : s.activePanes = some (s.panes tabId) := by rw [Workspace.activePanes, active]; rfl
    intro other side entry listed selected
    change visibleName folding s.showHidden (s.queryFor other side) entry.name = true
    by_cases same : other = tabId
    · subst same
      change entry ∈ (Function.update s.panes other _ other).entries side at listed
      change entryPath side entry ∈ (Function.update s.panes other _ other).selectedPaths at selected
      rw [Function.update_self] at listed selected
      have query : s.queryFor other side = s.filterQuery side := if_pos active
      rcases visible _ selected with old | ⟨panes, front', side', entry', listed', path, passes⟩
      · rw [Workspace.selectedPaths, front] at old
        exact shown other side entry listed old
      · cases front.symm.trans front'
        obtain ⟨rfl, samePath⟩ := entryPath_inj path
        have name : entry'.name = entry.name := ((s.panes other).pane side').listing.named entry' listed' entry listed samePath
        rw [query, ← name]
        exact passes
    · change entry ∈ (Function.update s.panes tabId _ other).entries side at listed
      change entryPath side entry ∈ (Function.update s.panes tabId _ other).selectedPaths at selected
      rw [Function.update_of_ne same] at listed selected
      exact shown other side entry listed selected

theorem names_at {panes : TabPanes} {side : PaneSide} {index : Nat} {name : List Char}
    (at_ : (panes.names side)[index]? = some name) : ∃ entry, (panes.entries side)[index]? = some entry ∧ entry.name = name := by
  rw [TabPanes.names, List.getElem?_map] at at_
  exact Option.map_eq_some_iff.mp at_

theorem visible_at {panes : TabPanes} {side : PaneSide} {index : Nat} {name : List Char} {path : EntryPath}
    (front : s.activePanes = some panes) (at_ : (panes.names side)[index]? = some name)
    (passes : visibleName folding s.showHidden (s.filterQuery side) name = true)
    (stored : s.entryPathAtStoredIndex side index = some path) : VisiblePath folding s path := by
  obtain ⟨entry, found, rfl⟩ := names_at at_
  rw [Workspace.entryPathAtStoredIndex, front, Option.bind_some, found] at stored
  cases stored
  exact ⟨panes, front, side, entry, List.mem_of_getElem? found, rfl, passes⟩

theorem entryPathAt_visible {side : PaneSide} {visibleIndex : Nat} {path : EntryPath}
    (found : s.entryPathAt folding side visibleIndex = some path) : VisiblePath folding s path := by
  obtain ⟨panes, front, found⟩ := Option.bind_eq_some_iff.mp found
  obtain ⟨index, real, stored⟩ := Option.bind_eq_some_iff.mp found
  obtain ⟨name, at_, passes⟩ := realIndexAt_visible real
  exact visible_at front at_ passes stored

theorem stored_visible {side : PaneSide} {index : Nat} {path : EntryPath} (row : index ∈ s.visibleIndices folding side)
    (stored : s.entryPathAtStoredIndex side index = some path) : VisiblePath folding s path := by
  unfold Workspace.visibleIndices at row
  cases front : s.activePanes with
  | none =>
    rw [front] at row
    cases row
  | some panes =>
    rw [front] at row
    obtain ⟨name, at_, passes⟩ := mem_visibleIndices.mp row
    exact visible_at front at_ passes stored

theorem rows_visible {side : PaneSide} {rows : List Nat} (sub : ∀ row ∈ rows, row ∈ s.visibleIndices folding side) :
    ∀ path ∈ rows.filterMap (s.entryPathAtStoredIndex side), path ∈ s.selectedPaths ∨ VisiblePath folding s path := by
  intro path mem
  obtain ⟨row, inside, stored⟩ := List.mem_filterMap.mp mem
  exact .inr (stored_visible (sub row inside) stored)

theorem shown_selectIndex (shown : SelectionShown folding s) (side : PaneSide) (visibleIndex : Nat) :
    SelectionShown folding (s.selectIndex folding side visibleIndex) := by
  unfold Workspace.selectIndex
  cases found : s.entryPathAt folding side visibleIndex with
  | none => exact shown
  | some path =>
    refine shown_select (s := { s with selectionAnchor := some path }) shown fun other mem => .inr ?_
    obtain rfl := List.mem_singleton.mp mem
    exact entryPathAt_visible found

theorem shown_moveSelection (shown : SelectionShown folding s) (side : PaneSide) (offset : Int) :
    SelectionShown folding (s.moveSelection folding side offset) := by
  dsimp only [Workspace.moveSelection]
  by_cases empty : s.entryCount folding side = 0
  · rw [if_pos empty]
    exact shown
  · rw [if_neg empty]
    exact shown_selectIndex shown side _

theorem shown_extendSelectionTo (shown : SelectionShown folding s) (side : PaneSide) (visibleIndex : Nat) :
    SelectionShown folding (s.extendSelectionTo folding side visibleIndex) := by
  dsimp only [Workspace.extendSelectionTo]
  by_cases empty : s.visibleIndices folding side = []
  · rw [if_pos empty]
    exact shown
  · rw [if_neg empty]
    refine shown_select (s := { s with selectionAnchor := _ }) shown ?_
    apply rows_visible
    intro row inside
    exact List.mem_of_mem_take (List.mem_of_mem_drop inside)

theorem shown_moveSelectionExtend (shown : SelectionShown folding s) (side : PaneSide) (offset : Int) :
    SelectionShown folding (s.moveSelectionExtend folding side offset) := by
  dsimp only [Workspace.moveSelectionExtend]
  by_cases empty : s.entryCount folding side = 0
  · rw [if_pos empty]
    exact shown
  · rw [if_neg empty]
    exact shown_extendSelectionTo shown side _

theorem shown_selectAllVisible (shown : SelectionShown folding s) (side : PaneSide) :
    SelectionShown folding (s.selectAllVisible folding side) :=
  shown_select (s := { s with selectionAnchor := _ }) shown (rows_visible fun _ inside => inside)

theorem shown_pageSelection (shown : SelectionShown folding s) (side : PaneSide) (direction : Int) :
    SelectionShown folding (s.pageSelection folding side direction) := by
  dsimp only [Workspace.pageSelection]
  by_cases empty : s.entryCount folding side = 0
  · rw [if_pos empty]
    exact shown
  · rw [if_neg empty]
    exact shown_selectIndex shown side _

theorem shown_toggleSelectionAt (shown : SelectionShown folding s) (side : PaneSide) (visibleIndex : Nat) :
    SelectionShown folding (s.toggleSelectionAt folding side visibleIndex) := by
  unfold Workspace.toggleSelectionAt
  cases found : s.entryPathAt folding side visibleIndex with
  | none => exact shown
  | some path =>
    refine shown_select (s := { s with selectionAnchor := some path }) shown fun other mem => ?_
    split at mem
    · exact .inl (List.mem_of_mem_erase mem)
    · rcases List.mem_append.mp mem with old | new
      · exact .inl old
      · obtain rfl := List.mem_singleton.mp new
        exact .inr (entryPathAt_visible found)

theorem shown_jumpToTypeSelectMatch (shown : SelectionShown folding s) (side : PaneSide) (typed : List Char) :
    SelectionShown folding (s.jumpToTypeSelectMatch folding side typed) := by
  unfold Workspace.jumpToTypeSelectMatch
  dsimp only
  split
  · exact shown_selectIndex shown side _
  · exact shown

end Selecting

section Changing

variable {folding : CaseFolding} {s : Workspace}

theorem shown_openFilterPane (shown : SelectionShown folding s) : SelectionShown folding s.openFilterPane := by
  unfold Workspace.openFilterPane
  cases s.focusedSide <;>
    exact shown_of_narrower shown rfl (fun _ => narrower_refl _) fun _ side => by cases side <;> exact .inl rfl

theorem filterQuery_setFilter (side : PaneSide) (filter : PaneFilter) :
    (s.setFilter side filter).filterQuery = Function.update s.filterQuery side filter.query := by
  funext other
  cases side <;> cases other <;> rfl

theorem shown_filterChanged (shown : SelectionShown folding s) {side : PaneSide} {value : List Char}
    (hides : HidesNothing folding s (.filterChanged side value)) : SelectionShown folding (s.filterChanged side value) := by
  unfold Workspace.filterChanged
  split
  case isFalse => exact shown
  case isTrue explicit =>
    intro tabId
    have panes : (s.setFilter side { s.filter side with query := value }).panes = s.panes := by cases side <;> rfl
    have hidden : (s.setFilter side { s.filter side with query := value }).showHidden = s.showHidden := by cases side <;> rfl
    have tabs : (s.setFilter side { s.filter side with query := value }).tabs = s.tabs := by cases side <;> rfl
    rw [panes, hidden]
    intro other entry listed selected
    unfold Workspace.queryFor
    rw [tabs, filterQuery_setFilter]
    split_ifs with active
    · exact hides explicit tabId active other entry listed selected
    · have before := shown tabId other entry listed selected
      rw [Workspace.queryFor, if_neg active] at before
      exact before

theorem narrower_sorted (panes : TabPanes) (sort : FileSort) :
    Narrower
      { panes with
        sort := sort
        local_ := { panes.local_ with listing := panes.local_.listing.sorted folding sort }
        remote := { panes.remote with listing := panes.remote.listing.sorted folding sort } } panes := by
  intro side entry listed selected
  cases side
  · exact ⟨mem_sortEntries.mp listed, selected⟩
  · exact ⟨mem_sortEntries.mp listed, selected⟩

theorem shown_setSort (shown : SelectionShown folding s) (field : FileSortField) (direction : SortDirection) :
    SelectionShown folding (s.setSort folding field direction) := by
  unfold Workspace.setSort
  cases s.tabs.activeTabId with
  | none => exact shown
  | some tabId =>
    dsimp only
    split_ifs
    · exact shown
    · exact shown_updatePanes shown (narrower_sorted _ _)

theorem shown_readLocalDirectory (shown : SelectionShown folding s) (tabId : TabId) :
    SelectionShown folding (s.readLocalDirectory tabId) := by
  unfold Workspace.readLocalDirectory
  cases s.tabs.findTab tabId with
  | none => exact shown
  | some tab => exact shown_updatePanes shown fun side _ listed selected => by cases side <;> exact ⟨listed, selected⟩

theorem shown_setLocalPath (shown : SelectionShown folding s) (path : List Char) :
    SelectionShown folding (s.setLocalPath path) := by
  unfold Workspace.setLocalPath
  cases s.tabs.activeTabId with
  | none => exact shown
  | some tabId => exact shown_readLocalDirectory (shown_updatePanes shown (narrower_unselected rfl)) tabId

theorem shown_readRemoteDirectory (shown : SelectionShown folding s) (tabId : TabId) (path : List Char) (preserveView sent : Bool) :
    SelectionShown folding (s.readRemoteDirectory tabId path preserveView sent) := by
  unfold Workspace.readRemoteDirectory
  split
  case isFalse => exact shown
  case isTrue =>
    cases s.tabs.findTab tabId with
    | none => exact shown
    | some tab =>
      apply shown_updatePanes shown
      cases preserveView
      · exact narrower_unselected rfl
      · intro side _ listed selected
        cases side <;> exact ⟨listed, selected⟩

theorem shown_remoteDirLoaded (shown : SelectionShown folding s) (tabId : TabId) (path : List Char) (listing : Listing) :
    SelectionShown folding (s.remoteDirLoaded folding tabId path listing) := by
  unfold Workspace.remoteDirLoaded
  cases s.tabs.findTab tabId with
  | none => exact shown
  | some tab =>
    dsimp only
    split_ifs
    · exact shown_updatePanes shown (narrower_unselected rfl)
    · exact shown

theorem shown_localDirectoryRead (shown : SelectionShown folding s) {tabId : TabId} {requestEpoch : Nat} {path : List Char}
    {result : Option Listing} (hides : HidesNothing folding s (.localDirectoryRead tabId requestEpoch path result)) :
    SelectionShown folding (s.localDirectoryRead folding tabId requestEpoch path result) := by
  unfold Workspace.localDirectoryRead
  cases s.tabs.findTab tabId with
  | none => exact shown
  | some tab =>
    dsimp only
    split_ifs with awaited
    case neg => exact shown
    case pos =>
      intro other side entry listed selected
      change entry ∈ (Function.update s.panes tabId _ other).entries side at listed
      change entryPath side entry ∈ (Function.update s.panes tabId _ other).selectedPaths at selected
      change visibleName folding s.showHidden (s.queryFor other side) entry.name = true
      by_cases same : other = tabId
      · subst same
        rw [Function.update_self] at listed selected
        cases side with
        | remote => exact shown other .remote entry listed selected
        | «local» =>
          cases result with
          | none => cases listed
          | some listing => exact hides awaited.1 awaited.2 entry (mem_sortEntries.mp listed) selected
      · rw [Function.update_of_ne same] at listed selected
        exact shown other side entry listed selected

theorem shown_navigatePaneLocal (shown : SelectionShown folding s) (target : List Char) :
    SelectionShown folding (s.navigatePaneLocal target) := by
  unfold Workspace.navigatePaneLocal
  cases s.tabs.activeTabId with
  | none => exact shown
  | some tabId => exact shown_clearFilter (shown_setLocalPath shown target) .local

theorem shown_navigatePaneRemote (shown : SelectionShown folding s) (target : List Char) (ofHistory sent : Bool) :
    SelectionShown folding (s.navigatePaneRemote target ofHistory sent) := by
  unfold Workspace.navigatePaneRemote
  cases s.tabs.activeTabId with
  | none => exact shown
  | some tabId =>
    have read := shown_readRemoteDirectory shown tabId target false sent
    dsimp only
    split
    · split
      · exact read
      · exact shown_clearFilter read .remote
    · exact shown

theorem shown_refreshFocusedPane (shown : SelectionShown folding s) (sent : Bool) :
    SelectionShown folding (s.refreshFocusedPane sent) := by
  unfold Workspace.refreshFocusedPane
  cases s.tabs.activeTabId with
  | none => exact shown
  | some tabId =>
    dsimp only
    cases s.focusedSide with
    | «local» =>
      cases (s.panes tabId).local_.path with
      | none => exact shown
      | some path => exact shown_setLocalPath shown path
    | remote =>
      cases (s.panes tabId).remote.path with
      | none => exact shown
      | some path => exact shown_readRemoteDirectory shown tabId path false sent

end Changing

section Switching

variable {folding : CaseFolding} {s : Workspace}

theorem narrower_readLocalDirectory (tabId other : TabId) :
    Narrower ((s.readLocalDirectory tabId).panes other) (s.panes other) := by
  unfold Workspace.readLocalDirectory
  cases s.tabs.findTab tabId with
  | none => exact narrower_refl _
  | some tab => exact narrower_updatePanes (fun side _ listed selected => by cases side <;> exact ⟨listed, selected⟩) other

theorem narrower_put {panes : TabPanes} (none_ : panes.selectedPaths = []) (tabId other : TabId) :
    Narrower (Function.update s.panes tabId panes other) (s.panes other) := by
  by_cases same : other = tabId
  · subst same
    rw [Function.update_self]
    exact narrower_unselected none_
  · rw [Function.update_of_ne same]
    exact narrower_refl _

theorem showHidden_readLocalDirectory (tabId : TabId) : (s.readLocalDirectory tabId).showHidden = s.showHidden := by
  unfold Workspace.readLocalDirectory
  cases s.tabs.findTab tabId <;> rfl

theorem shown_openNewTab (shown : SelectionShown folding s) (tabId : TabId) (title : String) (path : List Char) :
    SelectionShown folding (s.openNewTab tabId title path) := by
  apply shown_of_narrower shown
  · exact showHidden_readLocalDirectory tabId
  · intro other side entry listed selected
    obtain ⟨was, wasSelected⟩ := narrower_readLocalDirectory tabId other side entry listed selected
    exact narrower_put (s := s) rfl tabId other side entry was wasSelected
  · intro other side
    exact .inr (query_clearFilters other side)

theorem shown_activateTab (shown : SelectionShown folding s) (tabId : TabId) : SelectionShown folding (s.activateTab tabId) := by
  unfold Workspace.activateTab
  cases s.tabs.findTab tabId with
  | none => exact shown
  | some tab => exact shown_of_narrower shown rfl (fun _ => narrower_refl _) fun other side => .inr (query_clearFilters other side)

theorem closeTab_active (store : TabStore) {tabId : TabId} (other : store.activeTabId ≠ some tabId) :
    (store.closeTab tabId).1.activeTabId = store.activeTabId := by
  have kept : (store.withoutTab tabId).activeTabId = store.activeTabId := if_neg other
  unfold TabStore.closeTab
  cases store.findTab tabId with
  | none => rfl
  | some removed =>
    rw [← kept]
    dsimp only
    split <;> rfl

theorem shown_closeTabById (shown : SelectionShown folding s) {tabId : TabId}
    (hides : HidesNothing folding s (.closeTabById tabId)) :
    SelectionShown folding (s.closeTabById tabId) := by
  unfold Workspace.closeTabById
  cases s.tabs.findTab tabId with
  | none => exact shown
  | some tab =>
    intro other side entry listed selected
    obtain ⟨was, wasSelected⟩ := narrower_put (s := s) rfl tabId other side entry listed selected
    have before := shown other side entry was wasSelected
    change visibleName folding s.showHidden (if (s.tabs.closeTab tabId).1.activeTabId = some other then s.filterQuery side
        else []) _ = true
    by_cases front : s.tabs.activeTabId = some tabId
    · split_ifs with next
      · exact hides front other next side entry was wasSelected
      · exact visibleName_cleared before
    · rw [closeTab_active s.tabs front]
      exact before

theorem shown_tabConnected (shown : SelectionShown folding s) (tabId : TabId) (sessionId : SessionId) (connectedAt : Timestamp)
    (navigateTo : List Char) (sent : Bool) :
    SelectionShown folding (s.tabConnected tabId sessionId connectedAt navigateTo sent) := by
  unfold Workspace.tabConnected
  cases s.tabs.findTab tabId with
  | none => exact shown
  | some tab =>
    apply shown_readRemoteDirectory
    exact shown_updatePanes (s := { s with tabs := _ }) shown (narrower_unselected rfl)

theorem shown_tabDisconnected (shown : SelectionShown folding s) (tabId : TabId) (reason : Tabs.DisconnectReason) :
    SelectionShown folding (s.tabDisconnected tabId reason) := by
  unfold Workspace.tabDisconnected
  cases s.tabs.findTab tabId with
  | none => exact shown
  | some tab =>
    refine shown_updatePanes (s := { s with tabs := _ }) shown ?_
    intro side entry listed selected
    cases side with
    | «local» => exact ⟨listed, selected⟩
    | remote => cases listed

theorem shown_next (s : Workspace) (op : PaneOp) (shown : SelectionShown folding s) (hides : HidesNothing folding s op) :
    SelectionShown folding (s.next folding op) := by
  cases op with
  | focusPane side => exact shown
  | selectIndex side visibleIndex => exact shown_selectIndex shown side visibleIndex
  | moveSelection side offset => exact shown_moveSelection shown side offset
  | extendSelectionTo side visibleIndex => exact shown_extendSelectionTo shown side visibleIndex
  | moveSelectionExtend side offset => exact shown_moveSelectionExtend shown side offset
  | selectAllVisible side => exact shown_selectAllVisible shown side
  | pageSelection side direction => exact shown_pageSelection shown side direction
  | toggleSelectionAt side visibleIndex => exact shown_toggleSelectionAt shown side visibleIndex
  | typeSelect side typed => exact shown_jumpToTypeSelectMatch shown side typed
  | openFilterPane => exact shown_openFilterPane shown
  | filterChanged side value => exact shown_filterChanged shown hides
  | clearFilter side => exact shown_clearFilter shown side
  | setShowHidden value => exact hides
  | setSort field direction => exact shown_setSort shown field direction
  | navigatePaneLocal target => exact shown_navigatePaneLocal shown target
  | navigatePaneRemote target ofHistory sent => exact shown_navigatePaneRemote shown target ofHistory sent
  | refreshFocusedPane sent => exact shown_refreshFocusedPane shown sent
  | reloadLocalDirectory tabId => exact shown_readLocalDirectory shown tabId
  | reloadRemoteDirectory tabId path sent => exact shown_readRemoteDirectory shown tabId path true sent
  | localDirectoryRead tabId requestEpoch path result => exact shown_localDirectoryRead shown hides
  | remoteDirLoaded tabId path listing => exact shown_remoteDirLoaded shown tabId path listing
  | openNewTab tabId title path => exact shown_openNewTab shown tabId title path
  | activateTab tabId => exact shown_activateTab shown tabId
  | closeTabById tabId => exact shown_closeTabById shown hides
  | beginConnect tabId sessionId => exact shown
  | connectFailed tabId error => exact shown
  | tabConnected tabId sessionId connectedAt navigateTo sent =>
    exact shown_tabConnected shown tabId sessionId connectedAt navigateTo sent
  | tabDisconnected tabId reason => exact shown_tabDisconnected shown tabId reason

end Switching

section Requests

variable {folding : CaseFolding}

/-- The rows of a pane, as they are on the screen. -/
def Workspace.shownEntries (folding : CaseFolding) (s : Workspace) (side : PaneSide) : List FsEntryRef :=
  match s.activePanes with
  | none => []
  | some panes => (s.visibleIndices folding side).filterMap fun index => (panes.entries side)[index]?.map (fsEntryRef side)

/-- What Delete and Rename would act on now is on the screen in the focused pane. -/
def ActsOnScreen (folding : CaseFolding) (s : Workspace) : Prop :=
  (∀ request ∈ s.requestDeleteSelection, ∀ entry ∈ request.2, entry ∈ s.shownEntries folding s.focusedSide) ∧
    ∀ entry ∈ s.beginRenameSelection, entry ∈ s.shownEntries folding s.focusedSide

instance decidableActsOnScreen (s : Workspace) : Decidable (ActsOnScreen folding s) :=
  inferInstanceAs (Decidable (_ ∧ _))

theorem selected_on_screen {s : Workspace} (shown : SelectionShown folding s) {side : PaneSide} {entry : FsEntryRef}
    (selected : entry ∈ s.selectedFsEntries side) : entry ∈ s.shownEntries folding side := by
  unfold Workspace.selectedFsEntries at selected
  unfold Workspace.shownEntries Workspace.visibleIndices
  cases front : s.activePanes with
  | none =>
    rw [front] at selected
    cases selected
  | some panes =>
    rw [front] at selected
    obtain ⟨listed, chosen, rfl⟩ := List.mem_map.mp selected
    obtain ⟨inside, marked⟩ := List.mem_filter.mp chosen
    obtain ⟨tabId, active, rfl⟩ := Option.map_eq_some_iff.mp front
    have passes := shown tabId side listed inside (of_decide_eq_true marked)
    rw [Workspace.queryFor, if_pos active] at passes
    obtain ⟨index, at_⟩ := List.mem_iff_getElem?.mp inside
    refine List.mem_filterMap.mpr ⟨index, mem_visibleIndices.mpr ⟨listed.name, ?_, passes⟩, ?_⟩
    · rw [TabPanes.names, List.getElem?_map, at_]
      rfl
    · rw [at_]
      rfl

theorem request_selected {s : Workspace} {request : FsScope × List FsEntryRef} (asked : request ∈ s.requestDeleteSelection) :
    request.2 = s.selectedFsEntries s.focusedSide := by
  unfold Workspace.requestDeleteSelection at asked
  dsimp only at asked
  split_ifs at asked
  · cases asked
  · obtain ⟨scope, -, rfl⟩ := Option.map_eq_some_iff.mp asked
    rfl

theorem rename_selected {s : Workspace} {entry : FsEntryRef} (asked : entry ∈ s.beginRenameSelection) :
    entry ∈ s.selectedFsEntries s.focusedSide := by
  unfold Workspace.beginRenameSelection at asked
  split at asked
  case h_2 => cases asked
  case h_1 single only =>
    rw [only]
    split_ifs at asked
    · cases asked
    · cases asked
      exact List.mem_singleton_self _

theorem acts_of_shown {s : Workspace} (shown : SelectionShown folding s) : ActsOnScreen folding s := by
  constructor
  · intro request asked entry inside
    rw [request_selected asked] at inside
    exact selected_on_screen shown inside
  · intro entry asked
    exact selected_on_screen shown (rename_selected asked)

theorem shown_start : SelectionShown folding {} := by
  intro tabId side entry listed
  cases side <;> cases listed

/-- While no step hides a selected entry, the requests of a run act on what is on the screen. -/
theorem requests_act_on_screen (folding : CaseFolding) (ops : List PaneOp)
    (hides : (paneMachine folding).Admissible (HidesNothing folding) {} ops) :
    ActsOnScreen folding ((paneMachine folding).run {} ops) := by
  apply acts_of_shown
  exact (paneMachine folding).admissible_invariant (fun s op legal shown => shown_next s op shown legal) shown_start ops hides

end Requests

section Letters

/-- A folding of the letters without accents only. -/
def plainFolding : CaseFolding where
  char c := [asciiLower c]
  text := List.map asciiLower

def twoFiles : Listing where
  entries := [⟨"a.txt".toList, "/d/a.txt".toList, .file, none, none⟩, ⟨"b.txt".toList, "/d/b.txt".toList, .file, none, none⟩]
  named := by decide

/-- The first of two files is selected before a filter is typed. -/
def selectThenFilter (query : String) : List PaneOp :=
  [.openNewTab ⟨1⟩ "Local" "/d".toList, .localDirectoryRead ⟨1⟩ 1 "/d".toList (some twoFiles),
    .selectIndex .local 0, .openFilterPane,
    .filterChanged .local query.toList]

theorem requests_act_on_screen_when_kept :
    (paneMachine plainFolding).Admissible (HidesNothing plainFolding) {} (selectThenFilter "A") ∧
      ActsOnScreen plainFolding ((paneMachine plainFolding).run {} (selectThenFilter "A")) := by
  have hides : (paneMachine plainFolding).Admissible (HidesNothing plainFolding) {} (selectThenFilter "A") := by
    refine ⟨trivial, ?_, trivial, trivial, ?_, trivial⟩
    · intro _ _ entry _ selected
      cases selected
    · intro _ tabId active
      cases active
      intro side
      cases side <;> decide +kernel
  exact ⟨hides, requests_act_on_screen plainFolding _ hides⟩

theorem filtered_selection_deleted :
    ¬∀ ops : List PaneOp, ActsOnScreen plainFolding ((paneMachine plainFolding).run {} ops) := by
  intro every
  exact absurd (every (selectThenFilter "b")) (by decide +kernel)

end Letters

end MacSftp.Panes
