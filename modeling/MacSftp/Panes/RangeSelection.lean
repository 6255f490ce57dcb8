import MacSftp.Panes.Rows

namespace MacSftp.Panes

open Lib

namespace Workspace

variable (folding : CaseFolding)

/-- The paths of the rows of a pane. -/
def visiblePaths (s : Workspace) (side : PaneSide) : List EntryPath :=
  match s.activePanes with
  | some panes =>
    ((panes.entries side).filter fun entry => visibleName folding s.showHidden (s.filterQuery side) entry.name).map (entryPath side)
  | none => []

/-- The row where `extend_selection_to` begins a range that ends at a row. -/
def startRow (s : Workspace) (side : PaneSide) (last : Nat) : Nat :=
  ((s.selectionAnchor.bind (s.visibleIndexOfPath folding side)).or
    ((s.selectionVisibleBounds folding side).map Prod.fst)).getD (if s.selectionAnchor.isNone then 0 else last)

variable {folding} {s : Workspace} {side : PaneSide}

theorem map_visibleIndices (s : Workspace) (side : PaneSide) :
    (s.visibleIndices folding side).map (s.entryPathAtStoredIndex side) = (s.visiblePaths folding side).map some := by
  unfold visibleIndices visiblePaths entryPathAtStoredIndex
  cases s.activePanes with
  | none => rfl
  | some panes =>
    apply List.ext_getElem?
    intro row
    dsimp only
    rw [visibleIndices_eq, TabPanes.names, positions_map, List.getElem?_map, List.getElem?_map, List.getElem?_map, filter_at]
    cases shown : (positions (fun entry : FileEntry =>
        visibleName folding s.showHidden (s.filterQuery side) entry.name) (panes.entries side))[row]? with
    | none => rfl
    | some index =>
      obtain ⟨entry, at_, -⟩ := mem_positions.mp (List.mem_of_getElem? shown)
      simp [at_]

theorem length_visibleIndices (s : Workspace) (side : PaneSide) :
    (s.visibleIndices folding side).length = (s.visiblePaths folding side).length := by
  have lengths := congrArg List.length (@map_visibleIndices folding s side)
  rwa [List.length_map, List.length_map] at lengths

theorem entryCount_eq (s : Workspace) (side : PaneSide) : s.entryCount folding side = (s.visiblePaths folding side).length := by
  rw [← length_visibleIndices]
  unfold entryCount visibleIndices
  cases s.activePanes with
  | none => rfl
  | some panes => exact countVisible_eq _

theorem visibleIndexOfPath_eq (s : Workspace) (side : PaneSide) (path : EntryPath) :
    s.visibleIndexOfPath folding side path = (s.visiblePaths folding side).findIdx? fun other => other = path := by
  unfold visibleIndexOfPath visiblePaths
  cases s.activePanes with
  | none => rfl
  | some panes =>
    dsimp only [Option.bind_some]
    rw [List.findIdx?_map]
    rfl

theorem rowPath (s : Workspace) (side : PaneSide) (row : Nat) :
    (s.visibleIndices folding side)[row]?.bind (s.entryPathAtStoredIndex side) = (s.visiblePaths folding side)[row]? := by
  have rows := congrArg (fun paths => paths[row]?.join) (@map_visibleIndices folding s side)
  simp only [List.getElem?_map] at rows
  have front : (s.visibleIndices folding side)[row]?.bind (s.entryPathAtStoredIndex side) =
      ((s.visibleIndices folding side)[row]?.map (s.entryPathAtStoredIndex side)).join := by
    cases (s.visibleIndices folding side)[row]? <;> rfl
  rw [front, rows]
  cases (s.visiblePaths folding side)[row]? <;> rfl

theorem entryPathAt_eq (s : Workspace) (side : PaneSide) (row : Nat) :
    s.entryPathAt folding side row = (s.visiblePaths folding side)[row]? := by
  rw [← rowPath]
  unfold entryPathAt visibleIndices
  cases s.activePanes with
  | none => rfl
  | some panes =>
    dsimp only [Option.bind_some]
    rw [realIndexAt_eq]

theorem filterMap_rows (s : Workspace) (side : PaneSide) (lo hi : Nat) :
    (slice lo hi (s.visibleIndices folding side)).filterMap (s.entryPathAtStoredIndex side) =
      slice lo hi (s.visiblePaths folding side) := by
  have rows : (slice lo hi (s.visibleIndices folding side)).map (s.entryPathAtStoredIndex side) =
      (slice lo hi (s.visiblePaths folding side)).map some := by
    rw [map_slice, map_slice, map_visibleIndices]
  have same := congrArg (List.filterMap id) rows
  rwa [List.filterMap_map, List.filterMap_map, Function.id_comp, Function.id_comp, List.filterMap_some] at same

section Select

variable {paths : List EntryPath}

theorem active_of_visible {row : Nat} (shown : row < (s.visiblePaths folding side).length) :
    ∃ tabId, s.tabs.activeTabId = some tabId := by
  unfold visiblePaths activePanes at shown
  cases front : s.tabs.activeTabId with
  | none =>
    rw [front] at shown
    exact absurd shown (Nat.not_lt_zero _)
  | some tabId => exact ⟨tabId, rfl⟩

theorem activePanes_select {tabId : TabId} (front : s.tabs.activeTabId = some tabId) :
    (s.select paths).activePanes = some { s.panes tabId with selectedPaths := paths } := by
  unfold select
  rw [front]
  change Option.map (Function.update s.panes tabId { s.panes tabId with selectedPaths := paths }) s.tabs.activeTabId = _
  rw [front, Option.map_some, Function.update_self]

theorem selectedPaths_select {tabId : TabId} (front : s.tabs.activeTabId = some tabId) :
    (s.select paths).selectedPaths = paths := by
  rw [selectedPaths, activePanes_select front]
  rfl

theorem visiblePaths_select (s : Workspace) (side : PaneSide) (paths : List EntryPath) :
    (s.select paths).visiblePaths folding side = s.visiblePaths folding side := by
  cases front : s.tabs.activeTabId with
  | none =>
    unfold select
    rw [front]
  | some tabId =>
    have kept : (s.select paths).showHidden = s.showHidden ∧ (s.select paths).filterQuery side = s.filterQuery side := by
      unfold select
      rw [front]
      cases side <;> exact ⟨rfl, rfl⟩
    have here : s.activePanes = some (s.panes tabId) := by
      unfold activePanes
      rw [front, Option.map_some]
    unfold visiblePaths
    rw [activePanes_select front, here, kept.1, kept.2]
    cases side <;> rfl

theorem selectionAnchor_select (s : Workspace) (paths : List EntryPath) : (s.select paths).selectionAnchor = s.selectionAnchor := by
  unfold select
  cases s.tabs.activeTabId <;> rfl

end Select

section Bounds

theorem findRow (distinct : (s.visiblePaths folding side).Nodup) {row : Nat} {path : EntryPath}
    (at_ : (s.visiblePaths folding side)[row]? = some path) : s.visibleIndexOfPath folding side path = some row := by
  obtain ⟨inside, here⟩ := List.getElem?_eq_some_iff.mp at_
  rw [visibleIndexOfPath_eq, List.findIdx?_eq_some_iff_getElem]
  refine ⟨inside, decide_eq_true here, ?_⟩
  intro earlier before
  rw [decide_eq_true_eq]
  intro same
  have place := (distinct.getElem_inj_iff).mp (same.trans here.symm)
  omega

theorem selectedRows (distinct : (s.visiblePaths folding side).Nodup) {lo hi : Nat} (le : lo ≤ hi)
    (inside : hi < (s.visiblePaths folding side).length) :
    (((s.visibleIndices folding side).zipIdx.filter fun row => ((s.entryPathAtStoredIndex side row.1).map fun path =>
        decide (path ∈ slice lo hi (s.visiblePaths folding side))).getD false).map Prod.snd) =
      List.range' lo (hi + 1 - lo) := by
  have rows := positions_map (fun path : Option EntryPath =>
    (path.map fun path => decide (path ∈ slice lo hi (s.visiblePaths folding side))).getD false)
    (s.entryPathAtStoredIndex side) (s.visibleIndices folding side)
  rw [map_visibleIndices, positions_map] at rows
  exact rows.symm.trans (positions_slice distinct inside le)

theorem selectionVisibleBounds_range (distinct : (s.visiblePaths folding side).Nodup) {lo hi : Nat} (le : lo ≤ hi)
    (inside : hi < (s.visiblePaths folding side).length) (selected : s.selectedPaths = slice lo hi (s.visiblePaths folding side)) :
    s.selectionVisibleBounds folding side = some (lo, hi) := by
  have count : (slice lo hi (s.visiblePaths folding side)).length = hi - lo + 1 := slice_length le inside
  have rows := selectedRows distinct le inside
  unfold selectionVisibleBounds
  rw [selected]
  split
  · rename_i none_
    rw [none_] at count
    simp only [List.length_nil] at count
    omega
  · rename_i single one
    rw [one, List.length_singleton] at count
    have same : hi = lo := by omega
    subst same
    obtain ⟨path, at_⟩ : ∃ path, (s.visiblePaths folding side)[hi]? = some path := ⟨_, List.getElem?_eq_getElem inside⟩
    rw [slice_singleton at_, List.singleton_inj] at one
    rw [← one, findRow distinct at_, Option.map_some]
  · have long : hi + 1 - lo = (hi - lo) + 1 := by omega
    have first : (List.range' lo (hi + 1 - lo)).head? = some lo := by rw [long, List.range'_succ, List.head?_cons]
    have last : (List.range' lo (hi + 1 - lo)).getLastD lo = hi := by
      rw [long, List.range'_1_concat, List.getLastD_concat]
      omega
    rw [rows]
    dsimp only
    rw [first, Option.map_some, last]

/-- The range of rows between the anchor and the edge that moves. -/
structure RangeSelected (folding : CaseFolding) (s : Workspace) (side : PaneSide) (anchor edge : Nat) : Prop where
  anchor_shown : anchor < (s.visiblePaths folding side).length
  edge_shown : edge < (s.visiblePaths folding side).length
  anchored : s.selectionAnchor = (s.visiblePaths folding side)[anchor]?
  selected : s.selectedPaths = slice (min anchor edge) (max anchor edge) (s.visiblePaths folding side)

variable {anchor edge : Nat}

theorem RangeSelected.anchorRow (range : RangeSelected folding s side anchor edge)
    (distinct : (s.visiblePaths folding side).Nodup) :
    s.selectionAnchor.bind (s.visibleIndexOfPath folding side) = some anchor := by
  obtain ⟨path, at_⟩ : ∃ path, (s.visiblePaths folding side)[anchor]? = some path :=
    ⟨_, List.getElem?_eq_getElem range.anchor_shown⟩
  rw [range.anchored, at_, Option.bind_some, findRow distinct at_]

theorem RangeSelected.edgeRow (range : RangeSelected folding s side anchor edge)
    (distinct : (s.visiblePaths folding side).Nodup) :
    s.selectionEdgeVisibleIndex folding side = some edge := by
  have bounds := selectionVisibleBounds_range distinct (Nat.le_trans (Nat.min_le_left anchor edge) (Nat.le_max_left anchor edge))
    (Nat.max_lt.mpr ⟨range.anchor_shown, range.edge_shown⟩) range.selected
  unfold selectionEdgeVisibleIndex
  rw [bounds, Option.map_some, range.anchorRow distinct]
  dsimp only
  congr 1
  split_ifs <;> omega

end Bounds

section Moving

variable {anchor edge : Nat}

theorem clampRow_lt {count : Nat} (some_ : 0 < count) (row : Int) : clampRow row count < count := by
  unfold clampRow
  omega

theorem extendSelectionTo_eq {row last start : Nat} (some_ : s.visibleIndices folding side ≠ [])
    (isLast : min row ((s.visibleIndices folding side).length - 1) = last) (isStart : s.startRow folding side last = start) :
    s.extendSelectionTo folding side row =
      { s with selectionAnchor := (s.visibleIndices folding side)[start]?.bind (s.entryPathAtStoredIndex side) }.select
        ((slice (min start last) (max start last) (s.visibleIndices folding side)).filterMap
          (s.entryPathAtStoredIndex side)) := by
  rw [← drop_take_slice (Nat.le_trans (Nat.min_le_left start last) (Nat.le_max_left start last))]
  subst isLast isStart
  exact if_neg some_

theorem visible_some {row : Nat} (shown : row < (s.visiblePaths folding side).length) : s.visibleIndices folding side ≠ [] := by
  rw [← length_visibleIndices] at shown
  exact List.length_pos_iff.mp (Nat.lt_of_le_of_lt (Nat.zero_le _) shown)

theorem startRow_anchor {last : Nat} (at_ : s.selectionAnchor.bind (s.visibleIndexOfPath folding side) = some anchor) :
    s.startRow folding side last = anchor := by
  unfold startRow
  rw [at_]
  rfl

theorem extendSelectionTo_anchor {row : Nat} (shown : row < (s.visiblePaths folding side).length)
    (at_ : s.selectionAnchor.bind (s.visibleIndexOfPath folding side) = some anchor) :
    s.extendSelectionTo folding side row =
      { s with selectionAnchor := (s.visiblePaths folding side)[anchor]? }.select
        (slice (min anchor row) (max anchor row) (s.visiblePaths folding side)) := by
  have last : min row ((s.visibleIndices folding side).length - 1) = row := by
    rw [length_visibleIndices]
    omega
  rw [extendSelectionTo_eq (visible_some shown) last (startRow_anchor at_), rowPath, filterMap_rows]

theorem extendSelectionTo_range (range : RangeSelected folding s side anchor edge)
    (distinct : (s.visiblePaths folding side).Nodup) {row : Nat} (shown : row < (s.visiblePaths folding side).length) :
    (s.extendSelectionTo folding side row).visiblePaths folding side = s.visiblePaths folding side ∧
      RangeSelected folding (s.extendSelectionTo folding side row) side anchor row := by
  obtain ⟨tabId, front⟩ := active_of_visible shown
  rw [extendSelectionTo_anchor shown (range.anchorRow distinct)]
  have rows := @visiblePaths_select folding { s with selectionAnchor := (s.visiblePaths folding side)[anchor]? } side
    (slice (min anchor row) (max anchor row) (s.visiblePaths folding side))
  refine ⟨rows, ?_, ?_, ?_, ?_⟩
  · rw [rows]
    exact range.anchor_shown
  · rw [rows]
    exact shown
  · rw [rows, selectionAnchor_select]
    rfl
  · rw [rows]
    exact selectedPaths_select front

theorem moveSelectionExtend_range (range : RangeSelected folding s side anchor edge)
    (distinct : (s.visiblePaths folding side).Nodup) (offset : Int) :
    (s.moveSelectionExtend folding side offset).visiblePaths folding side = s.visiblePaths folding side ∧
      RangeSelected folding (s.moveSelectionExtend folding side offset) side anchor
        (clampRow (edge + offset) (s.visiblePaths folding side).length) := by
  have some_ : 0 < (s.visiblePaths folding side).length := Nat.lt_of_le_of_lt (Nat.zero_le _) range.edge_shown
  have moved : s.moveSelectionExtend folding side offset =
      s.extendSelectionTo folding side (clampRow (edge + offset) (s.visiblePaths folding side).length) := by
    unfold moveSelectionExtend
    rw [entryCount_eq, if_neg (Nat.pos_iff_ne_zero.mp some_), range.edgeRow distinct]
    rfl
  rw [moved]
  exact extendSelectionTo_range range distinct (clampRow_lt some_ _)

theorem selectIndex_range {row : Nat} (shown : row < (s.visiblePaths folding side).length) :
    (s.selectIndex folding side row).visiblePaths folding side = s.visiblePaths folding side ∧
      RangeSelected folding (s.selectIndex folding side row) side row row := by
  obtain ⟨tabId, front⟩ := active_of_visible shown
  have at_ : (s.visiblePaths folding side)[row]? = some (s.visiblePaths folding side)[row] := List.getElem?_eq_getElem shown
  unfold selectIndex
  rw [entryPathAt_eq, at_]
  dsimp only
  have rows := @visiblePaths_select folding { s with selectionAnchor := some (s.visiblePaths folding side)[row] } side
    [(s.visiblePaths folding side)[row]]
  refine ⟨rows, ?_, ?_, ?_, ?_⟩
  · rw [rows]
    exact shown
  · rw [rows]
    exact shown
  · rw [rows, selectionAnchor_select]
    exact at_.symm
  · rw [rows, Nat.min_self, Nat.max_self]
    have chosen := @selectedPaths_select { s with selectionAnchor := some (s.visiblePaths folding side)[row] }
      [(s.visiblePaths folding side)[row]] tabId front
    exact chosen.trans (slice_singleton at_).symm

def extendBy (folding : CaseFolding) (s : Workspace) (side : PaneSide) (offsets : List Int) : Workspace :=
  offsets.foldl (fun s offset => s.moveSelectionExtend folding side offset) s

/-- Where the edge comes to, which stops at the ends of the list. -/
def movedEdge (count : Nat) (edge : Nat) (offsets : List Int) : Nat :=
  offsets.foldl (fun edge offset => clampRow (edge + offset) count) edge

theorem extendBy_range (offsets : List Int) (range : RangeSelected folding s side anchor edge)
    (distinct : (s.visiblePaths folding side).Nodup) :
    (s.extendBy folding side offsets).visiblePaths folding side = s.visiblePaths folding side ∧
      RangeSelected folding (s.extendBy folding side offsets) side anchor
        (movedEdge (s.visiblePaths folding side).length edge offsets) := by
  induction offsets generalizing s edge with
  | nil => exact ⟨rfl, range⟩
  | cons offset offsets ih =>
    obtain ⟨rows, moved⟩ := moveSelectionExtend_range range distinct offset
    have rest := ih moved (rows ▸ distinct)
    rw [rows] at rest
    exact rest

theorem moveSelectionExtend_back (range : RangeSelected folding s side anchor edge)
    (distinct : (s.visiblePaths folding side).Nodup) {offset : Int} (low : 0 ≤ edge + offset)
    (high : edge + offset < (s.visiblePaths folding side).length) :
    ((s.moveSelectionExtend folding side offset).moveSelectionExtend folding side (-offset)).selectedPaths = s.selectedPaths ∧
      ((s.moveSelectionExtend folding side offset).moveSelectionExtend folding side (-offset)).selectionAnchor =
        s.selectionAnchor := by
  obtain ⟨rows, moved⟩ := moveSelectionExtend_range range distinct offset
  obtain ⟨rows', back⟩ := moveSelectionExtend_range moved (rows ▸ distinct) (-offset)
  rw [rows] at back rows'
  have there : clampRow (edge + offset) (s.visiblePaths folding side).length = (edge + offset).toNat := by
    unfold clampRow
    omega
  have here : clampRow (clampRow (edge + offset) (s.visiblePaths folding side).length + -offset)
      (s.visiblePaths folding side).length = edge := by
    have inside := range.edge_shown
    rw [there]
    unfold clampRow
    omega
  rw [here] at back
  constructor
  · rw [back.selected, rows', range.selected]
  · rw [back.anchored, rows', range.anchored]

theorem anchor_stays (distinct : (s.visiblePaths folding side).Nodup) {path : EntryPath} (anchored : s.selectionAnchor = some path)
    (shown : path ∈ s.visiblePaths folding side) (offset : Int) :
    (s.moveSelectionExtend folding side offset).selectionAnchor = some path := by
  obtain ⟨anchor, at_⟩ := List.mem_iff_getElem?.mp shown
  have some_ : 0 < (s.visiblePaths folding side).length := List.length_pos_of_mem shown
  have row : s.selectionAnchor.bind (s.visibleIndexOfPath folding side) = some anchor := by
    rw [anchored, Option.bind_some, findRow distinct at_]
  unfold moveSelectionExtend
  rw [entryCount_eq, if_neg (Nat.pos_iff_ne_zero.mp some_), extendSelectionTo_anchor (clampRow_lt some_ _) row,
    selectionAnchor_select]
  exact at_

/-- From a selected row, whatever the steps: the rows from the anchor to the edge are selected, the anchor stays, every index
is a row, and steps back undo steps. -/
theorem keyboard_range_reversible (folding : CaseFolding) (s : Workspace) (side : PaneSide) (row : Nat) (offsets : List Int)
    (distinct : (s.visiblePaths folding side).Nodup) (shown : row < (s.visiblePaths folding side).length) :
    let count := (s.visiblePaths folding side).length
    let after := (s.selectIndex folding side row).extendBy folding side offsets
    let edge := movedEdge count row offsets
    after.visiblePaths folding side = s.visiblePaths folding side ∧ RangeSelected folding after side row edge ∧
      (∀ offset : Int, clampRow (edge + offset) count < (after.visibleIndices folding side).length ∧
        after.startRow folding side (clampRow (edge + offset) count) < (after.visibleIndices folding side).length) ∧
      (∀ offset : Int, 0 ≤ edge + offset → edge + offset < count →
        ((after.moveSelectionExtend folding side offset).moveSelectionExtend folding side (-offset)).selectedPaths =
            after.selectedPaths ∧
          ((after.moveSelectionExtend folding side offset).moveSelectionExtend folding side (-offset)).selectionAnchor =
            after.selectionAnchor) ∧
      ∀ (other : Workspace) (path : EntryPath), (other.visiblePaths folding side).Nodup → other.selectionAnchor = some path →
        path ∈ other.visiblePaths folding side →
          ∀ offset, (other.moveSelectionExtend folding side offset).selectionAnchor = some path := by
  intro count after edge
  obtain ⟨rows, start⟩ := selectIndex_range shown
  obtain ⟨rows', range⟩ := extendBy_range offsets start (rows ▸ distinct)
  rw [rows] at rows' range
  have distinct' : (after.visiblePaths folding side).Nodup := rows'.symm ▸ distinct
  refine ⟨rows', range, ?_, ?_, ?_⟩
  · intro offset
    rw [length_visibleIndices, startRow_anchor (range.anchorRow distinct'), rows']
    exact ⟨clampRow_lt (Nat.lt_of_le_of_lt (Nat.zero_le _) shown) _, shown⟩
  · intro offset low high
    exact moveSelectionExtend_back range distinct' low (rows'.symm ▸ high)
  · intro other path distinct anchored shown offset
    exact anchor_stays distinct anchored shown offset

def threeEntries : Listing where
  entries := [⟨['a'], ['/', 'a'], .file, none, none⟩, ⟨['b'], ['/', 'b'], .file, none, none⟩,
    ⟨['c'], ['/', 'c'], .file, none, none⟩]
  named := by decide

/-- A window that shows three files. -/
def threeFiles : Workspace :=
  (paneMachine asciiFolding).run .new [.openNewTab ⟨1⟩ "Local" ['/'], .localDirectoryRead ⟨1⟩ 1 ['/'] (some threeEntries)]

theorem keyboard_range_crosses :
    ((threeFiles.selectIndex asciiFolding .local 1).extendBy asciiFolding .local [1, -1, -1, 1]).selectedPaths =
      (threeFiles.selectIndex asciiFolding .local 1).selectedPaths := by
  have range :=
    (keyboard_range_reversible asciiFolding threeFiles .local 1 [1, -1, -1, 1] (by decide +kernel) (by decide +kernel)).2.1
  rw [range.selected]
  decide +kernel

end Moving

end Workspace

end MacSftp.Panes
