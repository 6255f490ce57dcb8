import MacSftp.Panes.Visible
import MacSftp.Tabs.Store
import Mathlib.Logic.Function.Basic

namespace MacSftp.Panes

open Lib Tabs

inductive PaneSide
  | local
  | remote
  deriving DecidableEq, Repr

inductive EntryPath
  | local (path : LocalPath)
  | remote (path : RemotePath)
  deriving DecidableEq, Repr

structure FsEntryRef where
  path : EntryPath
  isDir : Bool
  deriving DecidableEq, Repr

inductive FsScope
  | local (tabId : TabId)
  | remote (tabId : TabId) (sessionEpoch : Nat)
  deriving DecidableEq, Repr

def entryPath (side : PaneSide) (entry : FileEntry) : EntryPath :=
  match side with
  | .local => .local ⟨entry.path⟩
  | .remote => .remote ⟨entry.path⟩

def fsEntryRef (side : PaneSide) (entry : FileEntry) : FsEntryRef := ⟨entryPath side entry, entry.kind = .directory⟩

/-- The entries of one directory: a path is the directory's with the name. -/
structure Listing where
  entries : List FileEntry := []
  named : ∀ a ∈ entries, ∀ b ∈ entries, a.path = b.path → a.name = b.name := by simp

structure PaneListing where
  path : Option (List Char) := none
  listing : Listing := {}
  readEpoch : Nat := 0

structure TabPanes where
  local_ : PaneListing := {}
  remote : PaneListing := {}
  sort : FileSort := {}
  selectedPaths : List EntryPath := []

structure PaneFilter where
  query : List Char := []
  explicitFocus : Bool := false

/-- The panes of a window. The setting of hidden files belongs to the application. -/
structure Workspace where
  tabs : TabStore := {}
  panes : TabId → TabPanes := fun _ => {}
  localFilter : PaneFilter := {}
  remoteFilter : PaneFilter := {}
  showHidden : Bool := false
  focusedSide : PaneSide := .local
  selectionAnchor : Option EntryPath := none

namespace Listing

def sorted (folding : CaseFolding) (sort : FileSort) (listing : Listing) : Listing where
  entries := sortEntries folding sort listing.entries
  named := fun a inA b inB => listing.named a (mem_sortEntries.mp inA) b (mem_sortEntries.mp inB)

end Listing

namespace TabPanes

def pane (panes : TabPanes) : PaneSide → PaneListing
  | .local => panes.local_
  | .remote => panes.remote

def entries (panes : TabPanes) (side : PaneSide) : List FileEntry := (panes.pane side).listing.entries

def names (panes : TabPanes) (side : PaneSide) : List (List Char) := (panes.entries side).map FileEntry.name

end TabPanes

namespace Workspace

variable (folding : CaseFolding)

def filter (s : Workspace) : PaneSide → PaneFilter
  | .local => s.localFilter
  | .remote => s.remoteFilter

def setFilter (s : Workspace) (side : PaneSide) (filter : PaneFilter) : Workspace :=
  match side with
  | .local => { s with localFilter := filter }
  | .remote => { s with remoteFilter := filter }

def filterQuery (s : Workspace) (side : PaneSide) : List Char := (s.filter side).query

def activePanes (s : Workspace) : Option TabPanes := s.tabs.activeTabId.map s.panes

def updatePanes (s : Workspace) (tabId : TabId) (f : TabPanes → TabPanes) : Workspace :=
  { s with panes := Function.update s.panes tabId (f (s.panes tabId)) }

def select (s : Workspace) (paths : List EntryPath) : Workspace :=
  match s.tabs.activeTabId with
  | some tabId => s.updatePanes tabId ({ · with selectedPaths := paths })
  | none => s

def visibleIndices (s : Workspace) (side : PaneSide) : List Nat :=
  match s.activePanes with
  | some panes => Panes.visibleIndices folding (panes.names side) s.showHidden (s.filterQuery side)
  | none => []

def entryCount (s : Workspace) (side : PaneSide) : Nat :=
  match s.activePanes with
  | some panes => countVisible folding (panes.names side) s.showHidden (s.filterQuery side)
  | none => 0

def entryPathAtStoredIndex (s : Workspace) (side : PaneSide) (realIndex : Nat) : Option EntryPath :=
  s.activePanes.bind fun panes => (panes.entries side)[realIndex]?.map (entryPath side)

def entryPathAt (s : Workspace) (side : PaneSide) (visibleIndex : Nat) : Option EntryPath :=
  s.activePanes.bind fun panes =>
    (Panes.realIndexAt folding (panes.names side) visibleIndex s.showHidden (s.filterQuery side)).bind
      (s.entryPathAtStoredIndex side)

def visibleIndexOfPath (s : Workspace) (side : PaneSide) (path : EntryPath) : Option Nat :=
  s.activePanes.bind fun panes =>
    ((panes.entries side).filter fun entry => visibleName folding s.showHidden (s.filterQuery side) entry.name).findIdx?
      fun entry => entryPath side entry = path

def selectedPaths (s : Workspace) : List EntryPath := (s.activePanes.map TabPanes.selectedPaths).getD []

def selectedIndex (s : Workspace) (side : PaneSide) : Option Nat :=
  s.selectedPaths.head?.bind (s.visibleIndexOfPath folding side)

/-- The first and the last visible row that is selected. -/
def selectionVisibleBounds (s : Workspace) (side : PaneSide) : Option (Nat × Nat) :=
  match s.selectedPaths with
  | [] => none
  | [single] => (s.visibleIndexOfPath folding side single).map fun index => (index, index)
  | selected =>
    let rows := ((s.visibleIndices folding side).zipIdx.filter fun row =>
      ((s.entryPathAtStoredIndex side row.1).map fun path => decide (path ∈ selected)).getD false).map Prod.snd
    rows.head?.map fun first => (first, rows.getLastD first)

def selectionEdgeVisibleIndex (s : Workspace) (side : PaneSide) : Option Nat :=
  (s.selectionVisibleBounds folding side).map fun (lo, hi) =>
    match s.selectionAnchor.bind (s.visibleIndexOfPath folding side) with
    | some anchor => if anchor = lo then hi else if anchor = hi then lo else hi
    | none => hi

/-- `clamp(0, count - 1)`. -/
def clampRow (row : Int) (count : Nat) : Nat := min row.toNat (count - 1)

def selectIndex (s : Workspace) (side : PaneSide) (visibleIndex : Nat) : Workspace :=
  match s.entryPathAt folding side visibleIndex with
  | some path => { s with selectionAnchor := some path }.select [path]
  | none => s

def moveSelection (s : Workspace) (side : PaneSide) (offset : Int) : Workspace :=
  let entryCount := s.entryCount folding side
  if entryCount = 0 then s
  else
    s.selectIndex folding side <|
      match s.selectedIndex folding side with
      | some current => clampRow (current + offset) entryCount
      | none => 0

def extendSelectionTo (s : Workspace) (side : PaneSide) (visibleIndex : Nat) : Workspace :=
  let visible := s.visibleIndices folding side
  if visible = [] then s
  else
    let last := min visibleIndex (visible.length - 1)
    let start :=
      ((s.selectionAnchor.bind (s.visibleIndexOfPath folding side)).or
        ((s.selectionVisibleBounds folding side).map Prod.fst)).getD (if s.selectionAnchor.isNone then 0 else last)
    let paths := ((visible.take (max start last + 1)).drop (min start last)).filterMap (s.entryPathAtStoredIndex side)
    { s with selectionAnchor := visible[start]?.bind (s.entryPathAtStoredIndex side) }.select paths

def moveSelectionExtend (s : Workspace) (side : PaneSide) (offset : Int) : Workspace :=
  let entryCount := s.entryCount folding side
  if entryCount = 0 then s
  else
    let current := (s.selectedIndex folding side).getD 0
    let edge := (s.selectionEdgeVisibleIndex folding side).getD current
    s.extendSelectionTo folding side (clampRow (edge + offset) entryCount)

def selectAllVisible (s : Workspace) (side : PaneSide) : Workspace :=
  let paths := (s.visibleIndices folding side).filterMap (s.entryPathAtStoredIndex side)
  { s with selectionAnchor := paths.head? }.select paths

def pageSize : Int := 10

def pageSelection (s : Workspace) (side : PaneSide) (direction : Int) : Workspace :=
  let entryCount := s.entryCount folding side
  if entryCount = 0 then s
  else s.selectIndex folding side (clampRow ((s.selectedIndex folding side).getD 0 + direction * pageSize) entryCount)

def toggleSelectionAt (s : Workspace) (side : PaneSide) (visibleIndex : Nat) : Workspace :=
  match s.entryPathAt folding side visibleIndex with
  | some path =>
    { s with selectionAnchor := some path }.select
      (if path ∈ s.selectedPaths then s.selectedPaths.erase path else s.selectedPaths ++ [path])
  | none => s

/-- Where a typed prefix leads: the first match after the selection. -/
def jumpToTypeSelectMatch (s : Workspace) (side : PaneSide) (typed : List Char) : Workspace :=
  let names := (s.activePanes.map fun panes => (panes.names side).filter
      (visibleName folding s.showHidden (s.filterQuery side))).getD []
  let start := ((s.selectedIndex folding side).map (· + 1)).getD 0
  match firstPrefixMatch folding names start typed with
  | some index => s.selectIndex folding side index
  | none => s

def clearFilter (s : Workspace) (side : PaneSide) : Workspace := s.setFilter side {}

def clearFilters (s : Workspace) : Workspace := (s.clearFilter .local).clearFilter .remote

def openFilterPane (s : Workspace) : Workspace :=
  s.setFilter s.focusedSide { s.filter s.focusedSide with explicitFocus := true }

/-- The change of a filter's text input. -/
def filterChanged (s : Workspace) (side : PaneSide) (value : List Char) : Workspace :=
  if (s.filter side).explicitFocus then s.setFilter side { s.filter side with query := value } else s

def setSort (s : Workspace) (field : FileSortField) (direction : SortDirection) : Workspace :=
  match s.tabs.activeTabId with
  | none => s
  | some tabId =>
    let sort := (s.panes tabId).sort
    if sort.field = field ∧ sort.direction = direction then s
    else
      let sort := { sort with field := field, direction := direction }
      s.updatePanes tabId fun panes =>
        { panes with
          sort := sort
          local_ := { panes.local_ with listing := panes.local_.listing.sorted folding sort }
          remote := { panes.remote with listing := panes.remote.listing.sorted folding sort } }

/-- `begin_local_read`, where the tab exists. -/
def readLocalDirectory (s : Workspace) (tabId : TabId) : Workspace :=
  match s.tabs.findTab tabId with
  | none => s
  | some _ =>
    s.updatePanes tabId fun panes => { panes with local_ := { panes.local_ with readEpoch := panes.local_.readEpoch + 1 } }

def setLocalPath (s : Workspace) (path : List Char) : Workspace :=
  match s.tabs.activeTabId with
  | none => s
  | some tabId =>
    (s.updatePanes tabId fun panes =>
      { panes with local_ := { panes.local_ with path := some path }, selectedPaths := [] }).readLocalDirectory tabId

/-- The end of a background read, with the directory's entries or a failure. -/
def localDirectoryRead (s : Workspace) (tabId : TabId) (requestEpoch : Nat) (path : List Char) (result : Option Listing) :
    Workspace :=
  match s.tabs.findTab tabId with
  | none => s
  | some _ =>
    if (s.panes tabId).local_.readEpoch = requestEpoch ∧ (s.panes tabId).local_.path = some path then
      s.updatePanes tabId fun panes =>
        { panes with
          local_ := { panes.local_ with listing := (result.map (Listing.sorted folding panes.sort)).getD {} } }
    else s

/-- The request is sent or not. A reload in the background keeps the selection. -/
def readRemoteDirectory (s : Workspace) (tabId : TabId) (path : List Char) (preserveView sent : Bool) : Workspace :=
  if sent then
    match s.tabs.findTab tabId with
    | none => s
    | some _ =>
      s.updatePanes tabId fun panes =>
        { panes with
          remote := { panes.remote with path := some path }
          selectedPaths := if preserveView then panes.selectedPaths else [] }
  else s

def remoteDirLoaded (s : Workspace) (tabId : TabId) (path : List Char) (listing : Listing) : Workspace :=
  match s.tabs.findTab tabId with
  | none => s
  | some _ =>
    if (s.panes tabId).remote.path = some path then
      s.updatePanes tabId fun panes =>
        { panes with remote := { panes.remote with listing := listing.sorted folding panes.sort }, selectedPaths := [] }
    else s

/-- Where a navigation leads is what was opened, or what the history says. -/
def navigatePaneLocal (s : Workspace) (target : List Char) : Workspace :=
  match s.tabs.activeTabId with
  | none => s
  | some _ => { (s.setLocalPath target).clearFilter .local with selectionAnchor := none }

/-- A step of the history from where no path was shown leaves the filter and the anchor. -/
def navigatePaneRemote (s : Workspace) (target : List Char) (ofHistory sent : Bool) : Workspace :=
  match s.tabs.activeTabId with
  | none => s
  | some tabId =>
    let read := s.readRemoteDirectory tabId target false sent
    if sent then
      if ofHistory ∧ (s.panes tabId).remote.path = none then read
      else { read.clearFilter .remote with selectionAnchor := none }
    else s

def refreshFocusedPane (s : Workspace) (sent : Bool) : Workspace :=
  match s.tabs.activeTabId with
  | none => s
  | some tabId =>
    match s.focusedSide with
    | .local => (((s.panes tabId).local_.path).map s.setLocalPath).getD s
    | .remote => (((s.panes tabId).remote.path).map fun path => s.readRemoteDirectory tabId path false sent).getD s

def openNewTab (s : Workspace) (tabId : TabId) (title : String) (path : List Char) : Workspace :=
  let opened : Workspace :=
    { s with
      tabs := s.tabs.openTab (.new tabId title)
      panes := Function.update s.panes tabId { local_ := { path := some path } } }
  let active := opened.readLocalDirectory tabId
  { ({ active with tabs := (active.tabs.activateTab tabId).1 } : Workspace).clearFilters with focusedSide := .local }

def activateTab (s : Workspace) (tabId : TabId) : Workspace :=
  match s.tabs.findTab tabId with
  | none => s
  | some _ => { ({ s with tabs := (s.tabs.activateTab tabId).1 } : Workspace).clearFilters with selectionAnchor := none }

/-- The filters stay. -/
def closeTabById (s : Workspace) (tabId : TabId) : Workspace :=
  match s.tabs.findTab tabId with
  | none => s
  | some _ => { s with tabs := (s.tabs.closeTab tabId).1, panes := Function.update s.panes tabId {} }

def beginConnect (s : Workspace) (tabId : TabId) (sessionId : SessionId) : Workspace :=
  { s with tabs := s.tabs.updateTab tabId (.beginConnect sessionId) }

def connectFailed (s : Workspace) (tabId : TabId) (error : UserFacingError) : Workspace :=
  { s with tabs := s.tabs.updateTab tabId (.fail error) }

def tabConnected (s : Workspace) (tabId : TabId) (sessionId : SessionId) (connectedAt : Timestamp) (navigateTo : List Char)
    (sent : Bool) : Workspace :=
  match s.tabs.findTab tabId with
  | none => s
  | some _ =>
    (({ s with tabs := s.tabs.updateTab tabId (.completeConnect sessionId connectedAt) } : Workspace).updatePanes tabId fun panes =>
      { panes with
        remote := { panes.remote with path := some navigateTo, listing := {} }, selectedPaths := [] }).readRemoteDirectory
        tabId navigateTo false sent

def tabDisconnected (s : Workspace) (tabId : TabId) (reason : Tabs.DisconnectReason) : Workspace :=
  match s.tabs.findTab tabId with
  | none => s
  | some _ =>
    ({ s with tabs := s.tabs.updateTab tabId (.disconnect reason) } : Workspace).updatePanes tabId fun panes =>
      { panes with remote := { panes.remote with path := none, listing := {} } }

def selectedFsEntries (s : Workspace) (side : PaneSide) : List FsEntryRef :=
  match s.activePanes with
  | none => []
  | some panes => ((panes.entries side).filter fun entry => entryPath side entry ∈ panes.selectedPaths).map (fsEntryRef side)

def fsScopeForSide (s : Workspace) (side : PaneSide) : Option FsScope :=
  (s.tabs.activeTabId.bind s.tabs.findTab).bind fun tab =>
    match side with
    | .local => some (.local tab.id)
    | .remote =>
      match tab.connection with
      | .connected _ sessionEpoch _ => some (.remote tab.id sessionEpoch)
      | _ => none

/-- What is deleted, at once or when it has been confirmed. -/
def requestDeleteSelection (s : Workspace) : Option (FsScope × List FsEntryRef) :=
  let entries := s.selectedFsEntries s.focusedSide
  if entries = [] then none else (s.fsScopeForSide s.focusedSide).map fun scope => (scope, entries)

/-- What is renamed when a name has been entered. -/
def beginRenameSelection (s : Workspace) : Option FsEntryRef :=
  match s.selectedFsEntries s.focusedSide with
  | [entry] => if s.focusedSide = .remote ∧ (s.fsScopeForSide s.focusedSide).isNone then none else some entry
  | _ => none

end Workspace

inductive PaneOp
  | focusPane (side : PaneSide)
  | selectIndex (side : PaneSide) (visibleIndex : Nat)
  | moveSelection (side : PaneSide) (offset : Int)
  | extendSelectionTo (side : PaneSide) (visibleIndex : Nat)
  | moveSelectionExtend (side : PaneSide) (offset : Int)
  | selectAllVisible (side : PaneSide)
  | pageSelection (side : PaneSide) (direction : Int)
  | toggleSelectionAt (side : PaneSide) (visibleIndex : Nat)
  | typeSelect (side : PaneSide) (typed : List Char)
  | openFilterPane
  | filterChanged (side : PaneSide) (value : List Char)
  | clearFilter (side : PaneSide)
  -- in this window or in another one
  | setShowHidden (value : Bool)
  | setSort (field : FileSortField) (direction : SortDirection)
  | navigatePaneLocal (target : List Char)
  | navigatePaneRemote (target : List Char) (ofHistory sent : Bool)
  | refreshFocusedPane (sent : Bool)
  | reloadLocalDirectory (tabId : TabId)
  | reloadRemoteDirectory (tabId : TabId) (path : List Char) (sent : Bool)
  | localDirectoryRead (tabId : TabId) (requestEpoch : Nat) (path : List Char) (result : Option Listing)
  | remoteDirLoaded (tabId : TabId) (path : List Char) (listing : Listing)
  | openNewTab (tabId : TabId) (title : String) (path : List Char)
  | activateTab (tabId : TabId)
  | closeTabById (tabId : TabId)
  | beginConnect (tabId : TabId) (sessionId : SessionId)
  -- a host key that has changed, or a sign-in that was refused
  | connectFailed (tabId : TabId) (error : UserFacingError)
  | tabConnected (tabId : TabId) (sessionId : SessionId) (connectedAt : Timestamp) (navigateTo : List Char) (sent : Bool)
  | tabDisconnected (tabId : TabId) (reason : Tabs.DisconnectReason)

def Workspace.next (folding : CaseFolding) (s : Workspace) : PaneOp → Workspace
  | .focusPane side => { s with focusedSide := side }
  | .selectIndex side visibleIndex => s.selectIndex folding side visibleIndex
  | .moveSelection side offset => s.moveSelection folding side offset
  | .extendSelectionTo side visibleIndex => s.extendSelectionTo folding side visibleIndex
  | .moveSelectionExtend side offset => s.moveSelectionExtend folding side offset
  | .selectAllVisible side => s.selectAllVisible folding side
  | .pageSelection side direction => s.pageSelection folding side direction
  | .toggleSelectionAt side visibleIndex => s.toggleSelectionAt folding side visibleIndex
  | .typeSelect side typed => s.jumpToTypeSelectMatch folding side typed
  | .openFilterPane => s.openFilterPane
  | .filterChanged side value => s.filterChanged side value
  | .clearFilter side => s.clearFilter side
  | .setShowHidden value => { s with showHidden := value }
  | .setSort field direction => s.setSort folding field direction
  | .navigatePaneLocal target => s.navigatePaneLocal target
  | .navigatePaneRemote target ofHistory sent => s.navigatePaneRemote target ofHistory sent
  | .refreshFocusedPane sent => s.refreshFocusedPane sent
  | .reloadLocalDirectory tabId => s.readLocalDirectory tabId
  | .reloadRemoteDirectory tabId path sent => s.readRemoteDirectory tabId path true sent
  | .localDirectoryRead tabId requestEpoch path result => s.localDirectoryRead folding tabId requestEpoch path result
  | .remoteDirLoaded tabId path listing => s.remoteDirLoaded folding tabId path listing
  | .openNewTab tabId title path => s.openNewTab tabId title path
  | .activateTab tabId => s.activateTab tabId
  | .closeTabById tabId => s.closeTabById tabId
  | .beginConnect tabId sessionId => s.beginConnect tabId sessionId
  | .connectFailed tabId error => s.connectFailed tabId error
  | .tabConnected tabId sessionId connectedAt navigateTo sent => s.tabConnected tabId sessionId connectedAt navigateTo sent
  | .tabDisconnected tabId reason => s.tabDisconnected tabId reason

/-- A window before its first tab. -/
def Workspace.new : Workspace := {}

/-- The panes as a machine that says after each step what Delete and Rename would act on. -/
def paneMachine (folding : CaseFolding) : Machine Workspace PaneOp (Option (FsScope × List FsEntryRef) × Option FsEntryRef) where
  step s op := (s.next folding op, ((s.next folding op).requestDeleteSelection, (s.next folding op).beginRenameSelection))

end MacSftp.Panes
