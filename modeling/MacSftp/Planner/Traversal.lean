import MacSftp.Lib.Trees
import MacSftp.Planner.Batches
import MacSftp.Planner.LocalUpload

namespace MacSftp.UploadPlanning

open Lib Program

inductive LocalNode
  | file (size : Nat)
  | symlink
  | directory (names : List (List Char))
  deriving DecidableEq, Repr

namespace LocalNode

def fileType : LocalNode → LocalFileType
  | file _ => .file
  | symlink => .symlink
  | directory _ => .directory

/-- The length of a symbolic link and of a directory is not looked at. -/
def MetadataIs (node : LocalNode) (metadata : LocalMetadata) : Prop :=
  metadata.fileType = node.fileType ∧ ∀ size, node = file size → metadata.len = size

end LocalNode

/-- A file system that stays as it is. The names in a directory are distinct, in the order in which it is read. -/
structure LocalFs where
  node : List Char → Option LocalNode
  distinct : ∀ path names, node path = some (.directory names) → names.Nodup

inductive LocalKind
  | file (size : Nat)
  | symlink
  | directory
  deriving DecidableEq, Repr

structure LocalEntry where
  name : List Char
  kind : LocalKind
  deriving DecidableEq, Repr

/-- The bytes that an entry adds to the total. -/
def LocalKind.size : LocalKind → Nat
  | file size => size
  | symlink | directory => 0

/-- The file system has a tree at a path. -/
inductive LocalFs.Shows (fs : LocalFs) : List Char → Rose LocalEntry → Prop
  | file {path name : List Char} {size : Nat} (is : fs.node path = some (.file size)) : Shows fs path (.node ⟨name, .file size⟩ [])
  | symlink {path name : List Char} (is : fs.node path = some .symlink) : Shows fs path (.node ⟨name, .symlink⟩ [])
  | directory {path name : List Char} {children : List (Rose LocalEntry)}
      (is : fs.node path = some (.directory (children.map fun c => c.label.name)))
      (rest : ∀ c ∈ children, Shows fs (joinPath path c.label.name) c) : Shows fs path (.node ⟨name, .directory⟩ children)

/-- Neither a cancellation nor a failure of the file system. Where a directory entry does not tell its type or its
metadata, the file system does. -/
def Quiet (fs : LocalFs) : (op : PlanOp) → op.Ans → Nat → Nat → Prop
  | .isCancelled, cancelled, before, after => after = before ∧ cancelled = false
  | .send _, delivered, before, after => after = before ∧ delivered = true
  | .fetchTransferId, id, before, after => after = before + 1 ∧ id = before
  | .symlinkMetadata path, known, before, after =>
    after = before ∧ ∀ node, fs.node path = some node → ∃ metadata, known = .ok metadata ∧ node.MetadataIs metadata
  | .readDir path, listed, before, after =>
    after = before ∧ ∀ names, fs.node path = some (.directory names) → listed = .ok (names.map .ok)
  | .entryFileType path, known, before, after =>
    after = before ∧ ∀ node fileType, fs.node path = some node → known = .ok fileType → fileType = node.fileType
  | .entryMetadata path, known, before, after =>
    after = before ∧ ∀ node metadata, fs.node path = some node → known = .ok metadata → node.MetadataIs metadata

/-- Other plans take transfer ids in the meantime. -/
def OthersFetch (before after : Nat) : Prop := before ≤ after

abbrev PlanLog := List (Asked Nat PlanOp PlanOp.Ans)

def PlanOp.event? : PlanOp → Option TransferEvent
  | send event => some event
  | _ => none

def sentEvents (asked : PlanLog) : List TransferEvent := asked.filterMap fun a => a.op.event?

structure Emission where
  source : List Char
  destination : RemotePath
  size : Nat

/-- What has been planned and published when these entries have been emitted. -/
structure Emits (plan : LocalUploadPlanner) (emissions : List Emission) (planner : Planner) (past : PlanLog) (next : Nat) :
    Prop where
  published : ∃ batches, sentEvents past = progressEvents batches ∧
    Pending plan.planId (emissions.map Emission.size) planner batches
  jobs : List.Forall₂ (fun job emission => job = plan.childJob .upload job.id (.local ⟨emission.source⟩)
      (.remote emission.destination))
    planner.childJobs emissions
  ascending : planner.childJobs.Pairwise fun a b => a.id.raw < b.id.raw
  fetched : ∀ job ∈ planner.childJobs, job.id.raw < next

theorem Emits.look {plan : LocalUploadPlanner} {emissions : List Emission} {planner : Planner} {past : PlanLog}
    {w before after : Nat} (emits : Emits plan emissions planner past w) (between : OthersFetch w before) {op : PlanOp}
    {answer : op.Ans}
    (silent : op.event? = none) (same : before ≤ after) :
    Emits plan emissions planner (past ++ [⟨before, op, answer, after⟩]) after := by
  have sent : sentEvents (past ++ [⟨before, op, answer, after⟩]) = sentEvents past := by
    rw [sentEvents, List.filterMap_append, List.filterMap_cons, silent]
    exact List.append_nil _
  refine ⟨?_, emits.jobs, emits.ascending, fun job mem => ?_⟩
  · rw [sent]
    exact emits.published
  · exact Nat.lt_of_lt_of_le (emits.fetched job mem) (Nat.le_trans between same)

/-- In a quiet world the program returns, and the assertion holds of what it returns. -/
def Returns (fs : LocalFs) {α : Type} (P : PlanLog → Nat → Prop) (p : PlanM α) (Q : α → PlanLog → Nat → Prop) : Prop :=
  Triple OthersFetch (Quiet fs) P p (outcome Q fun _ _ => False)

section Rules

variable {fs : LocalFs} {α β : Type} {P : PlanLog → Nat → Prop} {Q : α → PlanLog → Nat → Prop} {R : β → PlanLog → Nat → Prop}

theorem returns_pure {a : α} (h : ∀ past w, P past w → Q a past w) : Returns fs P (pure a) Q := triple_pure h

theorem returns_bind {p : PlanM β} {f : β → PlanM α} (first : Returns fs P p R) (rest : ∀ b, Returns fs (R b) (f b) Q) :
    Returns fs P (p >>= f) Q :=
  triple_seq first (fun _ _ never => never) rest

theorem returns_fact {fact : Prop} {p : PlanM α} (h : fact → Returns fs P p Q) : Returns fs (fun past w => P past w ∧ fact) p Q :=
  fun past w asked w' result pre run => h pre.2 past w asked w' result pre.1 run

theorem returns_attempt {p : PlanM α} (h : Returns fs P p Q) :
    Returns fs P p.attempt (fun result past w => ∃ a, result = .ok a ∧ Q a past w) := by
  refine triple_attempt (Triple.mono h (fun _ _ pre => pre) ?_)
  intro result past w post
  cases result with
  | ok a => exact ⟨a, rfl, post⟩
  | error e => exact post.elim

end Rules

section Planning

variable {fs : LocalFs} {plan : LocalUploadPlanner} {emissions : List Emission} {planner : Planner}

theorem ask_returns (op : PlanOp) {fact : op.Ans → Prop} (silent : op.event? = none)
    (quiet : ∀ answer before after, Quiet fs op answer before after → after = before ∧ fact answer) :
    Returns fs (Emits plan emissions planner) (ask op) (fun answer past w => Emits plan emissions planner past w ∧
      fact answer) := by
  apply triple_perform
  intro answer past w before after emits between step
  obtain ⟨same, is⟩ := quiet answer before after step
  exact ⟨emits.look between silent (Nat.le_of_eq same.symm), is⟩

theorem ensureNotCancelled_returns :
    Returns fs (Emits plan emissions planner) ensureNotCancelled (fun _ => Emits plan emissions planner) := by
  apply returns_bind (ask_returns .isCancelled rfl fun _ _ _ quiet => quiet)
  intro cancelled
  apply returns_fact
  rintro rfl
  exact returns_pure fun _ _ emits => emits

theorem entryFileType_returns {path : List Char} {node : LocalNode} (is : fs.node path = some node) :
    Returns fs (Emits plan emissions planner) (entryFileType path)
      (fun fileType past w => Emits plan emissions planner past w ∧ fileType = node.fileType) := by
  apply returns_bind (ask_returns (.entryFileType path) rfl fun _ _ _ quiet => quiet)
  intro answer
  apply returns_fact
  intro tells
  cases answer with
  | ok fileType => exact returns_pure fun _ _ emits => ⟨emits, tells node fileType is rfl⟩
  | error e =>
    apply returns_bind (ask_returns (.symlinkMetadata path) rfl fun _ _ _ quiet => quiet)
    intro metadata
    apply returns_fact
    intro given
    obtain ⟨metadata, rfl, matches_⟩ := given node is
    exact returns_pure fun _ _ emits => ⟨emits, matches_.1⟩

theorem entryMetadata_returns {path : List Char} {node : LocalNode} (is : fs.node path = some node) :
    Returns fs (Emits plan emissions planner) (entryMetadata path)
      (fun metadata past w => Emits plan emissions planner past w ∧ node.MetadataIs metadata) := by
  apply returns_bind (ask_returns (.entryMetadata path) rfl fun _ _ _ quiet => quiet)
  intro answer
  apply returns_fact
  intro tells
  cases answer with
  | ok metadata => exact returns_pure fun _ _ emits => ⟨emits, tells node metadata is rfl⟩
  | error e =>
    apply returns_bind (ask_returns (.symlinkMetadata path) rfl fun _ _ _ quiet => quiet)
    intro metadata
    apply returns_fact
    intro given
    obtain ⟨metadata, rfl, matches_⟩ := given node is
    exact returns_pure fun _ _ emits => ⟨emits, matches_⟩

theorem sentEvents_send (past : PlanLog) (event : TransferEvent) (before : Nat) (delivered : Bool) (after : Nat) :
    sentEvents (past ++ [⟨before, .send event, delivered, after⟩]) = sentEvents past ++ [event] := by
  rw [sentEvents, List.filterMap_append]
  rfl

theorem sendEvent_returns (w₀ : Nat) (sent : List TransferEvent) (event : TransferEvent) :
    Returns fs (fun past w => sentEvents past = sent ∧ w₀ ≤ w) (sendEvent event)
      (fun delivered past w => (sentEvents past = sent ++ [event] ∧ w₀ ≤ w) ∧ delivered = true) := by
  apply triple_perform
  rintro delivered past w before after ⟨is, later⟩ between ⟨same, arrived⟩
  refine ⟨⟨?_, ?_⟩, arrived⟩
  · exact (sentEvents_send past event before delivered after).trans (congrArg (· ++ [event]) is)
  · rw [same]
    exact Nat.le_trans later between

theorem sendProgress_returns (w₀ : Nat) (sent events : List TransferEvent) :
    Returns fs (fun past w => sentEvents past = sent ∧ w₀ ≤ w) (sendProgress events)
      (fun _ past w => sentEvents past = sent ++ events ∧ w₀ ≤ w) := by
  induction events generalizing sent with
  | nil =>
    apply returns_pure
    intro past w is
    rwa [List.append_nil]
  | cons event events ih =>
    apply returns_bind (sendEvent_returns w₀ sent event)
    intro delivered
    apply returns_fact
    rintro rfl
    rw [List.append_cons sent event events]
    exact ih (sent ++ [event])

theorem emitChild_returns (source : List Char) (destination : RemotePath) (size : Nat) :
    Returns fs (Emits plan emissions planner) (plan.emitChild planner source destination size)
      (Emits plan (emissions ++ [⟨source, destination, size⟩])) := by
  apply returns_bind ensureNotCancelled_returns
  intro _
  have fetch : Returns fs (Emits plan emissions planner) (ask .fetchTransferId) (fun (id : Nat) past w =>
      Emits plan emissions planner past w ∧ (∀ job ∈ planner.childJobs, job.id.raw < id) ∧ id < w) := by
    apply triple_perform
    rintro (id : Nat) past w before after emits between ⟨moved, is⟩
    replace is : id = before := is
    have same : before ≤ after := by omega
    refine ⟨emits.look between rfl same, fun job mem => ?_, by omega⟩
    rw [is]
    exact Nat.lt_of_lt_of_le (emits.fetched job mem) between
  apply returns_bind fetch
  intro (id : Nat)
  rintro past w asked w' result ⟨emits, above, taken⟩ run
  obtain ⟨batches, sent, pending⟩ := emits.published
  obtain ⟨more, events, jobs, emitted⟩ := pending.emit (plan.childJob .upload ⟨id⟩ (.local ⟨source⟩) (.remote destination)) size
  have rest : Returns fs (fun past later => sentEvents past = progressEvents batches ∧ w ≤ later)
      (sendProgress (planner.emitChild plan.planId (plan.childJob .upload ⟨id⟩ (.local ⟨source⟩) (.remote destination))
          (some size)).2 >>=
        fun _ => pure (planner.emitChild plan.planId (plan.childJob .upload ⟨id⟩ (.local ⟨source⟩) (.remote destination))
            (some size)).1)
      (Emits plan (emissions ++ [⟨source, destination, size⟩])) := by
    apply returns_bind (sendProgress_returns w (progressEvents batches) _)
    intro _
    apply returns_pure
    rintro past later ⟨is, moved⟩
    refine ⟨⟨batches ++ more, ?_, ?_⟩, ?_, ?_, ?_⟩
    · rw [is, events]
      exact List.map_append.symm
    · rw [List.map_append]
      exact emitted
    · rw [jobs]
      exact List.rel_append emits.jobs (.cons rfl .nil)
    · rw [jobs]
      refine List.pairwise_append.mpr ⟨emits.ascending, List.pairwise_singleton _ _, fun job mem last isLast => ?_⟩
      rw [List.mem_singleton.mp isLast]
      exact above job mem
    · rw [jobs]
      intro job mem
      rcases List.mem_append.mp mem with before | last
      · exact Nat.lt_of_lt_of_le (emits.fetched job before) moved
      · rw [List.mem_singleton.mp last]
        exact Nat.lt_of_lt_of_le taken moved
  exact rest past w asked w' result ⟨sent, Nat.le_refl w⟩ run

end Planning

/-- The entry at the end of a route that starts with the source itself. -/
def Emission.at (source : List Char) (destinationRoot : RemotePath) (route : List LocalEntry) : Emission where
  source := (route.tail.map LocalEntry.name).foldl joinPath source
  destination := (route.map LocalEntry.name).foldl RemotePath.join destinationRoot
  size := (route.getLast?.map fun entry => entry.kind.size).getD 0

def Emission.directory (emission : Emission) : PlannedDirectory := (emission.source, emission.destination)

def Safe : Rose LocalEntry → Prop := Rose.All fun entry _ => unsafeName entry.name = false

/-- The directories among some children. -/
def subdirectoryOf (emission : Emission) (child : Rose LocalEntry) : List PlannedDirectory :=
  if child.label.kind = .directory then [emission.directory] else []

section Walk

variable {fs : LocalFs} {plan : LocalUploadPlanner} {emissions : List Emission} {planner : Planner} {source : List Char}
  {root : RemotePath}

theorem emission_child {route : List LocalEntry} (rooted : route ≠ []) (entry : LocalEntry) :
    Emission.at source root (route ++ [entry]) =
      ⟨joinPath (Emission.at source root route).source entry.name, (Emission.at source root route).destination.join entry.name,
        entry.kind.size⟩ := by
  have tail : (route ++ [entry]).tail = route.tail ++ [entry] := List.tail_append_of_ne_nil rooted
  simp only [Emission.at, tail, List.map_append, List.foldl_append, List.getLast?_concat]
  rfl

def LocalNode.kind : LocalNode → LocalKind
  | file size => .file size
  | symlink => .symlink
  | directory _ => .directory

theorem LocalFs.Shows.kind {path : List Char} {t : Rose LocalEntry} (shown : fs.Shows path t) :
    ∃ node, fs.node path = some node ∧ t.label.kind = node.kind := by
  cases shown with
  | file is => exact ⟨_, is, rfl⟩
  | symlink is => exact ⟨_, is, rfl⟩
  | directory is rest => exact ⟨_, is, rfl⟩

theorem planNamed_returns {emission : Emission} {child : Rose LocalEntry} (shown : fs.Shows emission.source child)
    (size : emission.size = child.label.kind.size) (subdirectories : List PlannedDirectory) :
    Returns fs (Emits plan emissions planner) (plan.planNamed planner emission.source emission.destination subdirectories)
      (fun found past w => Emits plan (emissions ++ [emission]) found.1 past w ∧
        found.2 = subdirectories ++ subdirectoryOf emission child) := by
  have emitted (size' : Nat) (same : emission.size = size') : (⟨emission.source, emission.destination,
    size'⟩ : Emission) = emission := by
    rw [← same]
  have child_ (size' : Nat) (same : emission.size = size') :
      Returns fs (Emits plan emissions planner) (plan.emitChild planner emission.source emission.destination size')
        (Emits plan (emissions ++ [emission])) := by
    rw [← emitted size' same]
    exact emitChild_returns emission.source emission.destination size'
  obtain ⟨node, is, kind⟩ := shown.kind
  apply returns_bind (entryFileType_returns is)
  intro fileType
  apply returns_fact
  rintro rfl
  rw [kind] at size
  unfold subdirectoryOf
  rw [kind]
  cases node with
  | directory names =>
    apply returns_bind (child_ 0 size)
    intro after
    exact returns_pure fun _ _ emits => ⟨emits, rfl⟩
  | symlink =>
    apply returns_bind (child_ 0 size)
    intro after
    exact returns_pure fun _ _ emits => ⟨emits, (List.append_nil _).symm⟩
  | file len =>
    apply returns_bind (entryMetadata_returns is)
    intro metadata
    apply returns_fact
    intro matches_
    apply returns_bind (child_ metadata.len (size.trans (matches_.2 len rfl).symm))
    intro after
    exact returns_pure fun _ _ emits => ⟨emits, (List.append_nil _).symm⟩

theorem returns_ok {α : Type} (title : String) (a : α) :
    Returns fs (Emits plan emissions planner) (orFail title (.ok a)) (fun b past w => Emits plan emissions planner past w ∧
      b = a) :=
  returns_pure fun _ _ emits => ⟨emits, rfl⟩

theorem planEntry_returns {route : List LocalEntry} (rooted : route ≠ []) {child : Rose LocalEntry}
    (shown : fs.Shows (joinPath (Emission.at source root route).source child.label.name) child)
    (safe : unsafeName child.label.name = false) (subdirectories : List PlannedDirectory) :
    Returns fs (Emits plan emissions planner)
      (plan.planEntry planner (Emission.at source root route).directory (.ok child.label.name) subdirectories)
      (fun found past w => Emits plan (emissions ++ [Emission.at source root (route ++ [child.label])]) found.1 past w ∧
        found.2 = subdirectories ++ subdirectoryOf (Emission.at source root (route ++ [child.label])) child) := by
  have at_child := @emission_child source root route rooted child.label
  apply returns_bind ensureNotCancelled_returns
  intro _
  apply returns_bind (returns_ok "Item Couldn’t Be Read" child.label.name)
  intro name
  apply returns_fact
  rintro rfl
  rw [safe, at_child]
  exact @planNamed_returns fs plan emissions planner ⟨_, _, _⟩ child shown rfl subdirectories

theorem planEntries_returns {route : List LocalEntry} (rooted : route ≠ []) {children : List (Rose LocalEntry)}
    (shown : ∀ c ∈ children, fs.Shows (joinPath (Emission.at source root route).source c.label.name) c)
    (safe : ∀ c ∈ children, unsafeName c.label.name = false) (subdirectories : List PlannedDirectory) :
    Returns fs (Emits plan emissions planner)
      (plan.planEntries (Emission.at source root route).directory planner subdirectories (children.map fun c => .ok c.label.name))
      (fun found past w =>
        Emits plan (emissions ++ children.map fun c => Emission.at source root (route ++ [c.label])) found.1 past w ∧
          found.2 = subdirectories ++ children.flatMap fun c =>
            subdirectoryOf (Emission.at source root (route ++ [c.label])) c) := by
  induction children generalizing emissions planner subdirectories with
  | nil =>
    apply returns_pure
    intro past w emits
    simpa using emits
  | cons c children ih =>
    apply returns_bind (planEntry_returns rooted (shown c List.mem_cons_self) (safe c List.mem_cons_self) subdirectories)
    rintro ⟨after, found⟩
    apply returns_fact
    rintro (rfl : found = _)
    rw [List.map_cons, List.flatMap_cons, ← List.append_assoc subdirectories,
      List.append_cons emissions _ (children.map fun c => Emission.at source root (route ++ [c.label]))]
    exact ih (fun d mem => shown d (List.mem_cons_of_mem c mem)) (fun d mem => safe d (List.mem_cons_of_mem c mem)) _

/-- A directory on the stack, with the route that leads to it and its tree. -/
structure Stacked (fs : LocalFs) (source : List Char) (root : RemotePath) (directory : PlannedDirectory)
    (item : List LocalEntry × Rose LocalEntry) : Prop where
  is : directory = (Emission.at source root (item.1 ++ [item.2.label])).directory
  shown : fs.Shows directory.1 item.2
  kind : item.2.label.kind = .directory
  safe : Safe item.2

/-- The directories among the children of a node, as they are put on the stack. -/
def stackedChildren (route : List LocalEntry) (children : List (Rose LocalEntry)) : List (List LocalEntry × Rose LocalEntry) :=
  (children.filter fun c => c.label.kind = .directory).map fun c => (route, c)

theorem stackedChildren_directory (route : List LocalEntry) {c : Rose LocalEntry} (kind : c.label.kind = .directory)
    (children : List (Rose LocalEntry)) : stackedChildren route (c :: children) = (route, c) :: stackedChildren route children := by
  simp [stackedChildren, kind]

theorem stackedChildren_other (route : List LocalEntry) {c : Rose LocalEntry} (kind : c.label.kind ≠ .directory)
    (children : List (Rose LocalEntry)) : stackedChildren route (c :: children) = stackedChildren route children := by
  simp [stackedChildren, kind]

theorem stacked_children {route : List LocalEntry} {children : List (Rose LocalEntry)} (rooted : route ≠ [])
    (shown : ∀ c ∈ children, fs.Shows (joinPath (Emission.at source root route).source c.label.name) c)
    (safe : ∀ c ∈ children, Safe c) :
    List.Forall₂ (Stacked fs source root)
      (children.flatMap fun c => subdirectoryOf (Emission.at source root (route ++ [c.label])) c)
      (stackedChildren route children) := by
  induction children with
  | nil => exact .nil
  | cons c children ih =>
    have rest := ih (fun d mem => shown d (List.mem_cons_of_mem c mem)) fun d mem => safe d (List.mem_cons_of_mem c mem)
    rw [List.flatMap_cons, subdirectoryOf]
    by_cases kind : c.label.kind = .directory
    · rw [if_pos kind, stackedChildren_directory route kind]
      refine .cons ⟨rfl, ?_, kind, safe c List.mem_cons_self⟩ rest
      rw [emission_child rooted]
      exact shown c List.mem_cons_self
    · rw [if_neg kind, stackedChildren_other route kind]
      exact rest

theorem LocalFs.Shows.visits {path : List Char} {t : Rose LocalEntry} (shown : fs.Shows path t) (leaf : t.label.kind ≠ .directory)
    (route : List LocalEntry) : t.visits route = [] := by
  cases shown with
  | file is => rfl
  | symlink is => rfl
  | directory is rest => exact absurd rfl leaf

theorem stackedChildren_visits {route : List LocalEntry} {path : List Char} {children : List (Rose LocalEntry)}
    (shown : ∀ c ∈ children, fs.Shows (joinPath path c.label.name) c) :
    (stackedChildren route children).flatMap (fun item => item.2.visits item.1) = Rose.allVisits route children := by
  induction children with
  | nil => rfl
  | cons c children ih =>
    have rest := ih fun d mem => shown d (List.mem_cons_of_mem c mem)
    rw [Rose.allVisits, ← rest]
    by_cases kind : c.label.kind = .directory
    · rw [stackedChildren_directory route kind, List.flatMap_cons]
    · rw [stackedChildren_other route kind, (shown c List.mem_cons_self).visits kind, List.nil_append]

theorem stackedChildren_sizes (route : List LocalEntry) (children : List (Rose LocalEntry)) :
    Rose.sizes ((stackedChildren route children).map Prod.snd) ≤ Rose.sizes children := by
  induction children with
  | nil => exact Nat.le_refl _
  | cons c children ih =>
    by_cases kind : c.label.kind = .directory
    · rw [stackedChildren_directory route kind]
      exact Nat.add_le_add_left ih c.size
    · rw [stackedChildren_other route kind, Rose.sizes]
      omega

theorem LocalFs.Shows.listing {path : List Char} {t : Rose LocalEntry} (shown : fs.Shows path t)
    (kind : t.label.kind = .directory) :
    ∃ children, t = .node t.label children ∧ fs.node path = some (.directory (children.map fun c => c.label.name)) ∧
      ∀ c ∈ children, fs.Shows (joinPath path c.label.name) c := by
  cases shown with
  | file is => cases kind
  | symlink is => cases kind
  | directory is rest => exact ⟨_, rfl, is, rest⟩

theorem readDir_returns {path : List Char} {names : List (List Char)} (is : fs.node path = some (.directory names)) :
    Returns fs (Emits plan emissions planner) (ask (.readDir path))
      (fun listed past w => Emits plan emissions planner past w ∧ listed = .ok (names.map .ok)) :=
  ask_returns (.readDir path) rfl fun _ _ _ quiet => ⟨quiet.1, quiet.2 names is⟩

theorem planDirectory_returns {fuel : Nat} {stack : List PlannedDirectory} {items : List (List LocalEntry × Rose LocalEntry)}
    (stacked : List.Forall₂ (Stacked fs source root) stack items) (enough : Rose.sizes (items.map Prod.snd) ≤ fuel) :
    Returns fs (Emits plan emissions planner) (plan.planDirectory fuel planner stack)
      (Emits plan (emissions ++ (items.flatMap fun item => item.2.visits item.1).map (Emission.at source root))) := by
  induction fuel generalizing stack items emissions planner with
  | zero =>
    cases stacked with
    | nil =>
      apply returns_pure
      intro past w emits
      simpa using emits
    | @cons directory item stack items first rest =>
      have positive := Rose.size_pos item.2
      rw [List.map_cons, Rose.sizes] at enough
      omega
  | succ fuel ih =>
    cases stacked with
    | nil =>
      apply returns_pure
      intro past w emits
      simpa using emits
    | @cons directory item stack items first rest =>
      obtain ⟨route, t⟩ := item
      obtain ⟨rfl, shown, kind, safe⟩ := first
      obtain ⟨children, node, listed, below⟩ := shown.listing kind
      have rooted : route ++ [t.label] ≠ [] := List.append_ne_nil_of_right_ne_nil _ (List.cons_ne_nil _ _)
      have safeBelow : ∀ c ∈ children, Safe c := by
        rw [node] at safe
        cases safe with
        | node here rest => exact rest
      have safeNames : ∀ c ∈ children, unsafeName c.label.name = false := by
        intro c mem
        cases safeBelow c mem with
        | node here rest => exact here
      apply returns_bind ensureNotCancelled_returns
      intro _
      apply returns_bind (readDir_returns listed)
      intro answer
      apply returns_fact
      rintro rfl
      apply returns_bind (returns_ok "Folder Couldn’t Be Read" _)
      intro entries
      apply returns_fact
      rintro rfl
      rw [List.map_map]
      apply returns_bind (planEntries_returns rooted below safeNames [])
      rintro ⟨after, found⟩
      apply returns_fact
      rintro (rfl : found = _)
      have pushed : List.Forall₂ (Stacked fs source root)
          ((children.flatMap fun c => subdirectoryOf (Emission.at source root (route ++ [t.label] ++ [c.label])) c) ++ stack)
          (stackedChildren (route ++ [t.label]) children ++ items) :=
        List.rel_append (stacked_children rooted below safeBelow) rest
      have fits : Rose.sizes ((stackedChildren (route ++ [t.label]) children ++ items).map Prod.snd) ≤ fuel := by
        have fewer := stackedChildren_sizes (route ++ [t.label]) children
        have whole : t.size = Rose.sizes children + 1 := by
          rw [show t = .node t.label children from node]
          rfl
        rw [List.map_cons, Rose.sizes, whole] at enough
        rw [List.map_append, Rose.sizes_append]
        omega
      have order : ((route, t) :: items).flatMap (fun item => item.2.visits item.1) =
          children.map (fun c => route ++ [t.label] ++ [c.label]) ++
            (stackedChildren (route ++ [t.label]) children ++ items).flatMap fun item => item.2.visits item.1 := by
        rw [List.flatMap_cons, List.flatMap_append, stackedChildren_visits below, ← List.append_assoc]
        congr 1
        rw [show t = .node t.label children from node, Rose.visits]
        simp [Rose.label]
      rw [order, List.map_append, ← List.append_assoc, List.map_map]
      have top : (List.foldl (fun stack subdirectory => subdirectory :: stack) stack
          (([] ++ children.flatMap fun c : Rose LocalEntry =>
            subdirectoryOf (Emission.at source root (route ++ [t.label] ++ [c.label])) c).reverse)) =
          (children.flatMap fun c => subdirectoryOf (Emission.at source root (route ++ [t.label] ++ [c.label])) c) ++ stack := by
        rw [List.foldl_flip_cons_eq_append', List.reverse_reverse, List.nil_append]
      have loop := @ih (emissions ++ children.map (Emission.at source root ∘ fun c : Rose LocalEntry =>
        route ++ [t.label] ++ [c.label])) after _ _ pushed fits
      rw [← top] at loop
      exact loop

end Walk

end MacSftp.UploadPlanning
