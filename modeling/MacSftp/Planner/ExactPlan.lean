import MacSftp.Planner.Traversal

namespace MacSftp.UploadPlanning

open Lib Program

structure LocalSource where
  path : LocalPath
  tree : Rose LocalEntry

namespace LocalSource

/-- The source ends in a name, and the file system has its tree at its path. -/
structure Present (fs : LocalFs) (source : LocalSource) : Prop where
  name : fileName source.path.chars = some source.tree.label.name
  shown : fs.Shows source.path.chars source.tree
  safe : Safe source.tree

/-- A single source that is no directory goes to the destination itself. -/
def emission (source : LocalSource) (alone : Bool) (root : RemotePath) (route : List LocalEntry) : Emission :=
  if alone = true ∧ source.tree.label.kind ≠ .directory then
    { Emission.at source.path.chars root route with destination := root }
  else Emission.at source.path.chars root route

/-- The entries of the source in the order in which they are planned. -/
def order (source : LocalSource) : List (List LocalEntry) := [source.tree.label] :: source.tree.visits []

def entries (source : LocalSource) : List (List LocalEntry) := source.tree.routes []

theorem order_perm (source : LocalSource) : source.order.Perm source.entries := (Rose.routes_perm source.tree []).symm

end LocalSource

section Sources

variable {fs : LocalFs} {plan : LocalUploadPlanner} {emissions : List Emission} {planner : Planner} {root : RemotePath}

theorem safe_label {t : Rose LocalEntry} (safe : Safe t) : unsafeName t.label.name = false := by
  cases safe with
  | node here rest => exact here

theorem itemDestination_returns {name : List Char} (safe : unsafeName name = false) :
    Returns fs (Emits plan emissions planner) (plan.itemDestination root (some name)) (fun destination past w =>
      Emits plan emissions planner past w ∧ destination = if plan.command.sources.length = 1 then root else root.join name) := by
  unfold LocalUploadPlanner.itemDestination
  by_cases alone : plan.command.sources.length = 1
  · rw [if_pos alone, if_pos alone, Option.map_some, Option.getD_some, safe]
    exact returns_pure fun _ _ emits => ⟨emits, rfl⟩
  · rw [if_neg alone, if_neg alone]
    dsimp only
    rw [safe]
    exact returns_pure fun _ _ emits => ⟨emits, rfl⟩

theorem item_order {source : LocalSource} (present : source.Present fs) (leaf : source.tree.label.kind ≠ .directory)
    (alone : Bool) :
    source.order.map (source.emission alone root) =
      [⟨source.path.chars, if alone = true then root else root.join source.tree.label.name, source.tree.label.kind.size⟩] := by
  rw [LocalSource.order, present.shown.visits leaf, List.map_singleton, LocalSource.emission]
  cases alone with
  | true => rw [if_pos ⟨rfl, leaf⟩]; rfl
  | false => rw [if_neg (fun both => Bool.false_ne_true both.1)]; rfl

theorem planSource_returns {fuel : Nat} {source : LocalSource} (present : source.Present fs) (enough : source.tree.size ≤ fuel) :
    Returns fs (Emits plan emissions planner) (plan.planSource fuel planner source.path root)
      (Emits plan (emissions ++ source.order.map (source.emission (plan.command.sources.length = 1) root))) := by
  obtain ⟨node, is, kind⟩ := present.shown.kind
  have safe := safe_label present.safe
  apply returns_bind ensureNotCancelled_returns
  intro _
  apply returns_bind (ask_returns (.symlinkMetadata source.path.chars) rfl fun _ _ _ quiet => quiet)
  intro known
  apply returns_fact
  intro given
  obtain ⟨metadata, rfl, matches_⟩ := given node is
  apply returns_bind (returns_ok "Upload Item Unavailable" metadata)
  intro metadata
  apply returns_fact
  rintro rfl
  rw [matches_.1, present.name]
  by_cases folder : source.tree.label.kind = .directory
  · have type : node.fileType = .directory := by
      cases node with
      | directory names => rfl
      | symlink | file => rw [folder] at kind; cases kind
    rw [if_pos type]
    dsimp only
    rw [safe]
    have stacked : List.Forall₂ (Stacked fs source.path.chars root) [(source.path.chars, root.join source.tree.label.name)]
        [([], source.tree)] := .cons ⟨rfl, present.shown, folder, present.safe⟩ .nil
    have order : emissions ++ source.order.map (source.emission (plan.command.sources.length = 1) root) =
        emissions ++ [⟨source.path.chars, root.join source.tree.label.name, 0⟩] ++
          ([([], source.tree)].flatMap fun item : List LocalEntry × Rose LocalEntry => item.2.visits item.1).map
            (Emission.at source.path.chars root) := by
      have plain : source.emission (plan.command.sources.length = 1) root = Emission.at source.path.chars root :=
        funext fun route => if_neg fun both => both.2 folder
      have first : Emission.at source.path.chars root [source.tree.label] =
          ⟨source.path.chars, root.join source.tree.label.name, source.tree.label.kind.size⟩ := rfl
      rw [plain, LocalSource.order, List.map_cons, first, folder, List.flatMap_singleton, List.append_assoc]
      rfl
    rw [order]
    apply returns_bind (emitChild_returns source.path.chars (root.join source.tree.label.name) 0)
    intro after
    exact planDirectory_returns stacked (by simpa [Rose.sizes] using enough)
  · have type : node.fileType ≠ .directory := by
      cases node with
      | directory names => exact absurd kind folder
      | symlink | file => exact fun same => by cases same
    have size : (if node.fileType = .symlink then 0 else metadata.len) = source.tree.label.kind.size := by
      rw [kind]
      cases node with
      | directory names => exact absurd rfl type
      | symlink => rfl
      | file len => exact matches_.2 len rfl
    rw [if_neg type, size, item_order present folder]
    apply returns_bind (itemDestination_returns safe)
    intro destination
    apply returns_fact
    rintro rfl
    simp only [decide_eq_true_eq]
    exact emitChild_returns source.path.chars _ _

theorem planSources_returns {fuel : Nat} {sources : List LocalSource} (present : ∀ source ∈ sources, source.Present fs)
    (enough : ∀ source ∈ sources, source.tree.size ≤ fuel) :
    Returns fs (Emits plan emissions planner) (plan.planSources fuel root planner (sources.map fun source => .local source.path))
      (Emits plan (emissions ++ sources.flatMap fun source =>
        source.order.map (source.emission (plan.command.sources.length = 1) root))) := by
  induction sources generalizing emissions planner with
  | nil =>
    apply returns_pure
    intro past w emits
    simpa using emits
  | cons source sources ih =>
    rw [List.flatMap_cons, ← List.append_assoc]
    apply returns_bind (planSource_returns (present source List.mem_cons_self) (enough source List.mem_cons_self))
    intro after
    exact ih (fun other mem => present other (List.mem_cons_of_mem source mem)) fun other mem =>
      enough other (List.mem_cons_of_mem source mem)

/-- What has been planned and published when all jobs have been published. -/
structure Finished (plan : LocalUploadPlanner) (emissions : List Emission) (jobs : List TransferJob) (events : List TransferEvent)
    (batches : List TransferPlanProgress) : Prop where
  events : events = progressEvents batches ++ [.planCompleted plan.planId]
  batched : Batched plan.planId (emissions.map Emission.size) jobs batches
  all : batches.flatMap TransferPlanProgress.childJobs = jobs
  made : List.Forall₂ (fun job emission => job = plan.childJob .upload job.id (.local ⟨emission.source⟩)
      (.remote emission.destination))
    jobs emissions
  ascending : jobs.Pairwise fun a b => a.id.raw < b.id.raw

theorem isCancelled_returns (sent : List TransferEvent) :
    Returns fs (fun past w => sentEvents past = sent ∧ 0 ≤ w) isCancelled
      (fun cancelled past w => (sentEvents past = sent ∧ 0 ≤ w) ∧ cancelled = false) := by
  apply triple_perform
  rintro cancelled past w before after ⟨is, -⟩ between ⟨same, never⟩
  refine ⟨⟨?_, Nat.zero_le after⟩, never⟩
  rw [← is, sentEvents, List.filterMap_append]
  exact List.append_nil _

theorem finish_returns :
    Returns fs (Emits plan emissions planner) (plan.finish planner)
      (fun finished past _ => (∃ batches, Finished plan emissions planner.childJobs (sentEvents past) batches) ∧
        finished = true) := by
  rintro past w asked w' result emits run
  obtain ⟨batches, sent, pending⟩ := emits.published
  obtain ⟨more, events, jobs, batched, all⟩ := pending.flush
  have sends : Returns fs (fun past later => sentEvents past = progressEvents batches ∧ 0 ≤ later) (plan.finish planner)
      (fun finished past later =>
        (sentEvents past = progressEvents batches ++ progressEvents more ++ [.planCompleted plan.planId] ∧ 0 ≤ later) ∧
          finished = true) := by
    apply returns_bind (isCancelled_returns _)
    intro cancelled
    apply returns_fact
    rintro rfl
    rw [events]
    apply returns_bind (returns_attempt (sendProgress_returns 0 (progressEvents batches) (progressEvents more)))
    intro outcome
    have delivered : Returns fs (fun past later => sentEvents past = progressEvents batches ++ progressEvents more ∧ 0 ≤ later)
        (isCancelled >>= fun cancelled => if cancelled = true then plan.finishError cancelledError >>= fun _ => pure false
          else sendEvent (.planCompleted plan.planId))
        (fun finished past later =>
          (sentEvents past = progressEvents batches ++ progressEvents more ++ [.planCompleted plan.planId] ∧ 0 ≤ later) ∧
            finished = true) := by
      apply returns_bind (isCancelled_returns _)
      intro cancelled
      apply returns_fact
      rintro rfl
      exact sendEvent_returns 0 _ _
    rintro past w asked w' result ⟨_, rfl, is⟩ run
    exact delivered past w asked w' result is run
  have ended := sends past w asked w' result ⟨sent, Nat.zero_le w⟩ run
  cases result with
  | error e => exact ended.elim
  | ok finished =>
    obtain ⟨⟨is, -⟩, done⟩ := ended
    refine ⟨⟨batches ++ more, ?_, batched, all, emits.jobs, emits.ascending⟩, done⟩
    rw [is, progressEvents, progressEvents, progressEvents, List.map_append]

theorem planLocalUpload_returns {fuel : Nat} {sources : List LocalSource} (present : ∀ source ∈ sources, source.Present fs)
    (enough : ∀ source ∈ sources, source.tree.size ≤ fuel) (some_ : sources ≠ []) (upload : plan.command.direction = .upload)
    (given : plan.command.sources = sources.map fun source => .local source.path)
    (destination : plan.command.destination = .remote root) :
    Returns fs (fun past _ => past = []) (plan.planLocalUpload fuel) (fun jobs past _ => ∃ made, jobs = some made ∧
      ∃ batches, Finished plan (sources.flatMap fun source => source.order.map (source.emission (sources.length = 1) root)) made
        (sentEvents past) batches) := by
  have none_ : ¬ plan.command.direction = .download := by
    rw [upload]
    decide
  have nonempty : ¬ plan.command.sources = [] := by
    rw [given]
    simpa using some_
  have count : plan.command.sources.length = sources.length := by
    rw [given, List.length_map]
  have planned : Returns fs (Emits plan [] {}) (plan.planUpload fuel) (Emits plan
      (sources.flatMap fun source => source.order.map (source.emission (sources.length = 1) root))) := by
    unfold LocalUploadPlanner.planUpload
    rw [destination]
    dsimp only
    rw [if_neg nonempty, given, ← count]
    exact planSources_returns present enough
  have start : ∀ past w, past = [] → Emits plan [] {} past w := by
    rintro past w rfl
    exact ⟨⟨[], rfl, pending_start plan.planId⟩, .nil, .nil, fun _ mem => absurd mem List.not_mem_nil⟩
  unfold LocalUploadPlanner.planLocalUpload
  rw [if_neg none_]
  apply returns_bind (returns_attempt (Triple.mono planned start fun _ _ _ post => post))
  intro outcome
  rintro past w asked w' result ⟨after, rfl, emits⟩ run
  have finished : Returns fs (Emits plan (sources.flatMap fun source =>
    source.order.map (source.emission (sources.length = 1) root)) after)
      (plan.finish after >>= fun finished => pure (if finished = true then some after.childJobs else none)) (fun jobs past _ =>
        ∃ made, jobs = some made ∧ ∃ batches, Finished plan
          (sources.flatMap fun source => source.order.map (source.emission (sources.length = 1) root))
            made (sentEvents past) batches) := by
    apply returns_bind finish_returns
    intro done
    apply returns_fact
    rintro rfl
    exact returns_pure fun _ _ published => ⟨after.childJobs, rfl, published⟩
  exact finished past w asked w' result emits run

end Sources

/-- An entry of the source with the given index, by the route that leads to it from there. -/
structure PlannedEntry where
  index : Nat
  source : LocalSource
  route : List LocalEntry

namespace PlannedEntry

def emission (entry : PlannedEntry) (alone : Bool) (root : RemotePath) : Emission := entry.source.emission alone root entry.route

/-- The bytes of a regular file. -/
def size (entry : PlannedEntry) : Nat := (entry.route.getLast?.map fun last => last.kind.size).getD 0

/-- The entry itself, or a directory above it. -/
def Leads (entry below : PlannedEntry) : Prop := entry.index = below.index ∧ entry.route <+: below.route

end PlannedEntry

def indexed (routes : LocalSource → List (List LocalEntry)) (sources : List LocalSource) : List PlannedEntry :=
  sources.zipIdx.flatMap fun source => (routes source.1).map fun route => ⟨source.2, source.1, route⟩

/-- The sources and all their descendants. -/
def entriesOf (sources : List LocalSource) : List PlannedEntry := indexed LocalSource.entries sources

/-- Every entry has one job, in an order in which no directory comes after what is in it, and the batches publish the
jobs as they are. -/
structure PlannedExactly (plan : LocalUploadPlanner) (sources : List LocalSource) (alone : Bool) (root : RemotePath)
    (jobs : List TransferJob) (events : List TransferEvent) (order : List PlannedEntry)
    (batches : List TransferPlanProgress) : Prop where
  entries : order.Perm (entriesOf sources)
  parents : order.Pairwise fun earlier later => ¬ later.Leads earlier
  made : List.Forall₂ (fun job (entry : PlannedEntry) => job = plan.childJob .upload job.id
    (.local ⟨(entry.emission alone root).source⟩) (.remote (entry.emission alone root).destination)) jobs order
  ascending : jobs.Pairwise fun a b => a.id.raw < b.id.raw
  events : events = progressEvents batches ++ [.planCompleted plan.planId]
  published : batches.flatMap TransferPlanProgress.childJobs = jobs
  own : ∀ batch ∈ batches, batch.planId = plan.planId
  first : ∀ batch ∈ batches.head?, batch.childJobs.length = 1
  bounded : ∀ batch ∈ batches, batch.childJobs.length ≤ planProgressBatchSize
  counts : ∀ before batch after, batches = before ++ batch :: after →
    batch.plannedCount = ((before ++ [batch]).flatMap TransferPlanProgress.childJobs).length
  totals : ∀ batch ∈ batches, batch.totalBytes = exactTotal ((order.take batch.plannedCount).map PlannedEntry.size)
  total : ∀ batch ∈ batches.getLast?, batch.totalBytes = exactTotal ((entriesOf sources).map PlannedEntry.size)

theorem indexed_perm (sources : List LocalSource) : (indexed LocalSource.order sources).Perm (entriesOf sources) :=
  List.Perm.flatMap_left _ fun source _ => source.1.order_perm.map _

theorem LocalFs.Shows.distinct {fs : LocalFs} {path : List Char} {t : Rose LocalEntry} (shown : fs.Shows path t) : t.Distinct := by
  induction shown with
  | file is => exact .node List.nodup_nil fun _ mem => absurd mem List.not_mem_nil
  | symlink is => exact .node List.nodup_nil fun _ mem => absurd mem List.not_mem_nil
  | @directory path name children is rest ih =>
    refine .node ?_ ih
    have names := fs.distinct path _ is
    have mapped : children.map (fun c => c.label.name) = (children.map Rose.label).map LocalEntry.name := List.map_map.symm
    rw [mapped] at names
    exact names.of_map LocalEntry.name

theorem indexed_parents {fs : LocalFs} {sources : List LocalSource} (present : ∀ source ∈ sources, source.Present fs) :
    (indexed LocalSource.order sources).Pairwise fun earlier later => ¬ later.Leads earlier := by
  have indices : sources.zipIdx.Pairwise (fun a b => a.2 < b.2) := by
    apply List.pairwise_map.mp
    rw [List.zipIdx_map_snd]
    exact List.pairwise_lt_range'
  refine List.pairwise_flatMap.mpr ⟨fun source mem => ?_, indices.imp fun {a b} less x inA y inB leads => ?_⟩
  · have distinct := (present source.1 (List.fst_mem_of_mem_zipIdx mem)).shown.distinct
    refine List.pairwise_map.mpr ((Rose.visits_ordered distinct []).imp fun apart leads => apart leads.2)
  · obtain ⟨_, -, rfl⟩ := List.mem_map.mp inA
    obtain ⟨_, -, rfl⟩ := List.mem_map.mp inB
    exact absurd leads.1 (Nat.ne_of_gt less)

theorem indexed_emissions (sources : List LocalSource) (alone : Bool) (root : RemotePath) :
    (indexed LocalSource.order sources).map (fun entry => entry.emission alone root) =
      sources.flatMap fun source => source.order.map (source.emission alone root) := by
  have firsts := List.zipIdx_map_fst 0 sources
  rw [indexed, List.map_flatMap]
  conv_rhs => rw [← firsts, List.flatMap_map]
  exact List.flatMap_congr fun source _ => List.map_map

theorem emission_size (entry : PlannedEntry) (alone : Bool) (root : RemotePath) :
    (entry.emission alone root).size = entry.size := by
  unfold PlannedEntry.emission LocalSource.emission
  split_ifs <;> rfl

theorem Finished.exactly {fs : LocalFs} {plan : LocalUploadPlanner} {sources : List LocalSource} {root : RemotePath}
    {jobs : List TransferJob} {events : List TransferEvent} {batches : List TransferPlanProgress}
    (present : ∀ source ∈ sources, source.Present fs)
    (finished : Finished plan (sources.flatMap fun source =>
      source.order.map (source.emission (sources.length = 1) root)) jobs events batches) :
    PlannedExactly plan sources (sources.length = 1) root jobs events (indexed LocalSource.order sources) batches := by
  have emissions := indexed_emissions sources (sources.length = 1) root
  have made := finished.made
  rw [← emissions, List.forall₂_map_right_iff] at made
  have sizes : (sources.flatMap fun source => source.order.map (source.emission (sources.length = 1) root)).map Emission.size =
      (indexed LocalSource.order sources).map PlannedEntry.size := by
    rw [← emissions, List.map_map]
    exact List.map_congr_left fun entry _ => emission_size entry _ root
  have totals : ∀ batch ∈ batches,
      batch.totalBytes = exactTotal (((indexed LocalSource.order sources).take batch.plannedCount).map PlannedEntry.size) := by
    intro batch mem
    rw [finished.batched.totals batch mem, sizes, List.map_take]
  refine ⟨indexed_perm sources, indexed_parents present, made, finished.ascending, finished.events, finished.all,
    finished.batched.own, finished.batched.first, finished.batched.bounded, finished.batched.counts, totals, ?_⟩
  intro batch last
  obtain ⟨before, rfl⟩ := List.getLast?_eq_some_iff.mp last
  have count := finished.batched.counts before batch [] rfl
  rw [finished.all, made.length_eq] at count
  rw [totals batch (List.mem_append_right before List.mem_cons_self), count, List.take_length]
  exact exactTotal_perm ((indexed_perm sources).map PlannedEntry.size)

theorem planned_exactly {fs : LocalFs} {plan : LocalUploadPlanner} {fuel : Nat} {sources : List LocalSource} {root : RemotePath}
    (present : ∀ source ∈ sources, source.Present fs) (enough : ∀ source ∈ sources, source.tree.size ≤ fuel) (some_ : sources ≠ [])
    (upload : plan.command.direction = .upload) (given : plan.command.sources = sources.map fun source => .local source.path)
    (destination : plan.command.destination = .remote root) {w w' : Nat} {asked : PlanLog}
    {result : Except PlanStop (Option (List TransferJob))}
    (run : Run OthersFetch (Quiet fs) (plan.planLocalUpload fuel) w asked w' result) :
    ∃ jobs order batches, result = .ok (some jobs) ∧
      PlannedExactly plan sources (sources.length = 1) root jobs (sentEvents asked) order batches := by
  have returned := planLocalUpload_returns present enough some_ upload given destination [] w asked w' result rfl run
  cases result with
  | error e => exact returned.elim
  | ok jobs =>
    obtain ⟨made, rfl, batches, finished⟩ := returned
    exact ⟨made, indexed LocalSource.order sources, batches, rfl, finished.exactly present⟩

def found {α : Type} : Option α → Except IoError α
  | some a => .ok a
  | none => .error ⟨.notFound, "No such file or directory"⟩

namespace LocalNode

def metadata (node : LocalNode) : LocalMetadata := ⟨node.fileType, node.kind.size⟩

def listing : LocalNode → Option (List (Except IoError (List Char)))
  | directory names => some (names.map .ok)
  | file _ | symlink => none

theorem metadata_is (node : LocalNode) : node.MetadataIs node.metadata := by
  refine ⟨rfl, ?_⟩
  rintro size rfl
  rfl

end LocalNode

/-- A quiet world in which nobody else takes ids. -/
def quietReply (fs : LocalFs) (op : PlanOp) (w : Nat) : op.Ans × Nat :=
  match op with
  | .isCancelled => (false, w)
  | .send _ => (true, w)
  | .fetchTransferId => (w, w + 1)
  | .symlinkMetadata path => (found ((fs.node path).map LocalNode.metadata), w)
  | .readDir path => (found ((fs.node path).bind LocalNode.listing), w)
  | .entryFileType path => (found ((fs.node path).map LocalNode.fileType), w)
  | .entryMetadata path => (found ((fs.node path).map LocalNode.metadata), w)

theorem quietReply_sound (fs : LocalFs) (op : PlanOp) (w : Nat) : Quiet fs op (quietReply fs op w).1 w (quietReply fs op w).2 := by
  cases op with
  | isCancelled => exact ⟨rfl, rfl⟩
  | send event => exact ⟨rfl, rfl⟩
  | fetchTransferId => exact ⟨rfl, rfl⟩
  | symlinkMetadata path =>
    refine ⟨rfl, fun node is => ⟨node.metadata, ?_, node.metadata_is⟩⟩
    change found ((fs.node path).map LocalNode.metadata) = .ok node.metadata
    rw [is]
    rfl
  | readDir path =>
    refine ⟨rfl, fun names is => ?_⟩
    change found ((fs.node path).bind LocalNode.listing) = .ok (names.map .ok)
    rw [is]
    rfl
  | entryFileType path =>
    refine ⟨rfl, fun node fileType is known => ?_⟩
    change found ((fs.node path).map LocalNode.fileType) = .ok fileType at known
    rw [is] at known
    exact (Except.ok.inj known).symm
  | entryMetadata path =>
    refine ⟨rfl, fun node metadata is known => ?_⟩
    change found ((fs.node path).map LocalNode.metadata) = .ok metadata at known
    rw [is] at known
    obtain rfl : node.metadata = metadata := Except.ok.inj known
    exact node.metadata_is

theorem othersFetch_idle (w : Nat) : OthersFetch w w := Nat.le_refl w

/-- The run of the planner in a quiet world. -/
def quietRun (fs : LocalFs) (plan : LocalUploadPlanner) (fuel w : Nat) :
    PlanLog × Nat × Except PlanStop (Option (List TransferJob)) :=
  play (quietReply fs) (plan.planLocalUpload fuel) w

theorem quietRun_run (fs : LocalFs) (plan : LocalUploadPlanner) (fuel w : Nat) :
    Run OthersFetch (Quiet fs) (plan.planLocalUpload fuel) w (quietRun fs plan fuel w).1 (quietRun fs plan fuel w).2.1
      (quietRun fs plan fuel w).2.2 :=
  play_run othersFetch_idle (quietReply_sound fs) _ w

def smallFs : LocalFs where
  node := fun path =>
    if path = ['/', 'f'] then some (.file 3)
    else if path = ['/', 'd'] then some (.directory [['x']])
    else if path = ['/', 'd', '/', 'x'] then some (.file 4)
    else none
  distinct := by
    intro path names is
    split_ifs at is
    all_goals cases is
    exact List.nodup_singleton _

def fileSource : LocalSource := ⟨⟨['/', 'f']⟩, .node ⟨['f'], .file 3⟩ []⟩

def directorySource : LocalSource := ⟨⟨['/', 'd']⟩, .node ⟨['d'], .directory⟩ [.node ⟨['x'], .file 4⟩ []]⟩

theorem fileSource_present : fileSource.Present smallFs where
  name := by decide +kernel
  shown := .file rfl
  safe := .node (by decide) fun _ never => absurd never List.not_mem_nil

theorem directorySource_present : directorySource.Present smallFs where
  name := by decide +kernel
  shown := by
    refine .directory rfl fun c mem => ?_
    obtain rfl := List.mem_singleton.mp mem
    exact .file rfl
  safe := by
    refine .node (by decide) fun c mem => ?_
    obtain rfl := List.mem_singleton.mp mem
    exact .node (by decide) fun _ never => absurd never List.not_mem_nil

def uploadOf (sources : List LocalSource) : LocalUploadPlanner where
  command :=
    { tabId := ⟨1⟩
      sessionEpoch := 1
      profileId := ⟨1⟩
      direction := .upload
      sources := sources.map fun source => .local source.path
      destination := .remote ⟨['/', 'u']⟩
      metadataPolicy := {}
      conflictPolicy := .ask }
  planId := ⟨1⟩
  createdAt := ⟨1⟩

/-- A directory with a file in it, and a file. -/
theorem planned_exactly_small : ∃ jobs order batches,
    (quietRun smallFs (uploadOf [directorySource, fileSource]) 2 5).2.2 = .ok (some jobs) ∧
      PlannedExactly (uploadOf [directorySource, fileSource]) [directorySource, fileSource] false ⟨['/', 'u']⟩ jobs
        (sentEvents (quietRun smallFs (uploadOf [directorySource, fileSource]) 2 5).1) order batches := by
  have present : ∀ source ∈ [directorySource, fileSource], source.Present smallFs := by
    intro source mem
    rcases List.mem_pair.mp mem with rfl | rfl
    · exact directorySource_present
    · exact fileSource_present
  have enough : ∀ source ∈ [directorySource, fileSource], source.tree.size ≤ 2 := by
    intro source mem
    rcases List.mem_pair.mp mem with rfl | rfl <;> decide
  exact planned_exactly present enough (List.cons_ne_nil _ _) rfl rfl rfl (quietRun_run smallFs _ 2 5)

/-- A file that is uploaded alone goes to the destination itself, not below it. -/
theorem single_file_not_joined :
    ¬ ∀ (fs : LocalFs) (plan : LocalUploadPlanner) (fuel : Nat) (sources : List LocalSource) (root : RemotePath),
    (∀ source ∈ sources, source.Present fs) → (∀ source ∈ sources, source.tree.size ≤ fuel) → sources ≠ [] →
    plan.command.direction = .upload → (plan.command.sources = sources.map fun source => .local source.path) →
    plan.command.destination = .remote root → ∀ w w' asked result,
    Run OthersFetch (Quiet fs) (plan.planLocalUpload fuel) w asked w' result →
    ∃ jobs order batches, result = .ok (some jobs) ∧
      PlannedExactly plan sources false root jobs (sentEvents asked) order batches := by
  intro joined
  have present : ∀ source ∈ [fileSource], source.Present smallFs := by
    intro source mem
    rw [List.mem_singleton.mp mem]
    exact fileSource_present
  have enough : ∀ source ∈ [fileSource], source.tree.size ≤ 1 := by
    intro source mem
    rw [List.mem_singleton.mp mem]
    decide
  obtain ⟨jobs, order, batches, returned, planned⟩ :=
    joined smallFs (uploadOf [fileSource]) 1 [fileSource] ⟨['/', 'u']⟩ present enough
    (List.cons_ne_nil _ _) rfl rfl rfl 5 _ _ _ (quietRun_run smallFs _ 1 5)
  have only : jobs = [(uploadOf [fileSource]).childJob .upload ⟨5⟩ (.local ⟨['/', 'f']⟩) (.remote ⟨['/', 'u']⟩)] :=
    (Option.some.inj (Except.ok.inj returned)).symm
  have entry : order = [⟨0, fileSource, [⟨['f'], .file 3⟩]⟩] := List.perm_singleton.mp planned.entries
  have made := planned.made
  rw [only, entry, List.forall₂_cons] at made
  have destination : (⟨['/', 'u']⟩ : RemotePath) = ⟨['/', 'u', '/', 'f']⟩ :=
    TransferEndpoint.remote.inj (congrArg TransferJob.destination made.1)
  cases destination

end MacSftp.UploadPlanning
