import MacSftp.Planner.DownloadScans

namespace MacSftp.DownloadPlanning

open Lib Program UploadPlanning

def Scan.visits (scan : Scan) : List (List RemoteEntry) := scan.2.visits scan.1

/-- The entries that the listing of the directory adds to the plan. -/
def Scan.found (scan : Scan) (listing : List (Rose RemoteEntry)) : List (List RemoteEntry) :=
  (listing.map Rose.label).map fun entry => scan.route ++ [entry]

/-- The directories that wait or are scanned, when the entries of the order have been planned. -/
structure Walking (fs : RemoteFs) (source : List Char) (order : List (List RemoteEntry)) (scans : List Scan) : Prop where
  ready : ∀ scan ∈ scans, scan.Ready fs source
  planned : ∀ scan ∈ scans, scan.route ∈ order
  parents : ParentsFirst order

structure Scan.Child (fs : RemoteFs) (source : List Char) (scan : Scan) (c : Rose RemoteEntry) : Prop where
  shown : fs.Shows (fs.entryPath (scan.path fs source) c.label.name) c
  named : ∀ name ∈ (scan.route ++ [c.label]).tail.map RemoteEntry.name, Named name
  safe : Safe c

section Scans

variable {fs : RemoteFs} {plan : RemoteDownloadPlanner} {planner : Planner} {source root : List Char}

theorem Scan.Ready.children {scan : Scan} (ready : scan.Ready fs source) :
    ∃ children, scan.2 = .node scan.2.label children ∧ (∀ c ∈ children, scan.Child fs source c) ∧
      fs.node (scan.path fs source) = some (.directory (children.map fun c => c.label.name)) := by
  obtain ⟨children, node, listed, below⟩ := ready.shown.listing ready.dir
  have safe := ready.safe
  rw [node] at safe
  cases safe with
  | node here rest =>
    refine ⟨children, node, fun c mem => ⟨below c mem, ?_, rest c mem⟩, listed⟩
    rw [scan.tail_route]
    intro name inside
    rcases List.mem_append.mp inside with above | last
    · exact ready.named name above
    · rw [List.mem_singleton.mp last]
      exact here c mem

theorem Scan.Child.ready {scan : Scan} {c : Rose RemoteEntry} (child : scan.Child fs source c) (dir : c.label.isDir = true) :
    Scan.Ready fs source (scan.route, c) := by
  refine ⟨child.named, ?_, dir, child.safe⟩
  have path : Scan.path fs source (scan.route, c) = fs.entryPath (scan.path fs source) c.label.name := by
    show pathOf fs source ((scan.route ++ [c.label]).tail.map RemoteEntry.name) = _
    rw [scan.tail_route, pathOf_concat]
    rfl
  rw [path]
  exact child.shown

theorem listed_children {directory : List Char} {children : List (Rose RemoteEntry)} {names : List (List Char)}
    {entries : List DirEntry}
    (same : names.Perm (children.map fun c => c.label.name)) (tells : List.Forall₂ (fs.Tells directory) names entries) :
    ∃ order : List (Rose RemoteEntry), order.Perm children ∧
      List.Forall₂ (fun c => fs.Tells directory c.label.name) order entries := by
  obtain ⟨sorted, told, moved⟩ := List.perm_comp_forall₂ same.symm tells
  rw [List.forall₂_map_left_iff] at told
  have back : Relation.Comp List.Perm (List.Forall₂ fun c : Rose RemoteEntry =>
    fs.Tells directory c.label.name) children entries := by
    rw [← List.forall₂_comp_perm_eq_perm_comp_forall₂]
    exact ⟨sorted, told, moved⟩
  obtain ⟨order, perm, told⟩ := back
  exact ⟨order, perm.symm, told⟩

theorem subdirectories_visits {route : List RemoteEntry} {path : List Char} {children : List (Rose RemoteEntry)}
    (shown : ∀ c ∈ children, fs.Shows (fs.entryPath path c.label.name) c) :
    (subdirectories route children).flatMap Scan.visits = Rose.allVisits route children := by
  induction children with
  | nil => rfl
  | cons c children ih =>
    have rest := ih fun d mem => shown d (List.mem_cons_of_mem c mem)
    rw [subdirectories_cons, List.flatMap_append, rest, Rose.allVisits]
    congr 1
    by_cases dir : c.label.isDir = true
    · simp [subdirectories, dir, Scan.visits]
    · simp [subdirectories, dir, (shown c List.mem_cons_self).visits (Bool.eq_false_of_not_eq_true dir)]

theorem subdirectories_sizes (route : List RemoteEntry) (children : List (Rose RemoteEntry)) :
    Rose.sizes ((subdirectories route children).map Prod.snd) ≤ Rose.sizes children := by
  induction children with
  | nil => exact Nat.le_refl _
  | cons c children ih =>
    rw [subdirectories_cons, List.map_append, Rose.sizes_append, Rose.sizes]
    refine Nat.add_le_add ?_ ih
    by_cases dir : c.label.isDir = true
    · simp [subdirectories, dir, Rose.sizes]
    · simp [subdirectories, dir, Rose.sizes]

theorem sizes_perm {trees others : List (Rose RemoteEntry)} (same : trees.Perm others) : Rose.sizes trees = Rose.sizes others := by
  induction same with
  | nil => rfl
  | cons c _ ih => rw [Rose.sizes, Rose.sizes, ih]
  | swap c d rest =>
    simp only [Rose.sizes]
    omega
  | trans _ _ first second => exact first.trans second

theorem Scan.visits_perm {scan : Scan} {children order : List (Rose RemoteEntry)} (node : scan.2 = .node scan.2.label children)
    (below : ∀ c ∈ children, scan.Child fs source c) (same : order.Perm children) :
    scan.visits.Perm (scan.found order ++ (subdirectories scan.route order).flatMap Scan.visits) := by
  have is : scan.visits = children.map (fun c => scan.1 ++ [scan.2.label, c.label]) ++ Rose.allVisits scan.route children := by
    rw [Scan.visits, node, Rose.visits]
    rfl
  have front : scan.found order = order.map fun c => scan.1 ++ [scan.2.label, c.label] := by
    rw [Scan.found, List.map_map]
    refine List.map_congr_left fun c _ => ?_
    show scan.1 ++ [scan.2.label] ++ [c.label] = _
    rw [List.append_assoc]
    rfl
  have shown : ∀ c ∈ order, fs.Shows (fs.entryPath (scan.path fs source) c.label.name) c := fun c mem =>
    (below c (same.mem_iff.mp mem)).shown
  rw [is, front, subdirectories_visits shown, Rose.allVisits_eq_flatMap, Rose.allVisits_eq_flatMap]
  exact (same.symm.map _).append (same.symm.flatMap_right _)

theorem Walking.scanned {order : List (List RemoteEntry)} {scans others more : List Scan} {scan : Scan}
    {children listing : List (Rose RemoteEntry)} (walking : Walking fs source order scans) (one : scans.Perm (scan :: others))
    (node : scan.2 = .node scan.2.label children) (below : ∀ c ∈ children, scan.Child fs source c) (same : listing.Perm children)
    (pushed : more.Perm (subdirectories scan.route listing ++ others)) :
    Walking fs source (order ++ scan.found listing) more ∧ Rose.sizes (more.map Prod.snd) < Rose.sizes (scans.map Prod.snd) ∧
      (order ++ scan.found listing ++ more.flatMap Scan.visits).Perm (order ++ scans.flatMap Scan.visits) := by
  have planned : scan.route ∈ order := walking.planned scan (one.mem_iff.mpr List.mem_cons_self)
  have old : ∀ other ∈ others, other ∈ scans := fun other mem => one.mem_iff.mpr (List.mem_cons_of_mem _ mem)
  refine ⟨⟨fun other mem => ?_, fun other mem => ?_, walking.parents.concat planned _⟩, ?_, ?_⟩
  · rcases List.mem_append.mp (pushed.mem_iff.mp mem) with new | waits
    · obtain ⟨c, inside, rfl⟩ := List.mem_map.mp new
      obtain ⟨listed, dir⟩ := List.mem_filter.mp inside
      exact (below c (same.mem_iff.mp listed)).ready dir
    · exact walking.ready other (old other waits)
  · rcases List.mem_append.mp (pushed.mem_iff.mp mem) with new | waits
    · obtain ⟨c, inside, rfl⟩ := List.mem_map.mp new
      have listed := List.mem_of_mem_filter inside
      exact List.mem_append_right _ (List.mem_map_of_mem (List.mem_map_of_mem listed))
    · exact List.mem_append_left _ (walking.planned other (old other waits))
  · have fewer := subdirectories_sizes scan.route listing
    have whole : scan.2.size = Rose.sizes children + 1 := by
      rw [node]
      rfl
    rw [sizes_perm (pushed.map Prod.snd), sizes_perm (one.map Prod.snd), List.map_append, Rose.sizes_append,
      List.map_cons, Rose.sizes,
      whole]
    rw [sizes_perm same] at fewer
    omega
  · rw [List.append_assoc]
    refine List.Perm.append_left order ?_
    have after : (more.flatMap Scan.visits).Perm
        ((subdirectories scan.route listing).flatMap Scan.visits ++ others.flatMap Scan.visits) := by
      rw [← List.flatMap_append]
      exact pushed.flatMap_right _
    have here := (Scan.visits_perm node below same).symm.append_right (others.flatMap Scan.visits)
    rw [List.append_assoc] at here
    exact ((after.append_left _).trans here).trans (one.flatMap_right Scan.visits).symm

theorem joinNext_returns {emissions : List Emission} {flying : List Scan} (ready : ∀ scan ∈ flying, scan.Ready fs source)
    (some_ : flying.map (Scan.path fs source) ≠ []) :
    Returns fs (Emits plan emissions planner) (ask (.joinNext (flying.map (Scan.path fs source))))
      (fun (joined : Joined (flying.map (Scan.path fs source)).length) past w => Emits plan emissions planner past w ∧
        ∃ before scan after entries, flying = before ++ scan :: after ∧
          (∃ index : Fin (flying.map (Scan.path fs source)).length, joined = .listed index (.ok entries) ∧
            (flying.map (Scan.path fs source)).eraseIdx index = (before ++ after).map (Scan.path fs source)) ∧
          ∃ children order, scan.2 = .node scan.2.label children ∧ (∀ c ∈ children, scan.Child fs source c) ∧ order.Perm children ∧
            List.Forall₂ (fun c => fs.Tells (scan.path fs source) c.label.name) order entries) := by
  apply ask_returns (.joinNext (flying.map (Scan.path fs source))) rfl
  rintro joined before after ⟨same, ends⟩
  refine ⟨same, ?_⟩
  obtain ⟨index, entries, rfl, tells⟩ := ends some_
  have inside : index.val < flying.length := by simpa using index.isLt
  have scanned : (flying.map (Scan.path fs source)).get index = (flying[index.val]).path fs source := by simp
  rw [scanned] at tells
  obtain ⟨children, node, below, listed⟩ := (ready _ (List.getElem_mem inside)).children
  obtain ⟨names, perm, told⟩ := tells _ listed
  obtain ⟨order, moved, told⟩ := listed_children perm told
  refine ⟨flying.take index, flying[index.val], flying.drop (index + 1), entries, ?_, ⟨index, rfl, ?_⟩,
    children, order, node, below,
    moved, told⟩
  · rw [← List.drop_eq_getElem_cons inside, List.take_append_drop]
  · rw [List.eraseIdx_map, List.eraseIdx_eq_take_drop_succ]

theorem scanLoop_returns (joins : fs.Joins) {fuel : Nat} {order : List (List RemoteEntry)} {flying waiting : List Scan}
    (walking : Walking fs source order (flying ++ waiting)) (enough : Rose.sizes ((flying ++ waiting).map Prod.snd) < fuel) :
    Returns fs (Emits plan (order.map (Emission.at fs source root)) planner)
      (plan.scanLoop ⟨source⟩ ⟨root⟩ fuel planner (waiting.map (Scan.path fs source)) (flying.map (Scan.path fs source)))
      (fun planner past w => ∃ all, Emits plan (all.map (Emission.at fs source root)) planner past w ∧
        all.Perm (order ++ (flying ++ waiting).flatMap Scan.visits) ∧ ParentsFirst all) := by
  induction fuel generalizing order flying waiting planner with
  | zero => exact absurd enough (Nat.not_lt_zero _)
  | succ fuel ih =>
    unfold RemoteDownloadPlanner.scanLoop
    apply returns_bind ensureNotCancelled_returns
    intro _
    obtain ⟨started, left, is, spawned⟩ := spawnScans_split (flying.map (Scan.path fs source)) (waiting.map (Scan.path fs source))
    obtain ⟨begun, rest, rfl, rfl, rfl⟩ := List.map_eq_append_iff.mp is
    by_cases idle : (spawnScans (flying.map (Scan.path fs source)) ((begun ++ rest).map (Scan.path fs source))).1 = []
    · obtain ⟨noFlight, noWait⟩ := spawnScans_idle idle
      rw [List.map_eq_nil_iff] at noFlight noWait
      rw [if_pos idle, noFlight, noWait]
      refine returns_pure fun past w emits => ⟨order, emits, ?_, walking.parents⟩
      rw [List.append_nil, List.flatMap_nil, List.append_nil]
    · rw [if_neg idle]
      rw [spawned] at idle ⊢
      rw [← List.map_append] at idle ⊢
      rw [← List.append_assoc] at walking enough ⊢
      apply returns_bind (joinNext_returns (fun scan mem => walking.ready scan (List.mem_append_left rest mem)) idle)
      intro joined
      apply returns_fact
      rintro ⟨before, scan, after, entries, split, ⟨index, rfl, erased⟩, children, listing, node, below, same, tells⟩
      have one : (flying ++ begun ++ rest).Perm (scan :: (before ++ after ++ rest)) := by
        rw [split, ← List.cons_append]
        exact List.perm_middle.append_right rest
      have returned : Returns fs (Emits plan (order.map (Emission.at fs source root)) planner)
          (orFail "Server Folder Unavailable" (.ok entries)) (fun listed past w =>
            Emits plan (order.map (Emission.at fs source root)) planner past w ∧ listed = entries) :=
        returns_pure fun _ _ emits => ⟨emits, rfl⟩
      dsimp only
      apply returns_bind returned
      intro listed
      apply returns_fact
      rintro rfl
      have listedChild : ∀ c ∈ listing, scan.Child fs source c := fun c mem => below c (same.mem_iff.mp mem)
      apply returns_bind (planEntries_returns joins (fun c mem => (listedChild c mem).named) (fun c mem =>
        (listedChild c mem).shown)
        tells rest)
      rintro ⟨further, pending⟩
      apply returns_fact
      rintro ⟨more, (rfl : pending = _), pushed⟩
      have joined : (before ++ after ++ more).Perm (subdirectories scan.route listing ++ (before ++ after ++ rest)) :=
        (pushed.append_left (before ++ after)).trans (List.perm_append_comm_assoc _ _ _)
      obtain ⟨next, less, whole⟩ := walking.scanned one node below same joined
      have emitted : order.map (Emission.at fs source root) ++ (listing.map fun c =>
        Emission.at fs source root (scan.route ++ [c.label])) =
          (order ++ scan.found listing).map (Emission.at fs source root) := by
        rw [List.map_append, Scan.found, List.map_map, List.map_map]
        rfl
      rw [emitted, erased]
      refine returns_mono (ih next (by omega)) ?_
      rintro last past w ⟨all, emits, perm, parents⟩
      exact ⟨all, emits, perm.trans whole, parents⟩

structure Present (fs : RemoteFs) (source : List Char) (t : Rose RemoteEntry) : Prop where
  shown : fs.Shows source t
  safe : Safe t

theorem metadata_returns {emissions : List Emission} {node : RemoteNode} (is : fs.node source = some node) :
    Returns fs (Emits plan emissions planner) (RemoteDownloadPlanner.metadata ⟨source⟩) (fun metadata past w =>
      Emits plan emissions planner past w ∧ metadata.kind = node.kind ∧ (metadata.kind ≠ .dir → metadata.size = node.size)) := by
  unfold RemoteDownloadPlanner.metadata
  apply returns_bind (ask_returns (.symlinkMetadata source) rfl fun _ _ _ quiet => ⟨quiet.1, quiet.2 node is⟩)
  intro known
  apply returns_fact
  rintro ⟨metadata, rfl, facts⟩
  exact returns_pure fun _ _ emits => ⟨emits, facts⟩

theorem plan_returns (joins : fs.Joins) {fuel : Nat} {t : Rose RemoteEntry} (present : Present fs source t) (enough : t.size < fuel)
    (download : plan.command.direction = .download) (given : plan.command.sources = [.remote ⟨source⟩])
    (destination : plan.command.destination = .local ⟨root⟩) :
    Returns fs (Emits plan [] {}) (plan.plan fuel) (fun planner past w => ∃ order,
      Emits plan (order.map (Emission.at fs source root)) planner past w ∧ order.Perm (t.routes []) ∧ ParentsFirst order) := by
  obtain ⟨node, is, size, dir⟩ := present.shown.node
  have parents : ParentsFirst [[t.label]] := by
    intro before route entry after is
    refine Or.inl ?_
    cases before with
    | nil => exact (List.append_eq_singleton_iff.mp (List.cons.inj is).1.symm).elim And.left fun other =>
        absurd other.2 (List.cons_ne_nil _ _)
    | cons first before => exact absurd (List.cons.inj is).2.symm (List.append_ne_nil_of_right_ne_nil _ (List.cons_ne_nil _ _))
  have first (size' : Option Nat) (same : size' = t.label.size) :
      ([⟨source, root, size'⟩] : List Emission) = [[t.label]].map (Emission.at fs source root) := by
    rw [same]
    rfl
  unfold RemoteDownloadPlanner.plan
  apply returns_bind ensureNotCancelled_returns
  intro _
  rw [if_neg (not_not_intro download), given, destination]
  apply returns_bind (metadata_returns is)
  intro metadata
  apply returns_fact
  rintro ⟨kind, known⟩
  by_cases folder : metadata.kind = .dir
  · have isDir : t.label.isDir = true := dir.mpr (kind.symm.trans folder)
    have nothing : some 0 = t.label.size := by
      rw [size]
      cases node with
      | item kind' plain size => exact absurd (kind.symm.trans folder) plain
      | directory names => rfl
    have ready : Scan.Ready fs source ([], t) := ⟨fun _ mem => absurd mem List.not_mem_nil, present.shown, isDir, present.safe⟩
    have walking : Walking fs source [[t.label]] ([] ++ [([], t)]) := by
      refine ⟨fun scan mem => ?_, fun scan mem => ?_, parents⟩
      · rw [List.mem_singleton.mp mem]
        exact ready
      · rw [List.mem_singleton.mp mem]
        exact List.mem_singleton_self _
    have emitted := @emitChild_returns fs plan [] {} source root (some 0)
    rw [List.nil_append, first (some 0) nothing] at emitted
    rw [if_pos folder]
    apply returns_bind emitted
    intro after
    have loop := @scanLoop_returns fs plan after source root joins fuel [[t.label]] [] [([],
      t)] walking (by simpa [Rose.sizes] using enough)
    refine returns_mono loop ?_
    rintro planner past w ⟨all, emits, perm, parents⟩
    refine ⟨all, emits, perm.trans ?_, parents⟩
    rw [List.nil_append, List.flatMap_singleton]
    exact (Rose.routes_perm t []).symm
  · have leaf : t.label.isDir = false := Bool.eq_false_of_not_eq_true fun isDir => folder (kind.trans (dir.mp isDir))
    have emitted := @emitChild_returns fs plan [] {} source root metadata.size
    rw [List.nil_append, first _ ((known folder).trans size.symm)] at emitted
    rw [if_neg folder]
    refine returns_mono emitted ?_
    intro planner past w emits
    have only := Rose.routes_perm t []
    rw [present.shown.visits leaf] at only
    exact ⟨_, emits, only.symm, parents⟩

/-- What has been planned and published when all jobs have been published. -/
structure Finished (plan : RemoteDownloadPlanner) (emissions : List Emission) (jobs : List TransferJob)
    (events : List TransferEvent)
    (batches : List TransferPlanProgress) : Prop where
  events : events = progressEvents batches ++ [.planCompleted plan.planId]
  batched : Batched plan.planId (emissions.map Emission.bytes) jobs batches
  all : batches.flatMap TransferPlanProgress.childJobs = jobs
  made : List.Forall₂ (fun job emission => job = emission.job plan job.id) jobs emissions
  ascending : jobs.Pairwise fun a b => a.id.raw < b.id.raw

theorem isCancelled_returns (sent : List TransferEvent) :
    Returns fs (fun past w => sentEvents past = sent ∧ 0 ≤ w) isCancelled
      (fun cancelled past w => (sentEvents past = sent ∧ 0 ≤ w) ∧ cancelled = false) := by
  apply triple_perform
  rintro (cancelled : Bool) past w before after ⟨is, -⟩ between ⟨same, never⟩
  refine ⟨⟨?_, Nat.zero_le after⟩, never⟩
  rw [← is, sentEvents, List.filterMap_append]
  exact List.append_nil _

theorem postCompleted_returns (sent : List TransferEvent) :
    Returns fs (fun past w => sentEvents past = sent ∧ 0 ≤ w) (ask (.post (.planCompleted plan.planId)))
      (fun (finished : Bool) past w => (sentEvents past = sent ++ [.planCompleted plan.planId] ∧ 0 ≤ w) ∧ finished = true) := by
  apply triple_perform
  rintro (answer : Bool) past w before after ⟨is, -⟩ between ⟨same, arrived⟩
  refine ⟨⟨?_, Nat.zero_le after⟩, arrived⟩
  exact (sentEvents_post past _ before answer after).trans (congrArg (· ++ [TransferEvent.planCompleted plan.planId]) is)

theorem finish_returns {emissions : List Emission} :
    Returns fs (Emits plan emissions planner) (plan.finish planner)
      (fun finished past _ => (∃ batches, Finished plan emissions planner.childJobs (sentEvents past) batches) ∧
        finished = true) := by
  rintro past w asked w' result emits run
  obtain ⟨batches, sent, pending⟩ := emits.published
  obtain ⟨more, events, jobs, batched, all⟩ := pending.flush
  have sends : Returns fs (fun past later => sentEvents past = progressEvents batches ∧ 0 ≤ later) (plan.finish planner)
      (fun finished past later =>
        (sentEvents past = progressEvents batches ++ progressEvents more ++ [.planCompleted plan.planId] ∧ 0 ≤ later) ∧
          finished = true) := by
    apply returns_bind (isCancelled_returns _)
    intro cancelled
    apply returns_fact
    rintro rfl
    rw [events]
    apply returns_bind (returns_attempt (sendProgress_returns 0 (progressEvents batches) (progressEvents more)))
    intro outcome
    have delivered : Returns fs (fun past later => sentEvents past = progressEvents batches ++ progressEvents more ∧ 0 ≤ later)
        (isCancelled >>= fun cancelled => if cancelled = true then plan.finishError cancelledTransferError >>= fun _ => pure false
          else ask (.post (.planCompleted plan.planId)))
        (fun (finished : Bool) past later =>
          (sentEvents past = progressEvents batches ++ progressEvents more ++ [.planCompleted plan.planId] ∧ 0 ≤ later) ∧
            finished = true) := by
      apply returns_bind (isCancelled_returns _)
      intro cancelled
      apply returns_fact
      rintro rfl
      exact postCompleted_returns _
    rintro past w asked w' result ⟨_, rfl, is⟩ run
    exact delivered past w asked w' result is run
  have ended := sends past w asked w' result ⟨sent, Nat.zero_le w⟩ run
  cases result with
  | error e => exact ended.elim
  | ok finished =>
    obtain ⟨⟨is, -⟩, done⟩ := ended
    refine ⟨⟨batches ++ more, ?_, batched, all, emits.jobs, emits.ascending⟩, done⟩
    rw [is, progressEvents, progressEvents, progressEvents, List.map_append]

theorem planRemoteDownload_returns (joins : fs.Joins) {fuel : Nat} {t : Rose RemoteEntry} (present : Present fs source t)
    (enough : t.size < fuel) (download : plan.command.direction = .download) (given : plan.command.sources = [.remote ⟨source⟩])
    (destination : plan.command.destination = .local ⟨root⟩) :
    Returns fs (fun past _ => past = []) (plan.planRemoteDownload fuel) (fun jobs past _ => ∃ made, jobs = some made ∧
      ∃ order batches, order.Perm (t.routes []) ∧ ParentsFirst order ∧
        Finished plan (order.map (Emission.at fs source root)) made (sentEvents past) batches) := by
  have start : ∀ past w, past = [] → Emits plan [] {} past w := by
    rintro past w rfl
    exact ⟨⟨[], rfl, pending_start plan.planId⟩, .nil, .nil, fun _ mem => absurd mem List.not_mem_nil⟩
  unfold RemoteDownloadPlanner.planRemoteDownload
  apply returns_bind (returns_attempt (Triple.mono (plan_returns joins present enough download given destination) start
    fun _ _ _ post => post))
  intro outcome
  rintro past w asked w' result ⟨after, rfl, order, emits, perm, parents⟩ run
  have finished : Returns fs (Emits plan (order.map (Emission.at fs source root)) after)
      (plan.finish after >>= fun finished => pure (if finished = true then some after.childJobs else none)) (fun jobs past _ =>
        ∃ made, jobs = some made ∧ ∃ order batches, order.Perm (t.routes []) ∧ ParentsFirst order ∧
          Finished plan (order.map (Emission.at fs source root)) made (sentEvents past) batches) := by
    apply returns_bind finish_returns
    intro done
    apply returns_fact
    rintro rfl
    refine returns_pure ?_
    rintro past w ⟨batches, published⟩
    exact ⟨after.childJobs, rfl, order, batches, perm, parents, published⟩
  exact finished past w asked w' result emits run

end Scans

def knownTotal (sizes : List (Option Nat)) : Option Nat :=
  if none ∈ sizes then none else exactTotal (sizes.map fun size => size.getD 0)

theorem knownTotal_bytes (sizes : List (Option Nat)) :
    exactTotal (sizes.map fun size => size.getD (2 ^ 64)) = knownTotal sizes := by
  unfold knownTotal
  split_ifs with unknown
  · have large : 2 ^ 64 ≤ (sizes.map fun size => size.getD (2 ^ 64)).sum :=
      List.le_sum_of_mem (List.mem_map.mpr ⟨none, unknown, rfl⟩)
    exact if_neg (Nat.not_lt.mpr large)
  · congr 1
    refine List.map_congr_left fun size mem => ?_
    cases size with
    | none => exact absurd mem unknown
    | some size => rfl

theorem knownTotal_perm {sizes others : List (Option Nat)} (same : sizes.Perm others) : knownTotal sizes = knownTotal others := by
  rw [← knownTotal_bytes, ← knownTotal_bytes]
  exact exactTotal_perm (same.map _)

def sizeOf (route : List RemoteEntry) : Option Nat := route.getLast?.bind RemoteEntry.size

/-- Every entry at the source has one job, below its directory's and after it, and the batches publish the jobs as they are. -/
structure DownloadedExactly (fs : RemoteFs) (plan : RemoteDownloadPlanner) (source root : List Char) (t : Rose RemoteEntry)
    (jobs : List TransferJob) (events : List TransferEvent) (order : List (List RemoteEntry))
    (batches : List TransferPlanProgress) : Prop where
  entries : order.Perm (t.routes [])
  once : order.Nodup
  parents : ParentsFirst order
  made : List.Forall₂ (fun job (route : List RemoteEntry) => job = plan.childJob job.id
    ⟨pathOf fs source (route.tail.map RemoteEntry.name)⟩ ⟨destinationOf root (route.tail.map RemoteEntry.name)⟩) jobs order
  ascending : jobs.Pairwise fun a b => a.id.raw < b.id.raw
  events : events = progressEvents batches ++ [.planCompleted plan.planId]
  published : batches.flatMap TransferPlanProgress.childJobs = jobs
  own : ∀ batch ∈ batches, batch.planId = plan.planId
  first : ∀ batch ∈ batches.head?, batch.childJobs.length = 1
  bounded : ∀ batch ∈ batches, batch.childJobs.length ≤ planProgressBatchSize
  counts : ∀ before batch after, batches = before ++ batch :: after →
    batch.plannedCount = ((before ++ [batch]).flatMap TransferPlanProgress.childJobs).length
  totals : ∀ batch ∈ batches, batch.totalBytes = knownTotal ((order.take batch.plannedCount).map sizeOf)
  total : ∀ batch ∈ batches.getLast?, batch.totalBytes = knownTotal ((t.routes []).map sizeOf)

theorem RemoteFs.Shows.distinct {fs : RemoteFs} {path : List Char} {t : Rose RemoteEntry} (shown : fs.Shows path t) :
    t.Distinct := by
  induction shown with
  | item is => exact .node List.nodup_nil fun _ mem => absurd mem List.not_mem_nil
  | @directory path name children is rest ih =>
    refine .node ?_ ih
    have names := fs.distinct path _ is
    have mapped : children.map (fun c => c.label.name) = (children.map Rose.label).map RemoteEntry.name := List.map_map.symm
    rw [mapped] at names
    exact names.of_map RemoteEntry.name

theorem Finished.exactly {fs : RemoteFs} {plan : RemoteDownloadPlanner} {source root : List Char} {t : Rose RemoteEntry}
    {jobs : List TransferJob} {events : List TransferEvent} {order : List (List RemoteEntry)} {batches : List TransferPlanProgress}
    (distinct : t.Distinct) (entries : order.Perm (t.routes [])) (parents : ParentsFirst order)
    (finished : Finished plan (order.map (Emission.at fs source root)) jobs events batches) :
    DownloadedExactly fs plan source root t jobs events order batches := by
  have made := finished.made
  rw [List.forall₂_map_right_iff] at made
  have apart : (([] ++ [t.label]) :: t.visits []).Nodup := by
    refine List.Pairwise.imp ?_ (Rose.visits_ordered distinct [])
    rintro earlier later unrelated rfl
    exact unrelated (List.prefix_refl _)
  have once : order.Nodup := (entries.trans (Rose.routes_perm t [])).nodup_iff.mpr apart
  have sizes : (order.map (Emission.at fs source root)).map Emission.bytes = (order.map sizeOf).map fun size =>
    size.getD (2 ^ 64) := by
    rw [List.map_map, List.map_map]
    rfl
  have totals : ∀ batch ∈ batches, batch.totalBytes = knownTotal ((order.take batch.plannedCount).map sizeOf) := by
    intro batch mem
    rw [finished.batched.totals batch mem, sizes, ← List.map_take, knownTotal_bytes, List.map_take]
  refine ⟨entries, once, parents, made, finished.ascending, finished.events, finished.all, finished.batched.own,
    finished.batched.first, finished.batched.bounded, finished.batched.counts, totals, ?_⟩
  intro batch last
  obtain ⟨before, rfl⟩ := List.getLast?_eq_some_iff.mp last
  have count := finished.batched.counts before batch [] rfl
  rw [finished.all, made.length_eq] at count
  rw [totals batch (List.mem_append_right before List.mem_cons_self), count, List.take_length]
  exact knownTotal_perm (entries.map sizeOf)

/-- What is planned does not depend on the order in which directories are listed, or in which their scans end. -/
theorem downloaded_exactly {fs : RemoteFs} {plan : RemoteDownloadPlanner} {fuel : Nat} {source root : List Char}
    {t : Rose RemoteEntry}
    (joins : fs.Joins) (present : Present fs source t) (enough : t.size < fuel) (download : plan.command.direction = .download)
    (given : plan.command.sources = [.remote ⟨source⟩]) (destination : plan.command.destination = .local ⟨root⟩) {w w' : Nat}
    {asked : PlanLog} {result : Except PlanStop (Option (List TransferJob))}
    (run : Run OthersFetch fs.Quiet (plan.planRemoteDownload fuel) w asked w' result) :
    ∃ jobs order batches, result = .ok (some jobs) ∧
      DownloadedExactly fs plan source root t jobs (sentEvents asked) order batches := by
  have returned := planRemoteDownload_returns joins present enough download given destination [] w asked w' result rfl run
  cases result with
  | error e => exact returned.elim
  | ok jobs =>
    obtain ⟨made, rfl, order, batches, perm, parents, finished⟩ := returned
    exact ⟨made, order, batches, rfl, finished.exactly present.shown.distinct perm parents⟩

def RemoteNode.metadata (node : RemoteNode) : Metadata := ⟨node.kind, node.size⟩

namespace RemoteFs

def listing (fs : RemoteFs) (path : List Char) : List DirEntry :=
  match fs.node path with
  | some (.directory names) => names.reverse.map fun name =>
    let child := fs.entryPath path name
    ⟨child, ((fs.node child).map RemoteNode.kind).getD .file, (fs.node child).bind RemoteNode.size⟩
  | _ => []

/-- A quiet world in which the first of the scans ends, and nobody else takes ids. -/
def reply (fs : RemoteFs) (op : PlanOp) (w : Nat) : op.Ans × Nat :=
  match op with
  | .isCancelled => (false, w)
  | .send _ => (Sent.delivered, w)
  | .post _ => (true, w)
  | .fetchTransferId => (w, w + 1)
  | .symlinkMetadata path => (some (.ok (((fs.node path).map RemoteNode.metadata).getD ⟨.file, none⟩)), w)
  | .joinNext [] => (Joined.aborted, w)
  | .joinNext (first :: rest) => (Joined.listed ⟨0, Nat.zero_lt_succ rest.length⟩ (.ok (fs.listing first)), w)

theorem listing_tells (fs : RemoteFs) {path : List Char} {names : List (List Char)} (is : fs.node path = some (.directory names)) :
    List.Forall₂ (fs.Tells path) names.reverse (fs.listing path) := by
  unfold listing
  rw [is]
  refine List.forall₂_map_right_iff.mpr (List.forall₂_same.mpr fun name _ => ⟨rfl, fun node found => ?_⟩)
  have known : fs.node (fs.entryPath path name) = some node := found
  simp [known]

theorem reply_quiet (fs : RemoteFs) (op : PlanOp) (w : Nat) : fs.Quiet op (fs.reply op w).1 w (fs.reply op w).2 := by
  cases op with
  | isCancelled => exact ⟨rfl, rfl⟩
  | send event => exact ⟨rfl, rfl⟩
  | post event => exact ⟨rfl, rfl⟩
  | fetchTransferId => exact ⟨rfl, rfl⟩
  | symlinkMetadata path =>
    refine ⟨rfl, fun node is => ⟨node.metadata, ?_, rfl, fun _ => rfl⟩⟩
    show some (Except.ok (((fs.node path).map RemoteNode.metadata).getD ⟨.file, none⟩)) = some (Except.ok node.metadata)
    rw [is]
    rfl
  | joinNext inFlight =>
    cases inFlight with
    | nil => exact ⟨rfl, fun never => absurd rfl never⟩
    | cons first rest =>
      exact ⟨rfl, fun _ => ⟨⟨0, Nat.zero_lt_succ rest.length⟩, fs.listing first, rfl, fun names is =>
        ⟨names.reverse, List.reverse_perm names, fs.listing_tells is⟩⟩⟩

end RemoteFs

def smallServer : RemoteFs where
  node := fun path =>
    if path = ['/', 's'] then some (.directory [['d'], ['l']])
    else if path = ['/', 's', '/', 'd'] then some (.directory [['x']])
    else if path = ['/', 's', '/', 'd', '/', 'x'] then some (.item .file (by decide) (some 4))
    else if path = ['/', 's', '/', 'l'] then some (.item .symlink (by decide) none)
    else none
  distinct := by
    intro path names is
    split_ifs at is
    all_goals cases is
    all_goals decide
  entryPath := fun parent name => parent ++ '/' :: name

def smallTree : Rose RemoteEntry :=
  .node ⟨['s'], true, some 0⟩
    [.node ⟨['d'], true, some 0⟩ [.node ⟨['x'], false, some 4⟩ []], .node ⟨['l'], false, none⟩ []]

theorem smallTree_present : Present smallServer ['/', 's'] smallTree where
  shown := by
    refine .directory rfl fun c mem => ?_
    rcases List.mem_pair.mp mem with rfl | rfl
    · refine .directory rfl fun c mem => ?_
      obtain rfl := List.mem_singleton.mp mem
      exact .item rfl
    · exact .item rfl
  safe := by
    have named : ∀ name ∈ [['d'], ['l'], ['x']], Named name := by
      intro name mem
      rw [List.mem_cons, List.mem_pair] at mem
      rcases mem with rfl | rfl | rfl
      all_goals exact ⟨by decide, by decide, by decide, by decide, by decide⟩
    refine .node (fun c mem => ?_) fun c mem => ?_
    · rcases List.mem_pair.mp mem with rfl | rfl
      · exact named _ (by decide)
      · exact named _ (by decide)
    · rcases List.mem_pair.mp mem with rfl | rfl
      · refine .node (fun c mem => ?_) fun c mem => ?_
        · obtain rfl := List.mem_singleton.mp mem
          exact named _ (by decide)
        · obtain rfl := List.mem_singleton.mp mem
          exact .node (fun _ never => absurd never List.not_mem_nil) fun _ never => absurd never List.not_mem_nil
      · exact .node (fun _ never => absurd never List.not_mem_nil) fun _ never => absurd never List.not_mem_nil

def smallDownload : RemoteDownloadPlanner where
  command :=
    { tabId := ⟨1⟩
      sessionEpoch := 1
      profileId := ⟨1⟩
      direction := .download
      sources := [.remote ⟨['/', 's']⟩]
      destination := .local ⟨['/', 'h']⟩
      metadataPolicy := {}
      conflictPolicy := .ask }
  planId := ⟨1⟩
  createdAt := ⟨1⟩

def smallRun : PlanLog × Nat × Except PlanStop (Option (List TransferJob)) :=
  play smallServer.reply (smallDownload.planRemoteDownload 5) 7

theorem downloaded_exactly_small : ∃ jobs order batches, smallRun.2.2 = .ok (some jobs) ∧
    DownloadedExactly smallServer smallDownload ['/', 's'] ['/', 'h'] smallTree jobs (sentEvents smallRun.1) order batches := by
  have run : Run OthersFetch smallServer.Quiet (smallDownload.planRemoteDownload 5) 7 smallRun.1 smallRun.2.1 smallRun.2.2 :=
    play_run (fun w : Nat => Nat.le_refl w) smallServer.reply_quiet _ 7
  exact downloaded_exactly (fun _ _ => Or.inl rfl) smallTree_present (by decide) rfl rfl rfl run

end MacSftp.DownloadPlanning
