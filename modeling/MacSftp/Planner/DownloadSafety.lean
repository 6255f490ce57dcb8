import MacSftp.Jobs.Siblings
import MacSftp.Lib.Adversaries
import MacSftp.Planner.RemoteDownload
import MacSftp.Transfer.Endings

namespace MacSftp

/-- A path that leads from the other one down, by names only. -/
def LocalPath.Below (path root : LocalPath) : Prop :=
  ∃ names : List (List Char), names ≠ [] ∧ components path.chars = components root.chars ++ names.map .normal

theorem splitOn_joinPath {root : List Char} (relative : List Char) (some_ : root ≠ []) :
    ∃ front, root.splitOn '/' = front ++ (if root.getLast? = some '/' then [[]] else []) ∧
      (joinPath root relative).splitOn '/' = front ++ relative.splitOn '/' ∧ front ≠ [] := by
  unfold joinPath
  rw [if_neg some_]
  by_cases slash : root.getLast? = some '/'
  · obtain ⟨front, rfl⟩ := List.getLast?_eq_some_iff.mp slash
    refine ⟨front.splitOn '/', ?_, ?_, List.splitOn_ne_nil '/' front⟩
    · rw [if_pos slash, List.splitOn_append_cons_self]
      rfl
    · rw [if_pos slash, List.append_assoc, List.singleton_append, List.splitOn_append_cons_self]
  · refine ⟨root.splitOn '/', ?_, ?_, List.splitOn_ne_nil '/' root⟩
    · rw [if_neg slash, List.append_nil]
    · rw [if_neg slash, List.splitOn_append_cons_self]

theorem joinPath_head {root relative : List Char} (some_ : root ≠ []) : (joinPath root relative).head? = root.head? := by
  unfold joinPath
  rw [if_neg some_]
  split <;> exact head_append some_ _

namespace DownloadPlanning

open Lib Program

/-- Names between slashes, and nothing else that counts. -/
theorem components_names {relative : List Char} (normal : (components relative).any (fun component =>
  !isNormal component) = false) :
    relative.head? ≠ some '/' ∧ (relative.splitOn '/').head? ≠ some ['.'] ∧
      ∃ names : List (List Char), components relative = names.map .normal ∧
        ((relative.splitOn '/').filter (fun c => c ≠ [] ∧ c ≠ ['.'])).map Component.ofSegment = names.map .normal := by
  have each : ∀ component ∈ components relative, isNormal component = true := by simpa using normal
  have notRoot : relative.head? ≠ some '/' := by
    intro root
    have first : Component.rootDir ∈ components relative := by simp [components, root]
    exact absurd (each _ first) (by decide)
  have notHere : (relative.splitOn '/').head? ≠ some ['.'] := by
    intro here
    have first : Component.curDir ∈ components relative := by simp [components, notRoot, here]
    exact absurd (each _ first) (by decide)
  refine ⟨notRoot, notHere, ?_⟩
  have body : components relative = ((relative.splitOn '/').filter (fun c => c ≠ [] ∧ c ≠ ['.'])).map Component.ofSegment := by
    simp only [components]
    rw [if_neg notRoot, if_neg notHere]
  have names : ∀ segments : List (List Char), (∀ component ∈ segments.map Component.ofSegment, isNormal component = true) →
      segments.map Component.ofSegment = segments.map .normal := by
    intro segments every
    refine List.map_congr_left fun segment mem => ?_
    have one := every _ (List.mem_map_of_mem mem)
    unfold Component.ofSegment at one ⊢
    split
    · rename_i up
      rw [if_pos up] at one
      cases one
    · rfl
  refine ⟨_, body.trans (names _ (body ▸ each)), names _ (body ▸ each)⟩

theorem components_join (root : List Char) {relative : List Char}
    (normal : (components relative).any (fun component => !isNormal component) = false) :
    ∃ names : List (List Char), components relative = names.map .normal ∧
      components (joinPath root relative) = components root ++ names.map .normal := by
  obtain ⟨notRoot, notHere, names, own, segments⟩ := components_names normal
  refine ⟨names, own, ?_⟩
  by_cases some_ : root = []
  · subst some_
    rw [joinPath, if_pos rfl, own]
    rfl
  · obtain ⟨front, split, joined, first⟩ := splitOn_joinPath relative some_
    have tail : (if root.getLast? = some '/' then [[]] else []).filter (fun c : List Char => decide (c ≠ [] ∧ c ≠ ['.'])) = [] := by
      split <;> rfl
    have filtered : (root.splitOn '/').filter (fun c => decide (c ≠ [] ∧ c ≠ ['.'])) =
        front.filter fun c => decide (c ≠ [] ∧ c ≠ ['.']) := by
      rw [split, List.filter_append, tail, List.append_nil]
    have heads : (root.splitOn '/').head? = front.head? := by
      rw [split, List.head?_append_of_ne_nil _ first]
    simp only [components]
    rw [joinPath_head some_, joined, List.head?_append_of_ne_nil _ first, List.filter_append, List.map_append,
      segments, filtered, heads]
    split
    · rfl
    · split <;> rfl

theorem splitOn_first {c : Char} (plain : c ≠ '/') (rest : List Char) :
    ∃ name segments, (c :: rest).splitOn '/' = (c :: name) :: segments := by
  by_cases slash : '/' ∈ rest
  · obtain ⟨front, back, rfl, free⟩ := List.eq_append_cons_of_mem slash
    refine ⟨front, back.splitOn '/', ?_⟩
    have free' : '/' ∉ c :: front := by simpa [Ne.symm plain] using free
    rw [← List.cons_append, List.splitOn_append_cons_self, List.splitOn_eq_singleton free', List.singleton_append]
  · refine ⟨rest, [], List.splitOn_eq_singleton ?_⟩
    simpa [Ne.symm plain] using slash

/-- A way that is taken leads to something. -/
theorem names_some {relative : List Char} (some_ : relative ≠ [])
    (normal : (components relative).any (fun component => !isNormal component) = false) : components relative ≠ [] := by
  obtain ⟨notRoot, notHere, _⟩ := components_names normal
  cases relative with
  | nil => exact absurd rfl some_
  | cons c rest =>
    have plain : c ≠ '/' := fun same => notRoot (by rw [same]; rfl)
    obtain ⟨name, segments, split⟩ := splitOn_first plain rest
    simp only [components]
    rw [if_neg notRoot, if_neg notHere, split]
    rw [split] at notHere
    have dot : c :: name ≠ ['.'] := fun same => notHere (by rw [same]; rfl)
    have kept : ((c :: name) :: segments).filter (fun c => decide (c ≠ [] ∧ c ≠ ['.'])) =
        (c :: name) :: segments.filter (fun c => decide (c ≠ [] ∧ c ≠ ['.'])) :=
      List.filter_cons_of_pos (by simp [dot])
    rw [kept]
    exact List.cons_ne_nil _ _

namespace RemoteDownloadPlanner

/-- The job downloads to the destination of its plan, or below it. -/
def Inside (plan : RemoteDownloadPlanner) (job : TransferJob) : Prop :=
  ∃ root path, plan.command.destination = .local root ∧ job.destination = .local path ∧ (path = root ∨ path.Below root)

def Told (plan : RemoteDownloadPlanner) : PlanOp → Prop
  | .send event | .post event => ∀ job ∈ event.announced, plan.Inside job
  | _ => True

structure Holds (plan : RemoteDownloadPlanner) (planner : Planner) : Prop where
  jobs : ∀ job ∈ planner.childJobs, plan.Inside job
  pending : ∀ job ∈ planner.pendingProgress, plan.Inside job

variable {plan : RemoteDownloadPlanner} {planner : Planner}

theorem holds_start : plan.Holds {} where
  jobs _ never := absurd never List.not_mem_nil
  pending _ never := absurd never List.not_mem_nil

theorem Holds.flush (h : plan.Holds planner) : plan.Holds (planner.flushProgress plan.planId).1 ∧
    ∀ event ∈ (planner.flushProgress plan.planId).2, ∀ job ∈ event.announced, plan.Inside job := by
  unfold Planner.flushProgress
  split
  · exact ⟨h, fun event never => absurd never List.not_mem_nil⟩
  · refine ⟨⟨h.jobs, fun job never => absurd never List.not_mem_nil⟩, fun event member => ?_⟩
    rw [List.mem_singleton.mp member]
    exact h.pending

theorem Holds.emit (h : plan.Holds planner) {job : TransferJob} (inside : plan.Inside job) (size : Option Nat) :
    plan.Holds (planner.emitChild plan.planId job size).1 ∧
      ∀ event ∈ (planner.emitChild plan.planId job size).2, ∀ told ∈ event.announced, plan.Inside told := by
  have added : ∀ jobs : List TransferJob, (∀ other ∈ jobs, plan.Inside other) → ∀ other ∈ jobs ++ [job], plan.Inside other := by
    intro jobs all other member
    rcases List.mem_append.mp member with old | new
    · exact all other old
    · rw [List.mem_singleton.mp new]
      exact inside
  have more : plan.Holds { planner with
      plannedCount := planner.plannedCount + 1
      totalBytes := Planner.addBytes planner.totalBytes size
      childJobs := planner.childJobs ++ [job]
      pendingProgress := planner.pendingProgress ++ [job] } := ⟨added _ h.jobs, added _ h.pending⟩
  unfold Planner.emitChild Planner.queueProgress
  dsimp only
  split
  · exact more.flush
  · exact ⟨more, fun event never => absurd never List.not_mem_nil⟩

theorem ensureNotCancelled_always : Always plan.Told (onOk fun _ => True) ensureNotCancelled := by
  refine Always.seq (R := fun _ => True) (always_perform trivial fun _ => trivial) fun cancelled _ => ?_
  exact always_ite (fun _ => always_throw trivial) fun _ => always_pure trivial

theorem sendProgress_always {events : List TransferEvent} (told : ∀ event ∈ events, ∀ job ∈ event.announced, plan.Inside job) :
    Always plan.Told (onOk fun _ => True) (sendProgress events) := by
  induction events with
  | nil => exact always_pure trivial
  | cons event events ih =>
    refine Always.seq (R := fun _ => True) (always_perform (told event List.mem_cons_self) fun _ => trivial) fun sent _ => ?_
    cases sent with
    | delivered => exact ih fun other member => told other (List.mem_cons_of_mem event member)
    | cancelled => exact always_throw trivial
    | closed => exact always_throw trivial

theorem emitChild_always (h : plan.Holds planner) (source : RemotePath) {root path : LocalPath}
    (given : plan.command.destination = .local root) (inside : path = root ∨ path.Below root) (size : Option Nat) :
    Always plan.Told (onOk plan.Holds) (plan.emitChild planner source path size) := by
  refine ensureNotCancelled_always.seq fun _ _ => ?_
  refine Always.seq (R := fun _ => True) (always_perform trivial fun _ => trivial) fun (id : Nat) _ => ?_
  have own : plan.Inside (plan.childJob ⟨id⟩ source path) := ⟨root, path, given, rfl, inside⟩
  obtain ⟨holds, told⟩ := h.emit own size
  exact (sendProgress_always told).seq fun _ _ => always_pure holds

theorem localDownloadDestination_always (root : LocalPath) {relative : List Char} (some_ : relative ≠ []) :
    Always plan.Told (onOk fun path => path.Below root) (localDownloadDestination root relative) := by
  refine always_ite (fun _ => always_throw trivial) fun safe => always_pure ?_
  have normal : (components relative).any (fun component => !isNormal component) = false := by
    simpa using (not_or.mp safe).2
  obtain ⟨names, own, joined⟩ := components_join root.chars normal
  refine ⟨names, ?_, joined⟩
  rintro rfl
  exact names_some some_ normal own

theorem relativePath_some {root path relative : List Char} (found : relativePath root path = some relative) : relative ≠ [] := by
  unfold relativePath at found
  split at found
  · rw [Option.filter_eq_some_iff] at found
    simpa using found.2
  · cases found

theorem planEntry_always (h : plan.Holds planner) (root : RemotePath) {destinationRoot : LocalPath}
    (given : plan.command.destination = .local destinationRoot) (pending : List (List Char)) (entry : DirEntry) :
    Always plan.Told (onOk fun found => plan.Holds found.1) (plan.planEntry root destinationRoot planner pending entry) := by
  refine ensureNotCancelled_always.seq fun _ _ => ?_
  cases found : relativePath root.chars entry.path with
  | none => exact always_throw trivial
  | some relative =>
    refine (localDownloadDestination_always destinationRoot (relativePath_some found)).seq fun path below => ?_
    apply always_ite
    · exact fun _ => (emitChild_always h ⟨entry.path⟩ given (Or.inr below) (some 0)).seq fun _ holds => always_pure holds
    · exact fun _ => (emitChild_always h ⟨entry.path⟩ given (Or.inr below) entry.size).seq fun _ holds => always_pure holds

theorem planEntries_always (h : plan.Holds planner) (root : RemotePath) {destinationRoot : LocalPath}
    (given : plan.command.destination = .local destinationRoot) (pending : List (List Char)) (entries : List DirEntry) :
    Always plan.Told (onOk fun found => plan.Holds found.1) (plan.planEntries root destinationRoot planner pending entries) := by
  induction entries generalizing planner pending with
  | nil => exact always_pure h
  | cons entry entries ih => exact (planEntry_always h root given pending entry).seq fun found holds => ih holds found.2

theorem orFail_always {α : Type} (title : String) (answer : Except SftpError α) :
    Always plan.Told (onOk fun _ => True) (orFail title answer) := by
  cases answer with
  | ok a => exact always_pure trivial
  | error e => exact always_throw trivial

/-- Whatever the scans find, in whatever order they end. -/
theorem scanLoop_always (root : RemotePath) {destinationRoot : LocalPath}
    (given : plan.command.destination = .local destinationRoot)
    (fuel : Nat) (h : plan.Holds planner) (pending inFlight : List (List Char)) :
    Always plan.Told (onOk plan.Holds) (plan.scanLoop root destinationRoot fuel planner pending inFlight) := by
  induction fuel generalizing planner pending inFlight with
  | zero => exact always_throw trivial
  | succ fuel ih =>
    refine ensureNotCancelled_always.seq fun _ _ => ?_
    refine always_ite (fun _ => always_pure h) fun _ => ?_
    refine Always.seq (R := fun _ => True) (always_perform trivial fun _ => trivial) fun joined _ => ?_
    cases joined with
    | cancelled | aborted | panicked => exact always_throw trivial
    | listed scan result =>
      refine (orFail_always "Server Folder Unavailable" result).seq fun entries _ => ?_
      exact (planEntries_always h root given _ entries).seq fun found holds => ih holds found.2 _

theorem plan_always (fuel : Nat) : Always plan.Told (onOk plan.Holds) (plan.plan fuel) := by
  refine ensureNotCancelled_always.seq fun _ _ => ?_
  refine always_ite (fun _ => always_throw trivial) fun _ => ?_
  split
  · rename_i source destination _ given
    have known : Always plan.Told (onOk fun _ => True) (metadata source) := by
      refine Always.seq (R := fun _ => True) (always_perform trivial fun _ => trivial) fun answer _ => ?_
      cases answer with
      | none => exact always_throw trivial
      | some answer => exact orFail_always "Server Item Unavailable" answer
    refine known.seq fun metadata _ => ?_
    apply always_ite
    · intro _
      refine (emitChild_always holds_start source given (Or.inl rfl) (some 0)).seq fun planner holds => ?_
      exact scanLoop_always source given fuel holds [source.chars] []
    · exact fun _ => emitChild_always holds_start source given (Or.inl rfl) metadata.size
  all_goals exact always_throw trivial

theorem finishError_always (error : UserFacingError) : Always plan.Told (onOk fun _ => True) (plan.finishError error) := by
  refine Always.seq (R := fun _ => True) (always_perform ?_ fun _ => trivial) fun _ _ => always_pure trivial
  intro job member
  split at member <;> cases member

theorem finish_always (h : plan.Holds planner) : Always plan.Told (onOk fun _ => True) (plan.finish planner) := by
  have asked : Always plan.Told (onOk fun _ => True) isCancelled := always_perform trivial fun _ => trivial
  refine asked.seq fun cancelled _ => ?_
  apply always_ite
  · exact fun _ => (finishError_always cancelledTransferError).seq fun _ _ => always_pure trivial
  · intro _
    refine (sendProgress_always h.flush.2).attempt.seq fun outcome _ => ?_
    cases outcome with
    | error stop =>
      cases stop with
      | failed error => exact (finishError_always error).seq fun _ _ => always_pure trivial
      | unfinished => exact always_throw trivial
    | ok done =>
      refine asked.seq fun cancelled _ => ?_
      apply always_ite
      · exact fun _ => (finishError_always cancelledTransferError).seq fun _ _ => always_pure trivial
      · exact fun _ => always_perform (fun job never => absurd never List.not_mem_nil) fun _ => trivial

theorem planRemoteDownload_always (fuel : Nat) :
    Always plan.Told (onOk fun jobs => ∀ job ∈ jobs.getD [], plan.Inside job) (plan.planRemoteDownload fuel) := by
  refine (plan_always fuel).attempt.seq fun outcome ended => ?_
  cases outcome with
  | error stop =>
    cases stop with
    | failed error => exact (finishError_always error).seq fun _ _ => always_pure fun job never => absurd never List.not_mem_nil
    | unfinished => exact always_throw trivial
  | ok planner =>
    have holds : plan.Holds planner := ended
    refine (finish_always holds).seq fun finished _ => always_pure ?_
    cases finished with
    | true => exact holds.jobs
    | false => exact fun job never => absurd never List.not_mem_nil

/-- Whatever a server lists, and whenever the scans end: what is planned and what is published goes to the destination or
below it, by names only. -/
theorem planned_downloads_stay_inside (plan : RemoteDownloadPlanner) (fuel : Nat) {W : Type}
    (reply : (op : PlanOp) → W → op.Ans × W)
    (w : W) :
    let run := play reply (plan.planRemoteDownload fuel) w
    (∀ jobs, run.2.2 = .ok (some jobs) → ∀ job ∈ jobs, plan.Inside job) ∧
      ∀ asked ∈ run.1, ∀ event, asked.op = .send event ∨ asked.op = .post event → ∀ job ∈ event.announced, plan.Inside job := by
  intro run
  have always : Always plan.Told _ (plan.planRemoteDownload fuel) := planRemoteDownload_always fuel
  obtain ⟨told, ended⟩ := always.play reply w
  constructor
  · intro jobs returned
    have all : onOk (fun jobs : Option (List TransferJob) => ∀ job ∈ jobs.getD [], plan.Inside job) run.2.2 := ended
    rw [returned] at all
    exact all
  · intro asked member event is
    have kind := told asked member
    rcases is with sent | posted
    · rw [sent] at kind
      exact kind
    · rw [posted] at kind
      exact kind

end RemoteDownloadPlanner

end DownloadPlanning

end MacSftp
