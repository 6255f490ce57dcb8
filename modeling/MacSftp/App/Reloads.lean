import MacSftp.Core.Paths
import MacSftp.Panes.Workspace
import MacSftp.Transfer.Completion
import MacSftp.Transfer.Representation
import Mathlib.Data.String.Basic

namespace MacSftp

open Lib

namespace TransferStore

variable (s : TransferStore)

theorem editJob_finished (transferId : TransferId) (edit : TransferJob → Option TransferJob) :
    (s.editJob transferId edit).1.justFinishedPlan = s.justFinishedPlan := by
  unfold editJob
  split
  · rfl
  · split <;> rfl

theorem insertPlan_finished (plan : TransferPlan) : (s.insertPlan plan).1.justFinishedPlan = s.justFinishedPlan := by
  unfold insertPlan
  split <;> rfl

theorem insertJob_finished (job : TransferJob) : (s.insertJob job).1.justFinishedPlan = s.justFinishedPlan := by
  unfold insertJob
  split <;> rfl

theorem insertEach_finished (batch : List TransferJob) : (s.insertEach batch).1.justFinishedPlan = s.justFinishedPlan := by
  induction batch generalizing s with
  | nil => rfl
  | cons job rest ih => exact (ih (s.insertJob job).1).trans (insertJob_finished s job)

theorem insertJobs_finished (batch : List TransferJob) : (s.insertJobs batch).1.justFinishedPlan = s.justFinishedPlan := by
  unfold insertJobs
  split
  · rfl
  · exact insertEach_finished s batch

theorem applyPlanProgress_finished (progress : TransferPlanProgress) :
    (s.applyPlanProgress progress).1.justFinishedPlan = s.justFinishedPlan := by
  unfold applyPlanProgress
  split
  · exact insertJobs_finished s progress.childJobs
  · split
    · rfl
    · exact insertJobs_finished _ progress.childJobs

theorem applyPlanCompleted_finished (planId : TransferPlanId) :
    (s.applyPlanCompleted planId).1.justFinishedPlan = s.justFinishedPlan := by
  unfold applyPlanCompleted
  split
  · rfl
  · split
    · rfl
    · exact editJob_finished _ _ _

theorem upsertJob_finished (job : TransferJob) : (s.upsertJob job).1.justFinishedPlan = s.justFinishedPlan := by
  unfold upsertJob
  split
  · split <;> rfl
  · rfl

theorem upsertConflict_finished (conflict : ConflictRequest) :
    (s.upsertConflict conflict).1.justFinishedPlan = s.justFinishedPlan := by
  unfold upsertConflict
  split
  · split <;> rfl
  · rfl

theorem applyConflict_finished (prompt : TransferConflictPrompt) (now : Timestamp) :
    (s.applyConflict prompt now).1.justFinishedPlan = s.justFinishedPlan := by
  refine (upsertConflict_finished _ _).trans ?_
  exact editJob_finished s prompt.transferId _

theorem settleJobs_finished (plan : TransferPlan) (stale : TransferJob → Bool) (state : TransferState) :
    (s.settleJobs plan stale state).1.justFinishedPlan = s.justFinishedPlan := by
  unfold settleJobs
  split
  · exact editJob_finished s _ _
  · split
    · exact editJob_finished s _ _
    · rfl

theorem removeConflicts_finished (requests : List ConflictRequestId) :
    (s.removeConflicts requests).1.justFinishedPlan = s.justFinishedPlan := by
  induction requests generalizing s with
  | nil => rfl
  | cons request rest ih => exact ih (s.removeConflict request).1

theorem planIndexOf_known {planId : TransferPlanId} {found : Nat × TransferPlan} (known : s.planIndexOf planId = some found) :
    planId ∈ s.plans.map (fun plan => plan.id) := by
  obtain ⟨_, rfl, stored⟩ := planIndexOf_some known
  exact List.mem_map_of_mem stored

theorem settledBy_finished (transferId : TransferId) (state : TransferState) :
    (s.settledBy transferId state).justFinishedPlan = none :=
  (removeConflicts_finished _ _).trans (editJob_finished { s with justFinishedPlan := none } transferId _)

theorem finalizePlanForJob_finished {transferId : TransferId} {planId : TransferPlanId} (quiet : s.justFinishedPlan = none)
    (finished : (s.finalizePlanForJob transferId).1.justFinishedPlan = some planId) :
    planId ∈ s.plans.map (fun plan => plan.id) := by
  unfold finalizePlanForJob at finished
  split at finished
  · rename_i planIndex plan found
    obtain ⟨_, _, at_⟩ := Option.bind_eq_some_iff.mp found
    obtain ⟨other, stored, same⟩ := Option.map_eq_some_iff.mp at_
    cases same
    by_cases finishes : s.Finishes plan
    · rw [finalizePlan_of_finishes planIndex finishes] at finished
      cases finished
      exact List.mem_map_of_mem (List.mem_of_getElem? stored)
    · rw [finalizePlan_quiet planIndex finishes, quiet] at finished
      cases finished
  · split at finished
    · rename_i plan found
      cases finished
      exact List.mem_map_of_mem (List.mem_of_find?_eq_some found)
    · rw [quiet] at finished
      cases finished

variable {s}

theorem planCancelled_finished {planId finished : TransferPlanId} (quiet : s.justFinishedPlan = none)
    (h : (s.setPlanCancelled planId).1.justFinishedPlan = some finished) :
    finished = planId ∧ planId ∈ s.plans.map (fun plan => plan.id) := by
  unfold setPlanCancelled at h
  split at h
  · rw [quiet] at h
    cases h
  · rename_i planIndex plan known
    split at h
    · rw [quiet] at h
      cases h
    · rw [quiet] at h
      cases h
    · dsimp only at h
      split at h
      · cases h
        exact ⟨rfl, planIndexOf_known s known⟩
      · cases ((settleJobs_finished s _ _ _).trans quiet).symm.trans h

theorem planFailed_finished {planId finished : TransferPlanId} {planState : TransferPlanState} {jobState : TransferState}
    (quiet : s.justFinishedPlan = none)
    (h : (s.setPlanTerminalState planId planState jobState).1.justFinishedPlan = some finished) :
    finished = planId ∧ planId ∈ s.plans.map (fun plan => plan.id) := by
  unfold setPlanTerminalState at h
  split at h
  · rw [quiet] at h
    cases h
  · rename_i planIndex plan known
    dsimp only at h
    split at h
    · cases h
      exact ⟨rfl, planIndexOf_known s known⟩
    · rw [settleJobs_finished] at h
      rw [show (s.setPlanState planIndex planState).justFinishedPlan = none from quiet] at h
      cases h

theorem applyEvent_finished {event : TransferEvent} {now : Timestamp} {planId : TransferPlanId}
    (finished : (s.applyEvent event now).1.justFinishedPlan = some planId) :
    planId ∈ s.plans.map (fun plan => plan.id) ∧
      (event.outcome.isSome = true ∨ event = .planCancelled planId ∨ ∃ error, event = .planFailed planId error) := by
  cases event with
  | planStarted snapshot =>
    have same := (insertJob_finished _ snapshot.rootJob).trans
      (insertPlan_finished { s with justFinishedPlan := none } snapshot.plan)
    cases same.symm.trans finished
  | planProgress progress =>
    cases (applyPlanProgress_finished { s with justFinishedPlan := none } progress).symm.trans finished
  | planCompleted completed =>
    cases (applyPlanCompleted_finished { s with justFinishedPlan := none } completed).symm.trans finished
  | planCancelled cancelled =>
    obtain ⟨rfl, known⟩ := planCancelled_finished (s := { s with justFinishedPlan := none }) rfl finished
    exact ⟨known, Or.inr (Or.inl rfl)⟩
  | planFailed failed error =>
    obtain ⟨rfl, known⟩ := planFailed_finished (s := { s with justFinishedPlan := none }) rfl finished
    exact ⟨known, Or.inr (Or.inr ⟨error, rfl⟩)⟩
  | conflict prompt => cases (applyConflict_finished { s with justFinishedPlan := none } prompt now).symm.trans finished
  | running job => cases (upsertJob_finished { s with justFinishedPlan := none } job).symm.trans finished
  | progress made => cases (editJob_finished { s with justFinishedPlan := none } made.transferId _).symm.trans finished
  | warning raised => cases (editJob_finished { s with justFinishedPlan := none } raised.transferId _).symm.trans finished
  | completed transferId | skipped transferId =>
    refine ⟨?_, Or.inl rfl⟩
    rw [applyEvent_outcome rfl] at finished
    simpa using finalizePlanForJob_finished _ (settledBy_finished s transferId _) finished
  | failed failure =>
    refine ⟨?_, Or.inl rfl⟩
    rw [applyEvent_outcome rfl] at finished
    simpa using finalizePlanForJob_finished _ (settledBy_finished s failure.transferId _) finished

end TransferStore

def TransferEvent.isFailure : TransferEvent → Bool
  | failed _ => true
  | _ => false

inductive PaneReload
  | local (tabId : TabId) (path : LocalPath)
  | remote (tabId : TabId) (path : RemotePath)
  deriving DecidableEq, Repr

def isConnected : Tabs.ConnectionState → Bool
  | .connected _ _ _ => true
  | _ => false

namespace EventCoordinator

/-- The plan whose directories are read again after `event`, in the store the event has been applied to. -/
def finishedPlan (transfers : TransferStore) : TransferEvent → Option TransferPlanId
  | .completed _ | .skipped _ => transfers.justFinishedPlan
  | .planFailed planId _ | .planCancelled planId => some planId
  | _ => none

def destinationDirectories (transfers : TransferStore) (plan : TransferPlan) : List TransferEndpoint :=
  (transfers.jobs.filter (fun job => job.id = plan.rootJobId ∨ job.id ∈ plan.childJobs.toFinset)).filterMap
    (fun job => job.destination.parentDirectory)

def localDirectories (directories : List TransferEndpoint) : List LocalPath :=
  sortDedup (fun a b => a.chars ≤ b.chars) <| directories.filterMap fun
    | .local path => some path
    | .remote _ => none

def remoteDirectories (directories : List TransferEndpoint) : List RemotePath :=
  sortDedup (fun a b => a.chars ≤ b.chars) <| directories.filterMap fun
    | .local _ => none
    | .remote path => some path

def reloadVisibleDirectories (window : Panes.Workspace) (localPaths : List LocalPath) (remotePaths : List RemotePath) :
    List PaneReload :=
  window.tabs.tabs.flatMap fun tab =>
    let local_ := ((window.panes tab.id).local_.path.map LocalPath.mk).filter (· ∈ localPaths)
    let remote := ((window.panes tab.id).remote.path.map RemotePath.mk).filter (· ∈ remotePaths)
    (local_.map (PaneReload.local tab.id)).toList ++
      (if isConnected tab.connection then (remote.map (PaneReload.remote tab.id)).toList else [])

def reloadPanesForFinishedPlan (transfers : TransferStore) (event : TransferEvent) (windows : List Panes.Workspace) :
    List PaneReload :=
  match (finishedPlan transfers event).bind transfers.findPlan with
  | none => []
  | some plan =>
    let directories := destinationDirectories transfers plan
    let localPaths := localDirectories directories
    let remotePaths := remoteDirectories directories
    if localPaths = [] ∧ remotePaths = [] then []
    else windows.flatMap fun window => reloadVisibleDirectories window localPaths remotePaths

/-- A destination of one of the plan's jobs is in `directory`. -/
def ReceivedInto (transfers : TransferStore) (plan : TransferPlan) (directory : TransferEndpoint) : Prop :=
  ∃ job ∈ transfers.jobs, (job.id = plan.rootJobId ∨ job.id ∈ plan.childJobs) ∧
    job.destination.parentDirectory = some directory

/-- The pane shows a directory that the plan wrote into, and its side can be read. -/
def Concerns (transfers : TransferStore) (plan : TransferPlan) (window : Panes.Workspace) : PaneReload → Prop
  | .local tabId path => ReceivedInto transfers plan (.local path) ∧
      ∃ tab ∈ window.tabs.tabs, tab.id = tabId ∧ (window.panes tabId).local_.path = some path.chars
  | .remote tabId path => ReceivedInto transfers plan (.remote path) ∧
      ∃ tab ∈ window.tabs.tabs, tab.id = tabId ∧ isConnected tab.connection = true ∧
        (window.panes tabId).remote.path = some path.chars

/-- The event selects the plan, and exactly the panes on its destination directories are read again. -/
def Reloads (transfers : TransferStore) (event : TransferEvent) (planId : TransferPlanId) : Prop :=
  finishedPlan transfers event = some planId ∧ ∃ plan, transfers.findPlan planId = some plan ∧
    ∀ windows reload, reload ∈ reloadPanesForFinishedPlan transfers event windows ↔
      ∃ window ∈ windows, Concerns transfers plan window reload

section

variable {transfers : TransferStore} {plan : TransferPlan}

theorem mem_destinationDirectories {directory : TransferEndpoint} :
    directory ∈ destinationDirectories transfers plan ↔ ReceivedInto transfers plan directory := by
  simp [destinationDirectories, ReceivedInto, and_assoc]

theorem mem_localDirectories {path : LocalPath} :
    path ∈ localDirectories (destinationDirectories transfers plan) ↔ ReceivedInto transfers plan (.local path) := by
  rw [localDirectories, mem_sortDedup, List.mem_filterMap, ← mem_destinationDirectories]
  constructor
  · rintro ⟨directory, listed, same⟩
    cases directory <;> cases same
    exact listed
  · exact fun listed => ⟨_, listed, rfl⟩

theorem mem_remoteDirectories {path : RemotePath} :
    path ∈ remoteDirectories (destinationDirectories transfers plan) ↔ ReceivedInto transfers plan (.remote path) := by
  rw [remoteDirectories, mem_sortDedup, List.mem_filterMap, ← mem_destinationDirectories]
  constructor
  · rintro ⟨directory, listed, same⟩
    cases directory <;> cases same
    exact listed
  · exact fun listed => ⟨_, listed, rfl⟩

theorem mem_reloadVisibleDirectories {window : Panes.Workspace} {reload : PaneReload} :
    reload ∈ reloadVisibleDirectories window (localDirectories (destinationDirectories transfers plan))
        (remoteDirectories (destinationDirectories transfers plan)) ↔ Concerns transfers plan window reload := by
  unfold reloadVisibleDirectories
  cases reload with
  | «local» tabId path =>
    obtain ⟨chars⟩ := path
    simp only [List.mem_flatMap, List.mem_append, Option.mem_toList, Option.map_eq_some_iff,
      Option.filter_eq_some_iff, Concerns, ← mem_localDirectories, List.mem_ite_nil_right, PaneReload.local.injEq, reduceCtorEq,
      and_false, exists_false, or_false, decide_eq_true_eq]
    constructor
    · rintro ⟨tab, open_, _, ⟨⟨_, cwd, rfl⟩, listed⟩, rfl, same⟩
      cases same
      exact ⟨listed, tab, open_, rfl, cwd⟩
    · rintro ⟨listed, tab, open_, rfl, cwd⟩
      exact ⟨tab, open_, _, ⟨⟨_, cwd, rfl⟩, listed⟩, rfl, rfl⟩
  | remote tabId path =>
    obtain ⟨chars⟩ := path
    simp only [List.mem_flatMap, List.mem_append, Option.mem_toList, Option.map_eq_some_iff,
      Option.filter_eq_some_iff, Concerns, ← mem_remoteDirectories, List.mem_ite_nil_right, PaneReload.remote.injEq, reduceCtorEq,
      and_false, exists_false, false_or, decide_eq_true_eq]
    constructor
    · rintro ⟨tab, open_, connected, _, ⟨⟨_, cwd, rfl⟩, listed⟩, rfl, same⟩
      cases same
      exact ⟨listed, tab, open_, rfl, connected, cwd⟩
    · rintro ⟨listed, tab, open_, rfl, connected, cwd⟩
      exact ⟨tab, open_, connected, _, ⟨⟨_, cwd, rfl⟩, listed⟩, rfl, rfl⟩

theorem concerned_directory {window : Panes.Workspace} {reload : PaneReload} (concerns : Concerns transfers plan window reload) :
    localDirectories (destinationDirectories transfers plan) ≠ [] ∨
      remoteDirectories (destinationDirectories transfers plan) ≠ [] := by
  cases reload with
  | «local» tabId path => exact Or.inl (List.ne_nil_of_mem (mem_localDirectories.mpr concerns.1))
  | remote tabId path => exact Or.inr (List.ne_nil_of_mem (mem_remoteDirectories.mpr concerns.1))

theorem mem_reloadPanes {event : TransferEvent} {planId : TransferPlanId}
    (selected : finishedPlan transfers event = some planId) (found : transfers.findPlan planId = some plan)
    (windows : List Panes.Workspace) (reload : PaneReload) :
    reload ∈ reloadPanesForFinishedPlan transfers event windows ↔ ∃ window ∈ windows, Concerns transfers plan window reload := by
  unfold reloadPanesForFinishedPlan
  rw [selected, Option.bind_some, found]
  dsimp only
  split_ifs with empty
  · refine ⟨fun h => absurd h List.not_mem_nil, ?_⟩
    rintro ⟨window, _, concerns⟩
    rcases concerned_directory concerns with some_ | some_
    · exact absurd empty.1 some_
    · exact absurd empty.2 some_
  · simp only [List.mem_flatMap, mem_reloadVisibleDirectories]

end

theorem finishedPlan_iff {s : TransferStore} {event : TransferEvent} {now : Timestamp} {planId : TransferPlanId}
    (finished : (s.applyEvent event now).1.justFinishedPlan = some planId) :
    finishedPlan (s.applyEvent event now).1 event = some planId ↔ event.isFailure = false := by
  rcases (TransferStore.applyEvent_finished finished).2 with outcome | rfl | ⟨error, rfl⟩
  · cases event with
    | completed | skipped => exact iff_of_true finished rfl
    | failed failure => exact iff_of_false (by simp [finishedPlan]) (by simp [TransferEvent.isFailure])
    | planStarted | planProgress | planCompleted | planCancelled | planFailed | conflict | running | progress | warning =>
      cases outcome
  · exact iff_of_true rfl rfl
  · exact iff_of_true rfl rfl

theorem finished_is_stored {s : TransferStore} {event : TransferEvent} {now : Timestamp} {planId : TransferPlanId}
    (finished : (s.applyEvent event now).1.justFinishedPlan = some planId) :
    ∃ plan, (s.applyEvent event now).1.findPlan planId = some plan := by
  obtain ⟨known, cause⟩ := TransferStore.applyEvent_finished finished
  have shape : (s.applyEvent event now).1.plans.map TransferPlan.shape = s.plans.map TransferPlan.shape := by
    apply TransferStore.applyEvent_shape
    · rintro snapshot rfl
      simp [TransferEvent.outcome] at cause
    · rintro progress rfl
      simp [TransferEvent.outcome] at cause
  have ids := congrArg (List.map Prod.fst) shape
  simp only [List.map_map, Function.comp_def, TransferPlan.shape] at ids
  rw [← ids] at known
  obtain ⟨plan, stored, same⟩ := List.mem_map.mp known
  cases found : (s.applyEvent event now).1.findPlan planId with
  | some plan => exact ⟨plan, rfl⟩
  | none => exact absurd same ((findKey_eq_none _).mp found plan stored)

theorem reloads_iff {s : TransferStore} {event : TransferEvent} {now : Timestamp} {planId : TransferPlanId}
    (finished : (s.applyEvent event now).1.justFinishedPlan = some planId) :
    Reloads (s.applyEvent event now).1 event planId ↔ event.isFailure = false := by
  rw [← finishedPlan_iff finished]
  constructor
  · exact And.left
  · intro selected
    obtain ⟨plan, found⟩ := finished_is_stored finished
    exact ⟨selected, plan, found, mem_reloadPanes selected found⟩

/-- What holds of every event of the run that ends a plan, of the plan and of the store after the event. -/
def AtEveryFinish (run : List StoreOp) (holds : TransferStore → TransferEvent → TransferPlanId → Prop) : Prop :=
  ∀ before event now later, run = before ++ .applyEvent event now :: later →
    ∀ planId, ((TransferStore.machine.run {} before).applyEvent event now).1.justFinishedPlan = some planId →
      holds ((TransferStore.machine.run {} before).applyEvent event now).1 event planId

theorem panes_reloaded (run : List StoreOp) :
    AtEveryFinish run Reloads ↔ AtEveryFinish run (fun _ event _ => event.isFailure = false) := by
  constructor
  · intro reloads before event now later split_ planId finished
    exact (reloads_iff finished).mp (reloads before event now later split_ planId finished)
  · intro quiet before event now later split_ planId finished
    exact (reloads_iff finished).mpr (quiet before event now later split_ planId finished)

/-- One plan with the jobs 2 and 3, all of it published. -/
def twoChildren : List StoreOp := TransferStore.sampleEvents
  [.planStarted ⟨TransferStore.samplePlan 1 1 [], TransferStore.sampleJob 1⟩,
    .planProgress ⟨⟨1⟩, [TransferStore.sampleJob 2, TransferStore.sampleJob 3], 2, some 0⟩, .planCompleted ⟨1⟩]

/-- Job 2 completes and job 3 fails: nothing is reloaded, unless the failure comes first. -/
theorem last_child_fails :
    ¬ AtEveryFinish (twoChildren ++ TransferStore.sampleEvents
        [.completed ⟨2⟩, .failed ⟨⟨3⟩, TransferStore.finishedWithFailures⟩]) Reloads ∧
      Reloads (TransferStore.machine.run {} (twoChildren ++ TransferStore.sampleEvents
        [.failed ⟨⟨3⟩, TransferStore.finishedWithFailures⟩, .completed ⟨2⟩])) (.completed ⟨2⟩) ⟨1⟩ := by
  constructor
  · intro reloads
    have ended := reloads (twoChildren ++ TransferStore.sampleEvents [.completed ⟨2⟩])
      (.failed ⟨⟨3⟩, TransferStore.finishedWithFailures⟩) ⟨0⟩ [] rfl ⟨1⟩ (by decide)
    exact absurd ended.1 (by simp [finishedPlan])
  · have ended : ((TransferStore.machine.run {} (twoChildren ++ TransferStore.sampleEvents
        [.failed ⟨⟨3⟩, TransferStore.finishedWithFailures⟩])).applyEvent (.completed ⟨2⟩) ⟨0⟩).1.justFinishedPlan = some ⟨1⟩ := by
      decide
    exact (reloads_iff ended).mpr rfl

end EventCoordinator

end MacSftp
