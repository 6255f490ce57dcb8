import MacSftp.App.EditUploads

namespace MacSftp

open Lib

theorem PlanningTask.childJobs_count (task : PlanningTask) (l : RemoteEditLifecycle) (sessionId : EditSessionId) (id : Nat)
    (found : List (TransferEndpoint × TransferEndpoint)) : (task.childJobs id found).countP (l.uploadsCopy sessionId) =
      found.countP fun child => task.command.direction = .upload && l.isCopy sessionId child.1 := by
  induction found generalizing id with
  | nil => rfl
  | cons child rest ih =>
    obtain ⟨source, destination⟩ := child
    rw [childJobs, List.countP_cons, List.countP_cons, ih]
    rfl

theorem countP_flatMap_of_getElem? {α β : Type} (p : β → Bool) (f : α → List β) {xs : List α} {i : Nat} {x : α}
    (get : xs[i]? = some x) : (xs.flatMap f).countP p = (f x).countP p + ((xs.eraseIdx i).flatMap f).countP p := by
  obtain ⟨inside, rfl⟩ := List.getElem?_eq_some_iff.mp get
  rw [← ((List.getElem_cons_eraseIdx_perm inside).flatMap_right f).countP_eq p, List.flatMap_cons, List.countP_append]

namespace EditUploads

variable {s : EditUploads} {l : RemoteEditLifecycle} (sessionId : EditSessionId)

namespace Kept

theorem copies (kept : s.Kept l) : s.lifecycle.isCopy = l.isCopy := RemoteEditLifecycle.isCopy_congr kept.editsDir kept.runId

theorem uploads (kept : s.Kept l) : s.lifecycle.uploadsCopy = l.uploadsCopy :=
  RemoteEditLifecycle.uploadsCopy_congr kept.editsDir kept.runId

theorem of_lifecycle {s' : EditUploads} (kept : s.Kept l) (same : s'.lifecycle = s.lifecycle) : s'.Kept l := by
  obtain ⟨valid, paths, dir, run⟩ := kept
  exact ⟨same ▸ valid, same ▸ paths, same ▸ dir, same ▸ run⟩

theorem of_apply {s' : EditUploads} (kept : s.Kept l) {op : EditOp} (step : s'.lifecycle = (s.lifecycle.apply op).1) :
    s'.Kept l := by
  obtain ⟨dir, run⟩ := RemoteEditLifecycle.apply_dirs s.lifecycle op
  constructor
  · exact step ▸ RemoteEditLifecycle.apply_valid kept.valid op
  · exact step ▸ kept.paths.apply kept.valid op
  · rw [step]
    exact dir.trans kept.editsDir
  · rw [step]
    exact run.trans kept.runId

theorem edit (kept : s.Kept l) (op : EditOp) (delivered : Bool) : (s.edit op delivered).Kept l := by
  unfold EditUploads.edit
  split
  · have performed : (s.lifecycle.perform op delivered).1.store.Valid ∧ (s.lifecycle.perform op delivered).1.TempPaths ∧
        (s.lifecycle.perform op delivered).1.editsDir = l.editsDir ∧ (s.lifecycle.perform op delivered).1.runId = l.runId := by
      apply RemoteEditLifecycle.perform_keeps (I := fun l' => l'.store.Valid ∧ l'.TempPaths ∧ l'.editsDir = l.editsDir ∧
        l'.runId = l.runId)
      · rintro l' op ⟨valid, paths, dir, run⟩
        obtain ⟨dir', run'⟩ := RemoteEditLifecycle.apply_dirs l' op
        exact ⟨RemoteEditLifecycle.apply_valid valid op, paths.apply valid op, dir'.trans dir, run'.trans run⟩
      · exact ⟨kept.valid, kept.paths, kept.editsDir, kept.runId⟩
    exact ⟨performed.1, performed.2.1, performed.2.2.1, performed.2.2.2⟩
  · exact kept

theorem next (kept : s.Kept l) (op : EditUploadsOp) : (machine.next s op).Kept l := by
  cases op with
  | edit op delivered => exact kept.edit op delivered
  | start command => exact kept.of_lifecycle rfl
  | plan index connection found totalBytes now =>
    refine kept.of_lifecycle ?_
    show (s.plan index connection found totalBytes now).lifecycle = _
    unfold plan
    split <;> rfl
  | planFails index error cancelled now =>
    refine kept.of_lifecycle ?_
    show (s.planFails index error cancelled now).lifecycle = _
    unfold planFails
    split <;> rfl
  | retryPlan index =>
    refine kept.of_lifecycle ?_
    show (s.retryPlan index).lifecycle = _
    unfold retryPlan
    split <;> rfl
  | handOff index =>
    refine kept.of_lifecycle ?_
    show (s.handOff index).lifecycle = _
    unfold handOff
    split <;> rfl
  | transfer op =>
    refine kept.of_lifecycle ?_
    show (s.transfer op).1.lifecycle = _
    unfold transfer
    split <;> rfl
  | news index event =>
    refine kept.of_lifecycle ?_
    show (s.news index event).lifecycle = _
    unfold news
    split
    · rfl
    · split <;> rfl
  | hear now readLocalFacts =>
    show (s.hear now readLocalFacts).Kept l
    unfold hear
    split
    · exact kept
    · rename_i event events _
      rcases Process.advance_sessions { s.process with transfers := (s.process.transfers.applyEvent event now).1 } event
        readLocalFacts with same | ⟨op, step⟩
      · exact kept.of_lifecycle same
      · exact kept.of_apply step
  | drawer op =>
    refine kept.of_lifecycle ?_
    show (s.drawer op).lifecycle = _
    unfold drawer
    split <;> rfl

end Kept

theorem request_others (ds : List EditDispatch) (each : ∀ d ∈ ds, d.command.isUpload = false) :
    (ds.filterMap EditDispatch.request).flatMap sourcesOf = [] := by
  rw [List.flatMap_eq_nil_iff]
  intro command member
  obtain ⟨d, inside, asked⟩ := List.mem_filterMap.mp member
  have plain := each d inside
  unfold EditDispatch.request at asked
  cases is : d.command with
  | checkRemoteEditSnapshot check =>
    rw [is] at asked
    cases asked
  | startTransfer transfer =>
    rw [is] at asked plain
    have other : ¬ transfer.direction = .upload := by simpa [AppCommand.isUpload] using plain
    cases asked
    simp [sourcesOf, other]

theorem perform_sources (kept : s.Kept l) {op : EditOp} (own : op.isOwn = true) (delivered : Bool) :
    (((s.lifecycle.perform op delivered).2.filterMap EditDispatch.request).flatMap sourcesOf).countP
        (s.lifecycle.isCopy sessionId) ≤
      (s.authorized (.edit op delivered)).toList.count sessionId := by
  have sends := RemoteEditLifecycle.perform_sends (l := s.lifecycle) own delivered
  revert sends
  generalize (s.lifecycle.perform op delivered).2 = ds
  rintro (rfl | ⟨rfl, sent⟩)
  · exact Nat.zero_le _
  · cases sent with
    | others _ each =>
      rw [request_others _ each]
      exact Nat.zero_le _
    | upload session hs told rollback =>
      obtain ⟨name, path⟩ := kept.paths session hs
      have asked : ([⟨session.id, buildEditUploadCommand session, rollback⟩].filterMap EditDispatch.request).flatMap sourcesOf =
          [.local session.localTempPath] := rfl
      rw [asked, authorized, told, Option.toList_some, List.countP_singleton, path]
      split
      · rename_i copy
        rw [RemoteEditLifecycle.isCopy_own copy, List.count_singleton_self]
      · exact Nat.zero_le _

/-- An edit step adds no more uploads than it allows. -/
theorem edit_outstanding (kept : s.Kept l) (op : EditOp) (delivered : Bool) :
    (s.edit op delivered).outstanding sessionId ≤
      s.outstanding sessionId + (s.authorized (.edit op delivered)).toList.count sessionId := by
  have copies := (kept.edit op delivered).copies.trans kept.copies.symm
  have uploads := (kept.edit op delivered).uploads.trans kept.uploads.symm
  unfold outstanding
  rw [copies, uploads]
  unfold edit
  split
  · rename_i own
    have asked := perform_sources sessionId kept own delivered
    simp only [editSources, List.flatMap_append, List.countP_append, handedJobs]
    omega
  · exact Nat.le_add_right _ _

/-- What a plan takes from the commands it hands to the manager. -/
theorem plan_outstanding {index : Nat} {connection : ConnectionId} {found : List (TransferEndpoint × TransferEndpoint)}
    {totalBytes : Option Nat} {now : Timestamp} (single : s.PlansCopies (.plan index connection found totalBytes now)) :
    (s.plan index connection found totalBytes now).outstanding sessionId ≤ s.outstanding sessionId := by
  unfold plan
  simp only [PlansCopies] at single
  split
  · exact Nat.le_refl _
  · rename_i sender command get
    have before := countP_flatMap_of_getElem? (s.lifecycle.isCopy sessionId) sourcesOf get
    have jobs : ((s.planningTask command now).childJobs (s.nextTransferId + 1) found).countP (s.lifecycle.uploadsCopy sessionId) ≤
        (sourcesOf (sender, command)).countP (s.lifecycle.isCopy sessionId) := by
      rw [PlanningTask.childJobs_count]
      rw [get] at single
      cases sender with
      | some id =>
        simp only at single
        subst single
        rw [List.countP_map]
        apply List.countP_mono_left
        intro source _ both
        exact (Bool.and_eq_true_iff.mp both).2
      | none =>
        refine le_of_eq_of_le (List.countP_eq_zero.mpr ?_) (Nat.zero_le _)
        intro child member both
        obtain ⟨up, copy⟩ := Bool.and_eq_true_iff.mp both
        have upload : command.direction = .upload := of_decide_eq_true up
        have clear := single upload child member
        rw [RemoteEditLifecycle.isTemp_of_isCopy copy] at clear
        cases clear
    show (({ s with commands := s.commands.eraseIdx index } : EditUploads).editSources.countP (s.lifecycle.isCopy sessionId)) +
      (({ s with handoffs := s.handoffs ++ [(connection, _,
        _)] } : EditUploads).handedJobs.countP (s.lifecycle.uploadsCopy sessionId)) +
        s.transfers.manager.jobsQueued (s.lifecycle.uploadsCopy sessionId) ≤ _
    simp only [outstanding, editSources, handedJobs, List.flatMap_append, List.countP_append, List.flatMap_singleton] at before ⊢
    omega

theorem planFails_outstanding (index : Nat) (error : UserFacingError) (cancelled : Bool) (now : Timestamp) :
    (s.planFails index error cancelled now).outstanding sessionId ≤ s.outstanding sessionId := by
  unfold planFails
  split
  · exact Nat.le_refl _
  · rename_i get
    have before := countP_flatMap_of_getElem? (s.lifecycle.isCopy sessionId) sourcesOf get
    simp only [outstanding, editSources, handedJobs, lifecycle, List.flatMap_append, List.countP_append] at before ⊢
    cases cancelled <;>
      simp only [Bool.false_eq_true, if_true, if_false, List.flatMap_append, List.countP_append, List.flatMap_singleton] <;>
      omega

/-- The command goes back to where it came from. -/
theorem retryPlan_outstanding (index : Nat) : (s.retryPlan index).outstanding sessionId = s.outstanding sessionId := by
  unfold retryPlan
  split
  · rfl
  · rename_i get
    have before := countP_flatMap_of_getElem? (s.lifecycle.isCopy sessionId) sourcesOf get
    simp only [outstanding, editSources, handedJobs, lifecycle, List.flatMap_append, List.countP_append,
      List.flatMap_singleton] at before ⊢
    omega

theorem handOff_outstanding (index : Nat) : (s.handOff index).outstanding sessionId ≤ s.outstanding sessionId := by
  unfold handOff
  split
  · rename_i connection planId jobs get ready
    have before := countP_flatMap_of_getElem? (s.lifecycle.uploadsCopy sessionId) (fun handoff => handoff.2.2) get
    have queued := TransferManager.enqueue_count (s.lifecycle.uploadsCopy sessionId) s.transfers.manager connection planId jobs true
    have received : (s.transfers.receive (.enqueue connection planId jobs)).manager =
        (s.transfers.manager.enqueue connection planId jobs true).1 := by
      simp only [TransferSystem.receive, ready]
      rfl
    simp only [outstanding, editSources, handedJobs, lifecycle, received] at before queued ⊢
    omega
  · exact Nat.le_refl _

theorem puts_retried (op : TransferOp) (other : op.isEnqueue = false) (P : TransferJob → Bool) :
    (s.transfers.puts op).countP (fun put => P put.2) = (s.retried (.transfer op)).toList.countP P := by
  cases op with
  | receive request =>
    cases request with
    | enqueue => cases other
    | cancel | cancelPlan | forgetPlan => simp [TransferSystem.puts, TransferManager.puts, retried]
    | retry transferId connected =>
      cases connected with
      | none => simp [TransferSystem.puts, TransferManager.puts, retried]
      | some connection =>
        simp only [TransferSystem.puts, TransferManager.puts, retried]
        split
        · cases s.transfers.manager.retryRoutes.lookup transferId <;> simp
        · rfl
  | send | startNext | report | release | complete | setPolicy => rfl

theorem transfer_outstanding (op : TransferOp) :
    (s.transfer op).1.outstanding sessionId + (s.transfer op).2.countP (fun task => s.lifecycle.uploadsCopy sessionId task.job) ≤
      s.outstanding sessionId + (s.retried (.transfer op)).toList.countP (s.lifecycle.uploadsCopy sessionId) := by
  unfold transfer
  split
  · exact Nat.le_add_right _ _
  · rename_i other
    have step := s.transfers.next_count (s.lifecycle.uploadsCopy sessionId) (fun _ _ => rfl) op
    rw [s.puts_retried op (by simpa using other)] at step
    simp only [outstanding, editSources, handedJobs, lifecycle] at step ⊢
    omega

/-- An upload of the copy starts, or is still to start, because it was allowed or put back. -/
theorem next_outstanding (kept : s.Kept l) {op : EditUploadsOp} (single : s.PlansCopies op) :
    (machine.next s op).outstanding sessionId + (machine.out s op).countP (fun task => l.uploadsCopy sessionId task.job) ≤
      s.outstanding sessionId + (s.authorized op).toList.count sessionId +
        (s.retried op).toList.countP (l.uploadsCopy sessionId) := by
  cases op with
  | edit op delivered => exact Nat.le_add_right_of_le (edit_outstanding sessionId kept op delivered)
  | start command =>
    show (({ s with commands := s.commands ++ [(none, command)] } : EditUploads).outstanding sessionId) ≤ _
    have same : sourcesOf (none, command) = [] := rfl
    simp only [outstanding, editSources, handedJobs, lifecycle, List.flatMap_append, List.flatMap_singleton, same, List.append_nil]
    exact (Nat.le_add_right _ _).trans (Nat.le_add_right _ _)
  | plan index connection found totalBytes now => exact Nat.le_add_right_of_le (plan_outstanding sessionId single)
  | planFails index error cancelled now =>
    exact Nat.le_add_right_of_le (planFails_outstanding sessionId index error cancelled now)
  | retryPlan index => exact Nat.le_add_right_of_le (le_of_eq (retryPlan_outstanding sessionId index))
  | handOff index => exact Nat.le_add_right_of_le (handOff_outstanding sessionId index)
  | transfer op =>
    rw [← kept.uploads]
    exact transfer_outstanding sessionId op
  | news index event =>
    have same : (s.news index event).outstanding sessionId = s.outstanding sessionId := by
      unfold news
      split
      · rfl
      · split <;> rfl
    exact Nat.le_add_right_of_le (le_of_eq same)
  | hear now readLocalFacts =>
    have copies := (kept.next (.hear now readLocalFacts)).copies.trans kept.copies.symm
    have uploads := (kept.next (.hear now readLocalFacts)).uploads.trans kept.uploads.symm
    have same : (s.hear now readLocalFacts).outstanding sessionId = s.outstanding sessionId := by
      change (s.hear now readLocalFacts).lifecycle.isCopy = _ at copies
      change (s.hear now readLocalFacts).lifecycle.uploadsCopy = _ at uploads
      unfold outstanding
      rw [copies, uploads]
      unfold hear
      split <;> rfl
    exact Nat.le_add_right_of_le (le_of_eq same)
  | drawer op =>
    have same : (s.drawer op).outstanding sessionId = s.outstanding sessionId := by
      unfold drawer
      split <;> rfl
    exact Nat.le_add_right_of_le (le_of_eq same)

theorem run_kept (editsDir : LocalPath) (runId : List Char) (ops : List EditUploadsOp) :
    (machine.run (new editsDir runId) ops).Kept (.new editsDir runId) := by
  apply machine.run_invariant (I := fun s => s.Kept (.new editsDir runId))
  · exact fun s op kept => kept.next op
  · constructor
    · exact RemoteEditLifecycle.new_valid editsDir runId
    · exact fun session never => absurd never List.not_mem_nil
    · rfl
    · rfl

/-- Uploads of an edited copy never outnumber what allowed them: the checks and overwrites of its session, and the retries
that the user asks for. -/
theorem edit_uploads_are_accounted_for (editsDir : LocalPath) (runId : List Char) (sessionId : EditSessionId)
    (ops : List EditUploadsOp) (single : machine.Admissible PlansCopies (new editsDir runId) ops) :
    let start := new editsDir runId
    let uploads := (RemoteEditLifecycle.new editsDir runId).uploadsCopy sessionId
    ((machine.log start ops).flatMap Prod.snd).countP (fun task => uploads task.job) +
        (machine.run start ops).outstanding sessionId ≤
      (machine.collect authorized start ops).count sessionId + (machine.collect retried start ops).countP uploads := by
  intro start uploads
  induction ops using List.reverseRecOn with
  | nil => exact Nat.le_refl _
  | append_singleton ops op ih =>
    obtain ⟨before, last, -⟩ := (machine.admissible_append start ops [op]).mp single
    have step := next_outstanding sessionId (run_kept editsDir runId ops) last
    have known := ih before
    simp only [start, uploads] at known ⊢
    rw [machine.log_concat, machine.run_concat, machine.collect_concat, machine.collect_concat]
    simp only [List.flatMap_append, List.flatMap_singleton, List.countP_append, List.count_append]
    omega

/-- A file is fetched, changed, checked and sent back, at the second try. -/
def sampleRun : List EditUploadsOp :=
  [.edit (.startDownload samplePending) true,
    .plan 0 ⟨1⟩ [(.remote (.new "/notes.txt"), .local (.new "/e/r/1/notes.txt"))] none ⟨0⟩, .handOff 0,
    .transfer .startNext, .transfer (.report 0 .finished), .transfer (.release 0), .transfer .startNext, .transfer (.complete 0),
    .transfer .startNext, .hear ⟨0⟩ fun _ => none, .hear ⟨0⟩ fun _ => none, .hear ⟨0⟩ fun _ => none, .hear ⟨0⟩ fun _ => none,
    .edit (.requestUpload ⟨1⟩ 3 sampleKey (.fromSecsSinceEpoch 200)) true,
    .edit (.onCheckResult sampleResult (some (.fromSecsSinceEpoch 200))) true,
    .planFails 0 (transferHandoffError "The connection closed. Reconnect and try again.") false ⟨0⟩, .retryPlan 0,
    .plan 0 ⟨1⟩ [(.local (.new "/e/r/1/notes.txt"), .remote (.new "/notes.txt"))] none ⟨0⟩, .handOff 0, .transfer .startNext]

theorem edit_upload_is_accounted_for :
    let start := new (.new "/e") ['r']
    let uploads := (RemoteEditLifecycle.new (.new "/e") ['r']).uploadsCopy ⟨1⟩
    let started := ((machine.log start sampleRun).flatMap Prod.snd).countP (fun task => uploads task.job)
    started = 1 ∧ started + (machine.run start sampleRun).outstanding ⟨1⟩ ≤
      (machine.collect authorized start sampleRun).count ⟨1⟩ + (machine.collect retried start sampleRun).countP uploads :=
  ⟨by decide +kernel, edit_uploads_are_accounted_for (.new "/e") ['r'] ⟨1⟩ sampleRun (by decide)⟩

end EditUploads

end MacSftp
