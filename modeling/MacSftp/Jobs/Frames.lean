import MacSftp.Jobs.World

namespace MacSftp

open Lib Program

/-- An operation that leaves all files as they are. -/
def JobOp.Quiet (op : JobOp) : Prop := ∀ side path, ¬op.Touches side path

/-- An event about temporary files, where the operation sends one. -/
def JobOp.residual : JobOp → Option JobEvent
  | .emit (.residualTempCreated record) => some (.residualTempCreated record)
  | .emit (.residualTempCleared transferId path) => some (.residualTempCleared transferId path)
  | _ => none

def JobOp.Plain (op : JobOp) : Prop := op.Quiet ∧ op.residual = none

/-- An operation that only looks at a file. -/
def JobOp.Looks : JobOp → Prop
  | .stat _ | .lstat _ | .symlinkMetadata _ => True
  | _ => False

theorem JobOp.Looks.plain {op : JobOp} (look : op.Looks) : op.Plain := by
  cases op with
  | stat | lstat | symlinkMetadata => exact ⟨fun _ _ => id, rfl⟩
  | _ => exact look.elim

theorem createdBy_touches {op : JobOp} {answer : op.Answer} {side : Side} {path : List Char}
    (h : createdBy op answer = some (side, path)) : op.Touches side path := by
  unfold createdBy at h
  split at h
  all_goals cases h
  all_goals exact ⟨rfl, rfl⟩

theorem removedBy_touches {op : JobOp} {answer : op.Answer} {side : Side} {path : List Char}
    (h : removedBy op answer = some (side, path)) : op.Touches side path := by
  unfold removedBy at h
  split at h
  all_goals cases h
  all_goals exact ⟨rfl, rfl⟩

section Uses

variable {P : JobOp → Prop} {α : Type}

theorem uses_ask {op : JobOp} (h : P op) : Uses P (perform op) := (uses_perform op).mpr h

theorem uses_orThrow {ε : Type} {mapErr : ε → UserFacingError} {r : Except ε α} : Uses P (orThrow mapErr r) := by
  cases r with
  | ok a => trivial
  | error e => trivial

theorem uses_failIf {cond : Bool} {error : UserFacingError} : Uses P (failIf cond error) := by
  exact uses_ite trivial trivial

theorem uses_ifOverwriting {job : TransferJob} {body : JobM Unit} (h : Uses P body) : Uses P (ifOverwriting job body) := by
  exact uses_ite h trivial

theorem uses_orCleanup {body : JobM Unit} {cleanup : JobM Bool} (hb : Uses P body) (hc : Uses P cleanup) :
    Uses P (orCleanup body cleanup) := by
  refine hb.attempt.bind fun result => ?_
  cases result with
  | ok => trivial
  | error e => exact hc.bind fun _ => trivial

section Looks

variable (looks : ∀ op, JobOp.Looks op → P op)

include looks

theorem uses_destinationExists (job : TransferJob) : Uses P (destinationExists job) := by
  unfold destinationExists
  split
  · refine (uses_ask (looks (.stat _) trivial)).bind fun found => ?_
    cases found with
    | ok => trivial
    | error error => exact uses_ite trivial trivial
  · refine (uses_ask (looks (.symlinkMetadata _) trivial)).bind fun found => ?_
    cases found with
    | ok => trivial
    | error error => exact uses_ite trivial trivial

theorem uses_remoteIsDir (destination : RemotePath) : Uses P (remoteIsDir destination) := by
  refine (uses_ask (looks (.lstat _) trivial)).bind fun found => ?_
  cases found with
  | ok => trivial
  | error error => exact uses_ite trivial trivial

theorem uses_localIsDir (destination : LocalPath) : Uses P (localIsDir destination) := by
  refine (uses_ask (looks (.symlinkMetadata _) trivial)).bind fun found => ?_
  cases found with
  | ok => trivial
  | error error => exact uses_ite trivial trivial

theorem uses_directoriesCanMerge (job : TransferJob) : Uses P (directoriesCanMerge job) := by
  unfold directoriesCanMerge
  split
  · exact (uses_ask (looks (.symlinkMetadata _) trivial)).bind fun found => uses_orThrow.bind fun metadata =>
      uses_ite trivial (uses_remoteIsDir looks _)
  · exact (uses_ask (looks (.lstat _) trivial)).bind fun found => uses_orThrow.bind fun attributes =>
      uses_ite trivial (uses_localIsDir looks _)
  · trivial

theorem uses_conflictSourceDetails (job : TransferJob) : Uses P (conflictSourceDetails job) := by
  unfold conflictSourceDetails
  split
  · refine (uses_ask (looks (.symlinkMetadata _) trivial)).bind fun found => ?_
    cases found with
    | ok => trivial
    | error error => trivial
  · refine (uses_ask (looks (.lstat _) trivial)).bind fun found => ?_
    cases found with
    | ok => trivial
    | error error => trivial

theorem uses_renameTo (job : TransferJob) (newName : List Char) : Uses P (renameTo job newName) :=
  uses_orThrow.bind fun renamed => (uses_destinationExists looks renamed).bind fun _ => uses_failIf.bind fun _ => trivial

end Looks

variable (quiet : ∀ op, JobOp.Plain op → P op)

include quiet

theorem uses_emit (event : TransferEvent) : Uses P (perform (.emit (.transfer event))) := uses_ask (quiet _ ⟨fun _ _ => id, rfl⟩)

theorem uses_emitTransferRunning (job : TransferJob) (total : Option Nat) : Uses P (emitTransferRunning job total) :=
  (uses_ask (quiet _ ⟨fun _ _ => id, rfl⟩)).bind fun _ => (uses_emit quiet _).bind fun _ => uses_failIf

theorem uses_warn (transferId : TransferId) (code : ErrorCode) (message detail : String) :
    Uses P (emitTransferWarning transferId code message detail) :=
  (uses_emit quiet _).bind fun _ => trivial

theorem uses_warnRemains (side path text : String) (transferId : TransferId) : Uses P (warnRemains side path text transferId) :=
  (uses_warn quiet _ _ _ _).bind fun _ => trivial

omit quiet in
theorem uses_emitClearedIf (residual : Option TransferId) {path : List Char}
    (clear : ∀ id, residual = some id → P (.emit (.residualTempCleared id path))) (cleaned : Bool) :
    Uses P (emitClearedIf cleaned residual path) := by
  cases residual with
  | none => trivial
  | some id => exact uses_ite ((uses_ask (clear id rfl)).bind fun _ => trivial) trivial

theorem uses_cleanupRemoteTempRaw {temporary : RemotePath} (h : P (.remove temporary)) (transferId : TransferId)
    (residual : Option TransferId) (clear : ∀ id, residual = some id → P (.emit (.residualTempCleared id temporary.chars))) :
    Uses P (cleanupRemoteTempRaw temporary transferId residual) := by
  refine (uses_ask h).bind fun removed => ?_
  refine Uses.bind ?_ fun cleaned => (uses_emitClearedIf residual clear cleaned).bind fun _ => trivial
  cases removed with
  | ok => trivial
  | error error => exact uses_ite trivial (uses_warnRemains quiet _ _ _ _)

theorem uses_verifyRemoteHardlinkRaw {temporary : RemotePath} (h : P (.remove ⟨commitProbe temporary.chars⟩))
    (h' : P (.hardlink temporary ⟨commitProbe temporary.chars⟩)) (transferId : TransferId) :
    Uses P (verifyRemoteHardlinkRaw temporary transferId) := by
  refine (uses_cleanupRemoteTempRaw quiet h _ none (by simp)).bind fun stale => uses_failIf.bind fun _ => ?_
  refine (uses_ask h').bind fun linked => uses_orThrow.bind fun _ => ?_
  exact (uses_cleanupRemoteTempRaw quiet h _ none (by simp)).bind fun cleaned => uses_failIf

theorem uses_markVerified (directories : List (List Char)) : Uses P (markVerified directories) := by
  induction directories with
  | nil => trivial
  | cons directory rest ih => exact (uses_ask (quiet _ ⟨fun _ _ => id, rfl⟩)).bind fun _ => ih

variable (mkdir : ∀ path, P (.mkdir path))

include mkdir

theorem uses_makeRemoteDirectory (current : RemotePath) : Uses P (makeRemoteDirectory current) := by
  refine (uses_ask (mkdir current)).bind fun made => ?_
  cases made with
  | ok => exact uses_ask (quiet _ ⟨fun _ _ => id, rfl⟩)
  | error error =>
    refine uses_ite ?_ trivial
    refine (uses_ask (quiet _ ⟨fun _ _ => id, rfl⟩)).bind fun found => uses_orThrow.bind fun _ => ?_
    exact uses_ask (quiet _ ⟨fun _ _ => id, rfl⟩)

theorem uses_createRemoteComponent (current : RemotePath) : Uses P (createRemoteComponent current) := by
  refine (uses_ask (quiet _ ⟨fun _ _ => id, rfl⟩)).bind fun cancelled => uses_failIf.bind fun _ => ?_
  refine (uses_ask (quiet _ ⟨fun _ _ => id, rfl⟩)).bind fun verified => ?_
  split
  · trivial
  · refine (uses_ask (quiet _ ⟨fun _ _ => id, rfl⟩)).bind fun cancelled => uses_failIf.bind fun _ => ?_
    refine (uses_ask (quiet _ ⟨fun _ _ => id, rfl⟩)).bind fun found => ?_
    cases found with
    | ok attributes => exact uses_ite (uses_ask (quiet _ ⟨fun _ _ => id, rfl⟩)) trivial
    | error error => exact uses_ite (uses_makeRemoteDirectory quiet mkdir current) trivial

theorem uses_createRemoteComponents (directories : List (List Char)) : Uses P (createRemoteComponents directories) := by
  induction directories with
  | nil => trivial
  | cons current rest ih => exact (uses_createRemoteComponent quiet mkdir ⟨current⟩).bind fun _ => ih

theorem uses_createRemoteDirectoryRaw (directory : RemotePath) : Uses P (createRemoteDirectoryRaw directory) := by
  refine (uses_ask (quiet _ ⟨fun _ _ => id, rfl⟩)).bind fun verified => ?_
  split
  · trivial
  · refine Uses.bind ?_ fun isDir => ?_
    · refine (uses_ask (quiet _ ⟨fun _ _ => id, rfl⟩)).bind fun cancelled => ?_
      split
      · trivial
      · refine (uses_ask (quiet _ ⟨fun _ _ => id, rfl⟩)).bind fun found => ?_
        cases found with
        | ok attributes => trivial
        | error error => trivial
    · split
      · exact uses_markVerified quiet _
      · exact uses_createRemoteComponents quiet mkdir _

theorem uses_ensureRemoteParentDirectoryRaw (destination : RemotePath) :
    Uses P (ensureRemoteParentDirectoryRaw destination) := by
  unfold ensureRemoteParentDirectoryRaw
  split
  · trivial
  · split
    · trivial
    · exact uses_createRemoteDirectoryRaw quiet mkdir _

omit mkdir

theorem uses_preserveUploadMetadataRaw (job : TransferJob) (metadata : LocalMetadata) :
    Uses P (preserveUploadMetadataRaw job metadata) := by
  unfold preserveUploadMetadataRaw
  split
  · trivial
  · refine uses_ite trivial ((uses_ask (quiet _ ⟨fun _ _ => id, rfl⟩)).bind fun set => ?_)
    cases set with
    | ok => trivial
    | error error => exact uses_warn quiet _ _ _ _

theorem uses_copyToRemote {temporary : RemotePath} {writer : PipelinedUploadWriter} (h : P (.upload temporary writer))
    (source : LocalPath) : Uses P (copyToRemote source temporary writer) := by
  refine (uses_ask (quiet _ ⟨fun _ _ => id, rfl⟩)).bind fun file => uses_orThrow.bind fun _ => ?_
  refine (uses_ask h).bind fun answer => (uses_ask (quiet _ ⟨fun _ _ => id, rfl⟩)).bind fun closed => ?_
  exact uses_orThrow.bind fun _ => uses_orThrow

omit quiet in
theorem uses_removeRemoteDestinationRaw {destination : RemotePath} (h : P (.remove destination)) :
    Uses P (removeRemoteDestinationRaw destination) := by
  refine (uses_ask h).bind fun removed => ?_
  cases removed with
  | ok => trivial
  | error error => exact uses_ite trivial trivial

omit quiet in
theorem uses_commitRemoteTempRaw {temporary destination : RemotePath} (h : P (.hardlink temporary destination)) :
    Uses P (commitRemoteTempRaw temporary destination) :=
  (uses_ask h).bind fun _ => uses_orThrow

theorem uses_uploadSymlinkRaw {job : TransferJob} (mkdir : ∀ path, P (.mkdir path))
    (each : ∀ destination, job.destination = .remote destination →
      (job.conflictPolicy = .overwriteAll → P (.remove destination)) ∧ ∀ target, P (.symlink target destination)) :
    Uses P (uploadSymlinkRaw job) := by
  unfold uploadSymlinkRaw
  split
  · rename_i source destination from_ aim
    obtain ⟨remove, symlink⟩ := each destination aim
    refine (uses_emitTransferRunning quiet _ _).bind fun _ => (uses_ask (quiet _ ⟨fun _ _ => id, rfl⟩)).bind fun cancelled => ?_
    refine uses_failIf.bind fun _ => (uses_ask (quiet _ ⟨fun _ _ => id, rfl⟩)).bind fun link => uses_orThrow.bind fun target => ?_
    refine (uses_ensureRemoteParentDirectoryRaw quiet mkdir destination).bind fun _ => Uses.bind ?_ fun _ => ?_
    · unfold ifOverwriting
      split
      · rename_i overwrite
        exact uses_removeRemoteDestinationRaw (remove overwrite)
      · trivial
    · exact (uses_ask (symlink target)).bind fun created => uses_orThrow
  · trivial

theorem uses_cleanupLocalTemp {temporary : LocalPath} (h : P (.removeFile temporary)) (transferId : TransferId)
    (residual : Option TransferId) (clear : ∀ id, residual = some id → P (.emit (.residualTempCleared id temporary.chars))) :
    Uses P (cleanupLocalTemp temporary transferId residual) := by
  unfold cleanupLocalTemp
  split
  · trivial
  · refine (uses_ask h).bind fun removed => ?_
    refine Uses.bind ?_ fun cleaned => (uses_emitClearedIf residual clear cleaned).bind fun _ => trivial
    cases removed with
    | ok => trivial
    | error error => exact uses_ite trivial (uses_warnRemains quiet _ _ _ _)

theorem uses_removeLocalDestination {destination : LocalPath} (file : P (.removeFile destination))
    (dir : P (.removeDirAll destination)) : Uses P (removeLocalDestination destination) := by
  refine (uses_ask (quiet _ ⟨fun _ _ => id, rfl⟩)).bind fun found => ?_
  cases found with
  | ok metadata =>
    have below : Uses P (perform (.removeDirAll destination)) := uses_ask dir
    have single : Uses P (perform (.removeFile destination)) := uses_ask file
    exact (uses_ite below single).bind fun removed => uses_orThrow
  | error error => exact uses_ite trivial trivial

theorem uses_removeDownloadedFileDestination {destination : LocalPath} (file : P (.removeFile destination))
    (dir : P (.removeDirAll destination)) : Uses P (removeDownloadedFileDestination destination) :=
  (uses_ask (quiet _ ⟨fun _ _ => id, rfl⟩)).bind fun _ => uses_failIf.bind fun _ =>
    uses_removeLocalDestination quiet file dir

omit quiet in
theorem uses_reserve {temporary : LocalPath} (h : ∀ len, P (.setLen temporary len)) (size : Option Nat) :
    Uses P (reserve temporary size) := by
  cases size with
  | none => trivial
  | some total => exact uses_ite trivial ((uses_ask (h total)).bind fun _ => uses_orThrow)

theorem uses_copyFromRemote {temporary : LocalPath} {reader : PipelinedDownloadReader} (h : P (.download temporary reader))
    (source : RemotePath) : Uses P (copyFromRemote source temporary reader) := by
  refine (uses_ask (quiet _ ⟨fun _ _ => id, rfl⟩)).bind fun opened => uses_orThrow.bind fun _ => ?_
  refine (uses_ask h).bind fun result => (uses_ask (quiet _ ⟨fun _ _ => id, rfl⟩)).bind fun closed => ?_
  exact uses_orThrow.bind fun _ => trivial

theorem uses_markUnverified (directories : List (List Char)) : Uses P (markUnverified directories) := by
  induction directories with
  | nil => trivial
  | cons directory rest ih =>
    refine (uses_ask (quiet _ ⟨fun _ _ => id, rfl⟩)).bind fun (verified : Bool) => uses_ite trivial ?_
    exact (uses_ask (quiet _ ⟨fun _ _ => id, rfl⟩)).bind fun _ => ih

theorem uses_createLocalDirectory {directory : LocalPath} (create : P (.createDirAll directory)) :
    Uses P (createLocalDirectory directory) := by
  refine (uses_ask (quiet _ ⟨fun _ _ => id, rfl⟩)).bind fun (verified : Bool) => uses_ite trivial ?_
  refine (uses_ask create).bind fun created => (uses_ask (quiet _ ⟨fun _ _ => id, rfl⟩)).bind fun cancelled => ?_
  exact uses_failIf.bind fun _ => uses_orThrow.bind fun _ => uses_markUnverified quiet _

theorem uses_ensureLocalParentDirectory (create : ∀ path, P (.createDirAll path)) (destination : LocalPath) :
    Uses P (ensureLocalParentDirectory destination) := by
  unfold ensureLocalParentDirectory
  split
  · trivial
  · exact uses_ite trivial (uses_createLocalDirectory quiet (create _))

theorem uses_preserveDownloadMetadata (job : TransferJob) (source : FileAttributes) :
    Uses P (preserveDownloadMetadata job source) := by
  have warn : ∀ result, Uses P (warnMetadata job result) := by
    intro result
    cases result with
    | ok => trivial
    | error error => exact uses_warn quiet _ _ _ _
  unfold preserveDownloadMetadata
  split
  · trivial
  · rename_i destination aim
    refine Uses.bind ?_ fun set => ?_
    · unfold setDownloadedPermissions
      split
      · refine Uses.bind (uses_ite trivial ?_) fun isDir => uses_ask (quiet _ ⟨fun _ _ => id, rfl⟩)
        refine (uses_ask (quiet _ ⟨fun _ _ => id, rfl⟩)).bind fun found => ?_
        cases found with
        | ok metadata => trivial
        | error error => trivial
      · trivial
    · cases set with
      | ok =>
        refine Uses.bind ?_ fun stamped => warn stamped
        unfold setDownloadedTimes
        split
        · exact uses_ask (quiet _ ⟨fun _ _ => id, rfl⟩)
        · trivial
      | error error => exact warn _

theorem uses_downloadSymlinkRaw {job : TransferJob} (create : ∀ path, P (.createDirAll path))
    (each : ∀ destination, job.destination = .local destination →
      P (.removeFile destination) ∧ P (.removeDirAll destination) ∧ ∀ target, P (.symlinkLocal target destination)) :
    Uses P (downloadSymlinkRaw job) := by
  unfold downloadSymlinkRaw
  split
  · rename_i source destination from_ aim
    obtain ⟨file, dir, symlink⟩ := each destination aim
    refine (uses_emitTransferRunning quiet _ _).bind fun _ => (uses_ask (quiet _ ⟨fun _ _ => id, rfl⟩)).bind fun cancelled => ?_
    refine uses_failIf.bind fun _ => (uses_ask (quiet _ ⟨fun _ _ => id, rfl⟩)).bind fun link => uses_orThrow.bind fun target => ?_
    refine (uses_ask (quiet _ ⟨fun _ _ => id, rfl⟩)).bind fun root => uses_orThrow.bind fun _ => ?_
    refine (uses_ifOverwriting (uses_removeDownloadedFileDestination quiet file dir)).bind fun _ => ?_
    refine (uses_ensureLocalParentDirectory quiet create destination).bind fun _ => ?_
    exact (uses_ask (symlink target)).bind fun created => uses_orThrow
  · trivial

theorem uses_downloadDirectory {job : TransferJob} {source : FileAttributes} {mayClearDestination : Bool}
    (create : ∀ path, P (.createDirAll path))
    (each : ∀ destination, job.destination = .local destination → P (.removeFile destination) ∧ P (.removeDirAll destination)) :
    Uses P (downloadDirectory job source mayClearDestination) := by
  unfold downloadDirectory
  split
  · rename_i destination aim
    obtain ⟨file, dir⟩ := each destination aim
    refine (uses_emitTransferRunning quiet _ _).bind fun _ => (uses_ask (quiet _ ⟨fun _ _ => id, rfl⟩)).bind fun cancelled => ?_
    refine uses_failIf.bind fun _ => Uses.bind (uses_ite (uses_ifOverwriting ?_) trivial) fun _ => ?_
    · exact uses_removeLocalDestination quiet file dir
    · exact (uses_createLocalDirectory quiet (create _)).bind fun _ => uses_preserveDownloadMetadata quiet job source
  · trivial

theorem uses_applyToPlan (applyToAll : Bool) (planId : TransferPlanId) (policy : ConflictPolicy) :
    Uses P (applyToPlan applyToAll planId policy) := uses_ite (uses_ask (quiet _ ⟨fun _ _ => id, rfl⟩)) trivial

theorem uses_settleWaiters (applyToAll : Bool) (planId : TransferPlanId) (decision : ConflictDecision) :
    Uses P (settleWaiters applyToAll planId decision) := uses_ite (uses_ask (quiet _ ⟨fun _ _ => id, rfl⟩)) trivial

theorem uses_askForDecision (job : TransferJob) (planId : TransferPlanId) : Uses P (askForDecision job planId) := by
  refine (uses_ask (quiet _ ⟨fun _ _ => id, rfl⟩)).bind fun requestId => (uses_ask (quiet _ ⟨fun _ _ => id, rfl⟩)).bind fun _ => ?_
  refine (uses_conflictSourceDetails (fun op look => quiet op look.plain) job).bind fun details =>
    (uses_emit quiet _).bind fun received => ?_
  refine uses_failIf.bind fun _ => (uses_ask (quiet _ ⟨fun _ _ => id, rfl⟩)).bind fun decision => ?_
  exact (uses_ask (quiet _ ⟨fun _ _ => id, rfl⟩)).bind fun _ => trivial

theorem uses_applyDecision (job : TransferJob) (planId : TransferPlanId) (decision : ConflictDecision) :
    Uses P (applyDecision job planId decision) := by
  cases decision with
  | overwrite applyToAll =>
    exact (uses_applyToPlan quiet _ _ _).bind fun _ => (uses_settleWaiters quiet _ _ _).bind fun _ => trivial
  | skip applyToAll =>
    exact (uses_applyToPlan quiet _ _ _).bind fun _ => (uses_settleWaiters quiet _ _ _).bind fun _ => trivial
  | rename newName applyToAll =>
    exact (uses_renameTo (fun op look => quiet op look.plain) _ _).bind fun renamed =>
      (uses_applyToPlan quiet _ _ _).bind fun _ => trivial
  | cancelJob => trivial

theorem uses_resolveExisting (job : TransferJob) (planId : TransferPlanId) : Uses P (resolveExisting job planId) := by
  unfold resolveExisting
  split
  · trivial
  · trivial
  · exact uses_renameTo (fun op look => quiet op look.plain) _ _
  · exact uses_renameTo (fun op look => quiet op look.plain) _ _
  · exact (uses_askForDecision quiet job planId).bind fun decision => uses_applyDecision quiet job planId decision

/-- Settling a conflict changes no file. -/
theorem uses_resolveTransferConflict (job : TransferJob) (planId : TransferPlanId) :
    Uses P (resolveTransferConflict job planId) := by
  refine uses_ite trivial ((uses_destinationExists (fun op look => quiet op look.plain) job).bind fun found => uses_ite ?_ trivial)
  exact (uses_directoriesCanMerge (fun op look => quiet op look.plain) job).bind fun merge =>
    uses_ite trivial (uses_resolveExisting quiet job planId)

end Uses

end MacSftp
