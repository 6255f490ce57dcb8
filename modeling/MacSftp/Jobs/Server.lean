import MacSftp.Jobs.World

namespace MacSftp

open Lib

/-- A world that answers every operation, except that it refuses some: for runs on given files. -/
structure Server where
  refuses : JobOp → Bool := fun _ => false
  reads : List SourceRead := []
  writes : List WriteEvent := []
  replies : List ReadEvent := []
  decides : ConflictDecision := .cancelJob

namespace Server

def refusal : SftpError := ⟨some .failure, "Failure"⟩

def absent : SftpError := ⟨some .noSuchFile, "No such file"⟩

def localRefusal : IoError := ⟨.permissionDenied, "Permission denied"⟩

def localAbsent : IoError := ⟨.notFound, "No such file or directory"⟩

section Calls

variable {ε : Type} (refused : Bool) (failed missing : ε) (side : Side) (path : List Char) (w : JobWorld)

def create (node : FileNode) : Except ε Unit × JobWorld :=
  if refused = false ∧ w.files side path = none then (.ok (), w.put side path (some node)) else (.error failed, w)

def link (target : List Char) : Except ε Unit × JobWorld :=
  match w.files side path with
  | some node =>
    if refused = false ∧ node ≠ .dir ∧ w.files side target = none then (.ok (), w.put side target (some node))
    else (.error failed, w)
  | none => (.error missing, w)

def remove : Except ε Unit × JobWorld :=
  match w.files side path with
  | some node => if refused = false ∧ node ≠ .dir then (.ok (), w.put side path none) else (.error failed, w)
  | none => (.error missing, w)

theorem create_creates (node : FileNode) :
    Creates side path node (create refused failed side path w node).1 w (create refused failed side path w node).2 := by
  unfold create
  split
  · rename_i free
    exact ⟨free.2, rfl⟩
  · rfl

theorem link_links (target : List Char) : LinksTo side path target (link refused failed missing side path w target).1 w
    (link refused failed missing side path w target).2 := by
  unfold link
  split
  · rename_i node found
    split
    · rename_i free
      exact ⟨free.2.2, node, found, free.2.1, rfl⟩
    · rfl
  · rfl

theorem remove_removes {isMissing : ε → Prop} (known : ¬isMissing failed) :
    Removes side path isMissing (remove refused failed missing side path w).1 w
      (remove refused failed missing side path w).2 := by
  unfold remove
  split
  · rename_i node found
    split
    · rename_i allowed
      exact ⟨⟨node, found, allowed.2⟩, rfl⟩
    · exact ⟨rfl, fun reported => absurd reported known⟩
  · rename_i none_
    exact ⟨rfl, fun _ => none_⟩

end Calls

def kindOf : FileNode → FileKind
  | .file _ => .file
  | .dir => .dir
  | .link _ => .symlink

def sizeOf : FileNode → Nat
  | .file bytes => bytes.length % 2 ^ 64
  | _ => 0

theorem sizeOf_lt (node : FileNode) : sizeOf node < 2 ^ 64 := by
  cases node with
  | file bytes => exact Nat.mod_lt _ (by decide)
  | dir => exact Nat.two_pow_pos 64
  | link target => exact Nat.two_pow_pos 64

def attributes (node : FileNode) : FileAttributes where
  kind := kindOf node
  size := some (sizeOf node)
  size_lt := fun _ known => Option.some.inj known ▸ sizeOf_lt node

def localMetadata (node : FileNode) : LocalMetadata where
  kind := kindOf node
  len := sizeOf node
  mode := 0o644
  modified := none
  len_lt := sizeOf_lt node

def statRemote (path : List Char) (w : JobWorld) : Except SftpError FileAttributes :=
  match w.files .remote path with
  | some node => .ok (attributes node)
  | none => .error absent

def statLocal (path : List Char) (w : JobWorld) : Except IoError LocalMetadata :=
  match w.files .local path with
  | some node => .ok (localMetadata node)
  | none => .error localAbsent

def readTarget {ε : Type} (failed : ε) (side : Side) (path : List Char) (w : JobWorld) : Except ε (List Char) :=
  match w.files side path with
  | some (.link target) => .ok target
  | _ => .error failed

/-- An upload whose acknowledgements have run out is cancelled. -/
def uploaded : Upload → WriterState × Except UserFacingError Nat
  | .ended s result => (s, result)
  | .running s => (s, .error cancelledTransferError)

def downloaded : Download → ReaderState × Except UserFacingError Nat
  | .ended s result => (s, result)
  | .running s => (s, .error cancelledTransferError)

theorem uploadFrom_cancelled (writer : PipelinedUploadWriter) (source : List SourceRead) (events : List WriteEvent) :
    writer.uploadFrom .wrapping source (events ++ [.cancelled]) = .ended (uploaded (writer.uploadFrom .wrapping source events)).1
      (uploaded (writer.uploadFrom .wrapping source events)).2 := by
  unfold PipelinedUploadWriter.uploadFrom
  rw [Machine.run_concat]
  cases (writer.machine .wrapping).run (writer.start .wrapping source) events with
  | running s => rfl
  | ended s result => rfl

theorem downloadTo_cancelled (reader : PipelinedDownloadReader) (events : List ReadEvent) :
    reader.downloadTo .wrapping (events ++ [.cancelled]) = .ended (downloaded (reader.downloadTo .wrapping events)).1
      (downloaded (reader.downloadTo .wrapping events)).2 := by
  unfold PipelinedDownloadReader.downloadTo
  rw [Machine.run_concat]
  cases (reader.machine .wrapping).run (reader.start .wrapping) events with
  | running s => rfl
  | ended s result => rfl

variable (server : Server)

def grow (path : List Char) (len : Nat) (w : JobWorld) : Except IoError Unit × JobWorld :=
  match w.files .local path with
  | some (.file bytes) => (.ok (), w.put .local path (some (.file (resize bytes len))))
  | _ => (.error localAbsent, w)

def serve : (op : JobOp) → JobWorld → op.Answer × JobWorld
  | .stat path, w | .lstat path, w => (statRemote path.chars w, w)
  | .mkdir path, w => create (server.refuses (.mkdir path)) refusal .remote path.chars w .dir
  | .openNew path, w => create (server.refuses (.openNew path)) refusal .remote path.chars w (.file [])
  | .openRead _, w | .close _, w | .setstat .., w => (.ok (), w)
  | .upload path writer, w =>
    let ended := uploaded (writer.uploadFrom .wrapping server.reads server.writes)
    ((server.reads, ended.2), w.put .remote path.chars (some (.file ended.1.remote.file)))
  | .remove path, w => remove (server.refuses (.remove path)) refusal absent .remote path.chars w
  | .hardlink path target, w => link (server.refuses (.hardlink path target)) refusal absent .remote path.chars w target.chars
  | .symlink target path, w => create (server.refuses (.symlink target path)) refusal .remote path.chars w (.link target)
  | .readlink path, w => (readTarget absent .remote path.chars w, w)
  | .symlinkMetadata path, w | .metadata path, w => (statLocal path.chars w, w)
  | .readLink path, w => (readTarget localAbsent .local path.chars w, w)
  | .openFile _, w | .createDirAll _, w | .setPermissions .., w | .setTimes .., w => (.ok (), w)
  | .createNew path, w => create (server.refuses (.createNew path)) localRefusal .local path.chars w (.file [])
  | .setLen path len, w => grow path.chars len w
  | .download path reader, w =>
    let ended := downloaded (reader.downloadTo .wrapping server.replies)
    (ended.2, w.put .local path.chars (some (.file ended.1.destination.file)))
  | .removeFile path, w => remove (server.refuses (.removeFile path)) localRefusal localAbsent .local path.chars w
  | .removeDirAll _, w => (.error localRefusal, w)
  | .hardLink path target, w =>
    link (server.refuses (.hardLink path target)) localRefusal localAbsent .local path.chars w target.chars
  | .symlinkLocal target path, w =>
    create (server.refuses (.symlinkLocal target path)) localRefusal .local path.chars w (.link target)
  | .isCancelled, w => (false, w)
  | .now, w => (⟨0⟩, w)
  | .emit _, w => (true, w)
  | .directoryVerified directory, w => (w.verifiedDirectories.contains directory, w)
  | .markDirectoryVerified directory, w => ((), { w with verifiedDirectories := directory :: w.verifiedDirectories })
  | .hardlinkCommitConfirmed directory, w => (w.hardlinkCommitDirectories.contains directory, w)
  | .confirmHardlinkCommit directory, w =>
    ((), { w with hardlinkCommitDirectories := directory :: w.hardlinkCommitDirectories })
  | .destinationRoot, w => (w.destinationRoot, w)
  | .setDestinationRoot root, w => ((), { w with destinationRoot := w.destinationRoot.or (some root) })
  | .nextRequestId, w => (⟨0⟩, w)
  | .decision _, w => (server.decides, w)
  | .registerWaiter .., w | .removeWaiter _, w | .setPlanPolicy .., w | .resolveWaitersForPlan .., w => ((), w)

theorem serve_does (op : JobOp) (w : JobWorld) : op.Does (server.serve op w).1 w (server.serve op w).2 := by
  cases op with
  | mkdir path | openNew path | symlink target path | createNew path | symlinkLocal target path =>
    exact create_creates _ _ _ _ _ _
  | hardlink path target | hardLink path target => exact link_links _ _ _ _ _ _ _
  | remove path => exact remove_removes _ _ _ _ _ _ (by simp [SftpError.missing, refusal])
  | removeFile path => exact remove_removes _ _ _ _ _ _ (by simp [IoError.missing, localRefusal])
  | upload path writer => exact ⟨_, _, _, uploadFrom_cancelled writer _ _, fun _ _ => rfl, rfl⟩
  | download path reader => exact ⟨_, _, _, downloadTo_cancelled reader _, fun _ _ => rfl, rfl⟩
  | createDirAll path => exact ⟨w.files, rfl, fun _ _ => Or.inl rfl⟩
  | removeDirAll path => exact ⟨w.files, rfl, fun _ _ => Or.inl rfl⟩
  | setLen path len =>
    simp only [serve, grow, JobOp.Does]
    split
    · rename_i answer served
      split at served
      · rename_i bytes found
        exact ⟨bytes, found, rfl⟩
      · cases served
    · rename_i answer e served
      split at served
      · cases served
      · rfl
  | directoryVerified directory | hardlinkCommitConfirmed directory => exact ⟨rfl, List.contains_eq_mem _ _⟩
  | destinationRoot => exact ⟨rfl, rfl⟩
  | markDirectoryVerified directory | confirmHardlinkCommit directory | setDestinationRoot root => rfl
  | stat | lstat | openRead | close | setstat | readlink | symlinkMetadata | readLink | openFile | metadata
  | setPermissions | setTimes | isCancelled | now | emit | nextRequestId | registerWaiter | decision | removeWaiter
  | setPlanPolicy | resolveWaitersForPlan => rfl

end Server

end MacSftp
