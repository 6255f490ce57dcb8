import MacSftp.Jobs.Conflict

namespace MacSftp

open Lib

inductive Side
  | remote
  | local
  deriving DecidableEq, Repr

inductive FileNode
  | file (bytes : List UInt8)
  | dir
  | link (target : List Char)
  deriving DecidableEq, Repr

/-- The files at both ends, by their paths, and what the jobs of a plan have found out together. -/
structure JobWorld where
  files : Side → List Char → Option FileNode
  verifiedDirectories : List (List Char) := []
  hardlinkCommitDirectories : List (List Char) := []
  destinationRoot : Option LocalPath := none

namespace JobWorld

def put (w : JobWorld) (side : Side) (path : List Char) (node : Option FileNode) : JobWorld :=
  { w with files := fun s p => if s = side ∧ p = path then node else w.files s p }

@[simp] theorem put_files (w : JobWorld) (side : Side) (path : List Char) (node : Option FileNode) :
    (w.put side path node).files side path = node := by
  simp [put]

end JobWorld

section Effects

variable {ε : Type} (side : Side) (path : List Char)

/-- A call that fails changes nothing. -/
def Creates (node : FileNode) : Except ε Unit → JobWorld → JobWorld → Prop
  | .ok (), w, w' => w.files side path = none ∧ w' = w.put side path (some node)
  | .error _, w, w' => w' = w

def LinksTo (link : List Char) : Except ε Unit → JobWorld → JobWorld → Prop
  | .ok (), w, w' => w.files side link = none ∧
      ∃ node, w.files side path = some node ∧ node ≠ .dir ∧ w' = w.put side link (some node)
  | .error _, w, w' => w' = w

/-- The error for a missing file is reported for no other. -/
def Removes (missing : ε → Prop) : Except ε Unit → JobWorld → JobWorld → Prop
  | .ok (), w, w' => (∃ node, w.files side path = some node ∧ node ≠ .dir) ∧ w' = w.put side path none
  | .error e, w, w' => w' = w ∧ (missing e → w.files side path = none)

/-- A file that is written through its handle. -/
def Fills (bytes : List UInt8) (w w' : JobWorld) : Prop := w' = w.put side path (some (.file bytes))

end Effects

def resize (bytes : List UInt8) (len : Nat) : List UInt8 := bytes.take len ++ List.replicate (len - bytes.length) 0

/-- Directories appear where nothing was, also when not all of them can be created. -/
def AddsDirectories (w w' : JobWorld) : Prop :=
  ∃ files, w' = { w with files := files } ∧
    ∀ side path, files side path = w.files side path ∨ (side = .local ∧ w.files side path = none ∧ files side path = some .dir)

/-- A directory goes with what is below it, or part of that when the call fails. -/
def RemovesBelow (directory : List Char) (w w' : JobWorld) : Prop :=
  ∃ files, w' = { w with files := files } ∧
    ∀ side path, files side path = w.files side path ∨
      (side = .local ∧ (path = directory ∨ directory ++ ['/'] <+: path) ∧ files side path = none)

def Uploads (path : List Char) (writer : PipelinedUploadWriter) (answer : List SourceRead × Except UserFacingError Nat)
    (w w' : JobWorld) : Prop :=
  ∃ events s bytes, writer.uploadFrom .wrapping answer.1 events = .ended s answer.2 ∧
    (∀ n, answer.2 = .ok n → bytes = s.remote.file) ∧ Fills .remote path bytes w w'

def Downloads (path : List Char) (reader : PipelinedDownloadReader) (result : Except UserFacingError Nat)
    (w w' : JobWorld) : Prop :=
  ∃ events s bytes, reader.downloadTo .wrapping events = .ended s result ∧
    (∀ n, result = .ok n → bytes = s.destination.file) ∧ Fills .local path bytes w w'

def SftpError.missing (error : SftpError) : Prop := error.status = some .noSuchFile

def IoError.missing (error : IoError) : Prop := error.kind = .notFound

/-- What an operation does when it is answered so. What is not listed here changes neither files nor facts. -/
def JobOp.Does : (op : JobOp) → op.Answer → JobWorld → JobWorld → Prop
  | .mkdir path, answer => Creates .remote path.chars .dir answer
  | .openNew path, answer => Creates .remote path.chars (.file []) answer
  | .symlink target link, answer => Creates .remote link.chars (.link target) answer
  | .hardlink path link, answer => LinksTo .remote path.chars link.chars answer
  | .remove path, answer => Removes .remote path.chars SftpError.missing answer
  | .upload path writer, answer => Uploads path.chars writer answer
  | .createDirAll _, _ => AddsDirectories
  | .createNew path, answer => Creates .local path.chars (.file []) answer
  | .symlinkLocal target link, answer => Creates .local link.chars (.link target) answer
  | .hardLink path link, answer => LinksTo .local path.chars link.chars answer
  | .removeFile path, answer => Removes .local path.chars IoError.missing answer
  | .removeDirAll path, _ => RemovesBelow path.chars
  | .setLen path len, answer => fun w w' =>
    match answer with
    | .ok () => ∃ bytes, w.files .local path.chars = some (.file bytes) ∧ Fills .local path.chars (resize bytes len) w w'
    | .error _ => w' = w
  | .download path reader, answer => Downloads path.chars reader answer
  | .directoryVerified directory, answer => fun w w' => w' = w ∧ answer = decide (directory ∈ w.verifiedDirectories)
  | .markDirectoryVerified directory, _ => fun w w' =>
    w' = { w with verifiedDirectories := directory :: w.verifiedDirectories }
  | .hardlinkCommitConfirmed directory, answer => fun w w' =>
    w' = w ∧ answer = decide (directory ∈ w.hardlinkCommitDirectories)
  | .confirmHardlinkCommit directory, _ => fun w w' =>
    w' = { w with hardlinkCommitDirectories := directory :: w.hardlinkCommitDirectories }
  | .destinationRoot, answer => fun w w' => w' = w ∧ answer = w.destinationRoot
  | .setDestinationRoot root, _ => fun w w' => w' = { w with destinationRoot := w.destinationRoot.or (some root) }
  | _, _ => fun w w' => w' = w

/-- The files an operation may change. -/
def JobOp.Touches : JobOp → Side → List Char → Prop
  | .mkdir path | .openNew path | .symlink _ path | .hardlink _ path | .remove path | .upload path _ =>
    fun side p => side = .remote ∧ p = path.chars
  | .createNew path | .symlinkLocal _ path | .hardLink _ path | .removeFile path | .setLen path _ | .download path _ =>
    fun side p => side = .local ∧ p = path.chars
  | .createDirAll _ | .removeDirAll _ => fun side _ => side = .local
  | _ => fun _ _ => False

theorem put_frame {w : JobWorld} {side s : Side} {path p : List Char} {node : Option FileNode} (h : ¬(s = side ∧ p = path)) :
    (w.put side path node).files s p = w.files s p := if_neg h

theorem creates_frame {ε : Type} {answer : Except ε Unit} {side s : Side} {path p : List Char} {node : FileNode}
    {w w' : JobWorld} (step : Creates side path node answer w w') (h : ¬(s = side ∧ p = path)) :
    w'.files s p = w.files s p := by
  cases answer with
  | ok => rw [step.2, put_frame h]
  | error e => rw [show w' = w from step]

theorem linksTo_frame {ε : Type} {answer : Except ε Unit} {side s : Side} {path link p : List Char} {w w' : JobWorld}
    (step : LinksTo side path link answer w w') (h : ¬(s = side ∧ p = link)) : w'.files s p = w.files s p := by
  cases answer with
  | ok =>
    obtain ⟨_, node, _, _, rfl⟩ := step
    exact put_frame h
  | error e => rw [show w' = w from step]

theorem removes_frame {ε : Type} {missing : ε → Prop} {answer : Except ε Unit} {side s : Side} {path p : List Char}
    {w w' : JobWorld} (step : Removes side path missing answer w w') (h : ¬(s = side ∧ p = path)) :
    w'.files s p = w.files s p := by
  cases answer with
  | ok => rw [step.2, put_frame h]
  | error e => rw [step.1]

theorem does_frame {op : JobOp} {answer : op.Answer} {w w' : JobWorld} (step : op.Does answer w w') {side : Side}
    {path : List Char} (h : ¬op.Touches side path) : w'.files side path = w.files side path := by
  cases op with
  | mkdir | openNew | symlink | createNew | symlinkLocal => exact creates_frame step h
  | hardlink | hardLink => exact linksTo_frame step h
  | remove | removeFile => exact removes_frame step h
  | upload | download =>
    obtain ⟨_, _, _, _, _, rfl⟩ := step
    exact put_frame h
  | createDirAll =>
    obtain ⟨files, rfl, each⟩ := step
    exact (each side path).resolve_right fun added => h added.1
  | removeDirAll =>
    obtain ⟨files, rfl, each⟩ := step
    exact (each side path).resolve_right fun gone => h gone.1
  | setLen =>
    cases answer with
    | ok =>
      obtain ⟨_, _, rfl⟩ := step
      exact put_frame h
    | error e => rw [show w' = w from step]
  | directoryVerified | hardlinkCommitConfirmed | destinationRoot => rw [step.1]
  | markDirectoryVerified | confirmHardlinkCommit | setDestinationRoot => rw [show w' = _ from step]
  | stat | lstat | openRead | close | setstat | readlink | symlinkMetadata | readLink | openFile | metadata
  | setPermissions | setTimes | isCancelled | now | emit | nextRequestId | registerWaiter | decision | removeWaiter
  | setPlanPolicy | resolveWaitersForPlan => rw [show w' = w from step]

/-- What others do while a job runs, with the files they leave alone. -/
def Spares (spared : Side → List Char → Prop) (w w' : JobWorld) : Prop :=
  ∀ side path, spared side path → w'.files side path = w.files side path

/-- The temporary files of a transfer, whatever its destination. Their names carry its id. -/
def Auxiliary (transferId : TransferId) : Side → List Char → Prop
  | .remote, path => ∃ destination, path = (remoteTemporaryPath destination transferId).chars ∨
      path = commitProbe (remoteTemporaryPath destination transferId).chars
  | .local, path => ∃ destination, path = (localTemporaryPath destination transferId).chars ∨
      path = commitProbe (localTemporaryPath destination transferId).chars

abbrev JobStep := Asked JobWorld JobOp JobOp.Answer

def createdBy : (op : JobOp) → op.Answer → Option (Side × List Char)
  | .openNew path, .ok () => some (.remote, path.chars)
  | .symlink _ link, .ok () => some (.remote, link.chars)
  | .hardlink _ link, .ok () => some (.remote, link.chars)
  | .createNew path, .ok () => some (.local, path.chars)
  | .symlinkLocal _ link, .ok () => some (.local, link.chars)
  | .hardLink _ link, .ok () => some (.local, link.chars)
  | _, _ => none

def removedBy : (op : JobOp) → op.Answer → Option (Side × List Char)
  | .remove path, .ok () => some (.remote, path.chars)
  | .removeFile path, .ok () => some (.local, path.chars)
  | _, _ => none

def emittedBy : JobOp → Option JobEvent
  | .emit event => some event
  | _ => none

/-- The file a step created. -/
def JobStep.creates (s : JobStep) : Option (Side × List Char) := createdBy s.op s.answer

def JobStep.removes (s : JobStep) : Option (Side × List Char) := removedBy s.op s.answer

def JobStep.emits (s : JobStep) : Option JobEvent := emittedBy s.op

end MacSftp
