import MacSftp.Jobs.Frames
import MacSftp.Jobs.Server
import MacSftp.Pipeline.Upload

namespace MacSftp

open Lib Program

def deliveredBy : (op : JobOp) → op.Answer → Option FileNode
  | .upload _ writer, (source, .ok _) => writer.bytesTotal.map fun total => .file ((contents source).take total)
  | .readLink _, .ok target => some (.link target)
  | _, _ => none

/-- The complete new content of the destination, once a step has read all of it. -/
def JobStep.delivers (s : JobStep) : Option FileNode := deliveredBy s.op s.answer

def overwriteDecided : (op : JobOp) → op.Answer → Bool
  | .decision _, .overwrite _ => true
  | _, _ => false

section Replace

variable {job : TransferJob} {destination : RemotePath} {old : List UInt8} {past : List JobStep} {w : JobWorld}

/-- Nobody else touches the destination or the temporary files of the transfer. -/
def ReplaceSpares (job : TransferJob) (destination : RemotePath) : JobWorld → JobWorld → Prop :=
  Spares fun side path => Auxiliary job.id side path ∨ (side = .remote ∧ path = destination.chars)

def Untouched (destination : RemotePath) (past : List JobStep) : Prop :=
  ∀ s ∈ past, s.removes ≠ some (.remote, destination.chars) ∧ s.creates ≠ some (.remote, destination.chars)

def Kept (destination : RemotePath) (old : List UInt8) (past : List JobStep) (w : JobWorld) : Prop :=
  w.files .remote destination.chars = some (.file old) ∧ Untouched destination past

def Gone (destination : RemotePath) (past : List JobStep) (w : JobWorld) : Prop :=
  w.files .remote destination.chars = none ∧ (∃ s ∈ past, s.removes = some (.remote, destination.chars)) ∧
    ∀ s ∈ past, s.creates ≠ some (.remote, destination.chars)

/-- A path that holds the complete new content. -/
def Holds (path : List Char) (past : List JobStep) (w : JobWorld) : Prop :=
  ∃ s ∈ past, ∃ node, s.delivers = some node ∧ w.files .remote path = some node

def Replaced (destination : RemotePath) (past : List JobStep) (w : JobWorld) : Prop :=
  Holds destination.chars past w ∧ ∃ s ∈ past, s.creates = some (.remote, destination.chars)

/-- Operations that concern other files than the destination. -/
def Aside (destination : RemotePath) (op : JobOp) : Prop := ¬op.Touches .remote destination.chars

theorem spares_destination {w w' : JobWorld} (h : ReplaceSpares job destination w w') :
    w'.files .remote destination.chars = w.files .remote destination.chars := h _ _ (Or.inr ⟨rfl, rfl⟩)

theorem spares_temporary {w w' : JobWorld} (h : ReplaceSpares job destination w w') :
    w'.files .remote (remoteTemporaryPath destination job.id).chars =
      w.files .remote (remoteTemporaryPath destination job.id).chars := h _ _ (Or.inl ⟨destination, Or.inl rfl⟩)

theorem aside_untouched {op : JobOp} (aside : Aside destination op) (answer : op.Answer) (before after : JobWorld) :
    JobStep.removes ⟨before, op, answer, after⟩ ≠ some (.remote, destination.chars) ∧
      JobStep.creates ⟨before, op, answer, after⟩ ≠ some (.remote, destination.chars) :=
  ⟨fun h => aside (removedBy_touches h), fun h => aside (createdBy_touches h)⟩

theorem Untouched.append (h : Untouched destination past) {s : JobStep}
    (hs : s.removes ≠ some (.remote, destination.chars) ∧ s.creates ≠ some (.remote, destination.chars)) :
    Untouched destination (past ++ [s]) := by
  intro x hx
  rcases List.mem_append.mp hx with hx | hx
  · exact h x hx
  · rw [List.mem_singleton.mp hx]
    exact hs

theorem kept_aside {op : JobOp} {answer : op.Answer} {before after : JobWorld} (aside : Aside destination op)
    (h : Kept destination old past w) (between : ReplaceSpares job destination w before) (step : op.Does answer before after) :
    Kept destination old (past ++ [⟨before, op, answer, after⟩]) after := by
  refine ⟨?_, h.2.append (aside_untouched aside answer before after)⟩
  rw [does_frame step aside, spares_destination between]
  exact h.1

theorem kept_mkdir {path : RemotePath} {answer : JobOp.Answer (.mkdir path)} {before after : JobWorld}
    (h : Kept destination old past w) (between : ReplaceSpares job destination w before)
    (step : JobOp.Does (.mkdir path) answer before after) :
    Kept destination old (past ++ [⟨before, .mkdir path, answer, after⟩]) after := by
  by_cases same : destination.chars = path.chars
  · cases answer with
    | ok =>
      have taken := (spares_destination between).trans h.1
      rw [same] at taken
      exact absurd (step.1.symm.trans taken) (by simp)
    | error e =>
      refine ⟨?_, h.2.append ⟨?_, ?_⟩⟩
      · rw [show after = before from step, spares_destination between]
        exact h.1
      · exact fun h => by cases h
      · exact fun h => by cases h
  · exact kept_aside (fun touched => same touched.2) h between step

theorem gone_aside {op : JobOp} {answer : op.Answer} {before after : JobWorld} (aside : Aside destination op)
    (h : Gone destination past w) (between : ReplaceSpares job destination w before) (step : op.Does answer before after) :
    Gone destination (past ++ [⟨before, op, answer, after⟩]) after := by
  obtain ⟨absent, ⟨r, hr, removed⟩, uncreated⟩ := h
  refine ⟨?_, ⟨r, List.mem_append_left _ hr, removed⟩, ?_⟩
  · rw [does_frame step aside, spares_destination between]
    exact absent
  · intro x hx
    rcases List.mem_append.mp hx with hx | hx
    · exact uncreated x hx
    · rw [List.mem_singleton.mp hx]
      exact (aside_untouched aside answer before after).2

theorem Holds.step {path : List Char} {op : JobOp} {answer : op.Answer} {before after : JobWorld}
    (h : Holds path past w) (untouched : ¬op.Touches .remote path)
    (spared : before.files .remote path = w.files .remote path) (step : op.Does answer before after) :
    Holds path (past ++ [⟨before, op, answer, after⟩]) after := by
  obtain ⟨s, hs, node, delivered, found⟩ := h
  refine ⟨s, List.mem_append_left _ hs, node, delivered, ?_⟩
  rw [does_frame step untouched, spared, found]

theorem replaced_aside {op : JobOp} {answer : op.Answer} {before after : JobWorld} (aside : Aside destination op)
    (h : Replaced destination past w) (between : ReplaceSpares job destination w before) (step : op.Does answer before after) :
    Replaced destination (past ++ [⟨before, op, answer, after⟩]) after := by
  obtain ⟨holds, s, hs, created⟩ := h
  exact ⟨holds.step aside (spares_destination between) step, s, List.mem_append_left _ hs, created⟩

theorem temporary_aside (destination : RemotePath) (transferId : TransferId) {op : JobOp}
    (only : ∀ side path, op.Touches side path → path = (remoteTemporaryPath destination transferId).chars ∨
      path = commitProbe (remoteTemporaryPath destination transferId).chars) : Aside destination op := by
  intro touched
  rcases only _ _ touched with same | same
  · exact remoteTemporaryPath_ne destination transferId same.symm
  · exact remoteProbe_ne destination transferId same.symm

theorem quiet_aside (op : JobOp) (plain : op.Plain) : Aside destination op := plain.1 _ _

abbrev ReplaceTriple {α : Type} (job : TransferJob) (destination : RemotePath) (P : List JobStep → JobWorld → Prop)
    (p : JobM α) (Q : Except UserFacingError α → List JobStep → JobWorld → Prop) : Prop :=
  Triple (ReplaceSpares job destination) JobOp.Does P p Q

theorem kept_through {α : Type} {p : JobM α} (uses : Uses (fun op => Aside destination op ∨ ∃ path, op = .mkdir path) p) :
    ReplaceTriple job destination (Kept destination old) p (outcome (fun _ => Kept destination old) (Kept destination old)) := by
  refine triple_uses uses ?_
  rintro op answer past w before after (aside | ⟨path, rfl⟩) kept between step
  · exact kept_aside aside kept between step
  · exact kept_mkdir kept between step

theorem gone_through {α : Type} {p : JobM α} (uses : Uses (Aside destination) p) :
    ReplaceTriple job destination (Gone destination) p (outcome (fun _ => Gone destination) (Gone destination)) :=
  triple_uses uses fun _ _ _ _ _ _ aside gone between step => gone_aside aside gone between step

theorem replaced_through {α : Type} {p : JobM α} (uses : Uses (Aside destination) p) :
    ReplaceTriple job destination (Replaced destination) p (outcome (fun _ => Replaced destination) (Replaced destination)) :=
  triple_uses uses fun _ _ _ _ _ _ aside replaced between step => replaced_aside aside replaced between step

theorem cleanup_aside (residual : Option TransferId) :
    Uses (Aside destination) (cleanupRemoteTempRaw (remoteTemporaryPath destination job.id) job.id residual) := by
  refine uses_cleanupRemoteTempRaw quiet_aside ?_ _ _ (fun _ _ => id)
  exact temporary_aside destination job.id fun side path touched => Or.inl touched.2

/-- The old file is still there, and the complete new content is at `path`. -/
def Ready (destination : RemotePath) (old : List UInt8) (path : List Char) (past : List JobStep) (w : JobWorld) : Prop :=
  Kept destination old past w ∧ Holds path past w

theorem ready_step {op : JobOp} {answer : op.Answer} {before after : JobWorld} (aside : Aside destination op)
    (untouched : ¬op.Touches .remote (remoteTemporaryPath destination job.id).chars)
    (h : Ready destination old (remoteTemporaryPath destination job.id).chars past w)
    (between : ReplaceSpares job destination w before) (step : op.Does answer before after) :
    Ready destination old (remoteTemporaryPath destination job.id).chars (past ++ [⟨before, op, answer, after⟩]) after :=
  ⟨kept_aside aside h.1 between step, h.2.step untouched (spares_temporary between) step⟩

theorem upload_holds {temporary : RemotePath} {writer : PipelinedUploadWriter} {total n : Nat}
    (known : writer.bytesTotal = some total) {source : List SourceRead} {before after : JobWorld}
    (step : JobOp.Does (.upload temporary writer) (source, .ok n) before after) :
    Holds temporary.chars (past ++ [⟨before, .upload temporary writer, (source, .ok n), after⟩]) after := by
  obtain ⟨events, s, bytes, done, whole, rfl⟩ := step
  have short : writer.Short (contents source) := fun unknown => absurd (known.symm.trans unknown) (by simp)
  obtain ⟨file, _, _, sized, _⟩ := PipelinedUploadWriter.uploadFrom_done short done
  refine ⟨_, List.mem_append_right _ List.mem_cons_self, .file ((contents source).take total), ?_, ?_⟩
  · simp [JobStep.delivers, deliveredBy, known]
  · rw [JobWorld.put_files, whole n rfl, file, sized total known]

theorem copy_ready (source : LocalPath) {writer : PipelinedUploadWriter} {total : Nat}
    (known : writer.bytesTotal = some total) :
    ReplaceTriple job destination (Kept destination old)
      (copyToRemote source (remoteTemporaryPath destination job.id) writer)
      (outcome (fun _ => Ready destination old (remoteTemporaryPath destination job.id).chars) (Kept destination old)) := by
  refine triple_step _ (R := fun _ => Kept destination old)
    (fun answer past w before after kept between step =>
      kept_aside (quiet_aside _ ⟨fun _ _ => id, rfl⟩) kept between step) fun opened => ?_
  refine triple_seq (R := fun _ => Kept destination old) ?_ (fun _ _ kept => kept) fun _ => ?_
  · cases opened with
    | ok => exact triple_pure fun _ _ kept => kept
    | error e => exact triple_throw fun _ _ kept => kept
  refine triple_step (JobOp.upload (remoteTemporaryPath destination job.id) writer)
    (R := fun (answer : List SourceRead × Except UserFacingError Nat) past w =>
    Kept destination old past w ∧ ∀ n, answer.2 = .ok n →
      Holds (remoteTemporaryPath destination job.id).chars past w) ?_ fun answer => ?_
  · rintro ⟨read, result⟩ past w before after kept between step
    refine ⟨kept_aside (temporary_aside destination job.id fun side path touched => Or.inl touched.2) kept between step, ?_⟩
    rintro n rfl
    exact upload_holds known step
  refine triple_step _ (R := fun _ past w => Kept destination old past w ∧
    ∀ n, answer.2 = .ok n → Holds (remoteTemporaryPath destination job.id).chars past w) ?_ fun closed => ?_
  · intro answer' past w before after held between step
    refine ⟨kept_aside (quiet_aside _ ⟨fun _ _ => id, rfl⟩) held.1 between step, fun n done => ?_⟩
    exact (held.2 n done).step id (spares_temporary between) step
  refine triple_seq (R := fun _ => Ready destination old (remoteTemporaryPath destination job.id).chars) ?_ (fun _ _ kept => kept)
    fun _ => ?_
  · obtain ⟨read, result⟩ := answer
    cases result with
    | ok n => exact triple_pure fun _ _ held => ⟨held.1, held.2 n rfl⟩
    | error e => exact triple_throw fun _ _ held => held.1
  · cases closed with
    | ok => exact triple_pure fun _ _ held => held
    | error e => exact triple_throw fun _ _ held => held.1

theorem remove_gone {P R : List JobStep → JobWorld → Prop} (kept : ∀ past w, P past w → Kept destination old past w)
    (keep : ∀ answer past w before after, P past w → ReplaceSpares job destination w before →
      JobOp.Does (.remove destination) answer before after → R (past ++ [⟨before, .remove destination, answer, after⟩]) after) :
    ReplaceTriple job destination P (removeRemoteDestinationRaw destination)
      (outcome (fun _ past w => Gone destination past w ∧ R past w) (Kept destination old)) := by
  refine triple_step (JobOp.remove destination) (R := fun (answer : Except SftpError Unit) past w =>
    outcome (fun _ past w => Gone destination past w ∧ R past w) (Kept destination old) answer past w ∧
      ∀ e, answer = .error e → ¬SftpError.missing e) ?_ fun removed => ?_
  · intro answer past w before after held between step
    have there := (spares_destination between).trans (kept _ _ held).1
    have untouched := (kept _ _ held).2
    cases answer with
    | ok =>
      refine ⟨⟨⟨?_, ⟨_, List.mem_append_right _ List.mem_cons_self, rfl⟩, ?_⟩, keep _ _ _ _ _ held between step⟩, by simp⟩
      · rw [step.2, JobWorld.put_files]
      · intro x hx
        rcases List.mem_append.mp hx with hx | hx
        · exact (untouched x hx).2
        · rw [List.mem_singleton.mp hx]
          exact fun h => by cases h
    | error e =>
      refine ⟨⟨?_, untouched.append ⟨(fun h => by cases h), (fun h => by cases h)⟩⟩, ?_⟩
      · rw [step.1]
        exact there
      · intro e' same missing
        cases Except.error.inj same
        exact absurd ((step.2 missing).symm.trans there) (by simp)
  · cases removed with
    | ok => exact triple_pure fun _ _ held => held.1
    | error e =>
      refine triple_ite (fun missing => triple_pure fun _ _ held => absurd missing (held.2 e rfl)) fun _ => ?_
      exact triple_throw fun _ _ held => held.1

/-- The old file is gone, and the complete new content is at `path`. -/
def Vacated (destination : RemotePath) (path : List Char) (past : List JobStep) (w : JobWorld) : Prop :=
  Gone destination past w ∧ Holds path past w

theorem replace_vacates : ReplaceTriple job destination
    (Ready destination old (remoteTemporaryPath destination job.id).chars)
    (replaceRemoteDestination (remoteTemporaryPath destination job.id) destination job.id)
    (outcome (fun _ => Vacated destination (remoteTemporaryPath destination job.id).chars) (Kept destination old)) := by
  have away : ∀ op : JobOp, (∀ side path, op.Touches side path → path = destination.chars ∨
      path = commitProbe (remoteTemporaryPath destination job.id).chars) →
      ¬op.Touches .remote (remoteTemporaryPath destination job.id).chars := by
    intro op only touched
    rcases only _ _ touched with same | same
    · exact remoteTemporaryPath_ne destination job.id same
    · exact commitProbe_ne _ same.symm
  have calm : ∀ op : JobOp, op.Plain → Aside destination op ∧ ¬op.Touches .remote (remoteTemporaryPath destination job.id).chars :=
    fun op plain => ⟨quiet_aside op plain, plain.1 _ _⟩
  have probe : ∀ op : JobOp, (∀ side path, op.Touches side path →
    path = commitProbe (remoteTemporaryPath destination job.id).chars) →
      Aside destination op ∧ ¬op.Touches .remote (remoteTemporaryPath destination job.id).chars := fun op only =>
    ⟨temporary_aside destination job.id fun side path touched => Or.inr (only side path touched),
      away op fun side path touched => Or.inr (only side path touched)⟩
  have remove : ReplaceTriple job destination (Ready destination old (remoteTemporaryPath destination job.id).chars)
      (removeRemoteDestinationRaw destination)
      (outcome (fun _ => Vacated destination (remoteTemporaryPath destination job.id).chars) (Kept destination old)) :=
    remove_gone (fun _ _ held => held.1) fun answer past w before after held between step => held.2.step
      (away _ fun side path touched => Or.inl touched.2) (spares_temporary between) step
  refine triple_step _ (R := fun _ => Ready destination old (remoteTemporaryPath destination job.id).chars)
    (fun answer past w before after ready between step =>
      ready_step (calm _ ⟨fun _ _ => id, rfl⟩).1 (calm _ ⟨fun _ _ => id, rfl⟩).2 ready between step) fun (confirmed : Bool) => ?_
  refine triple_ite (fun _ => remove) fun _ => ?_
  refine triple_seq (R := fun _ => Ready destination old (remoteTemporaryPath destination job.id).chars) ?_ (fun _ _ kept => kept)
    fun _ => ?_
  · have uses : Uses (fun op => Aside destination op ∧ ¬op.Touches .remote (remoteTemporaryPath destination job.id).chars)
        (verifyRemoteHardlinkRaw (remoteTemporaryPath destination job.id) job.id) :=
      uses_verifyRemoteHardlinkRaw calm (probe _ fun side path touched => touched.2) (probe _ fun side path touched => touched.2) _
    refine (triple_uses uses fun op answer past w before after kind ready between step =>
      ready_step kind.1 kind.2 ready between step).mono (fun _ _ h => h) fun result past w held => ?_
    cases result with
    | ok => exact held
    | error e => exact held.1
  · exact triple_step _ (R := fun _ => Ready destination old (remoteTemporaryPath destination job.id).chars)
      (fun answer past w before after ready between step =>
        ready_step (calm _ ⟨fun _ _ => id, rfl⟩).1 (calm _ ⟨fun _ _ => id, rfl⟩).2 ready between step) fun _ => remove

theorem fill_replaces {op : JobOp} {answer : op.Answer} {before after : JobWorld}
    {node : FileNode} (created : createdBy op answer = some (.remote, destination.chars))
    (delivered : ∃ s ∈ past, s.delivers = some node) (put : after.files .remote destination.chars = some node) :
    Replaced destination (past ++ [⟨before, op, answer, after⟩]) after := by
  obtain ⟨s, hs, delivered⟩ := delivered
  exact ⟨⟨s, List.mem_append_left _ hs, node, delivered, put⟩, _, List.mem_append_right _ List.mem_cons_self, created⟩

theorem gone_failed {op : JobOp} {answer : op.Answer} {before after : JobWorld} (same : after = before)
    (uncreated : createdBy op answer = none) (h : Gone destination past w) (between : ReplaceSpares job destination w before) :
    Gone destination (past ++ [⟨before, op, answer, after⟩]) after := by
  obtain ⟨absent, ⟨r, hr, removed⟩, none_⟩ := h
  refine ⟨?_, ⟨r, List.mem_append_left _ hr, removed⟩, ?_⟩
  · rw [same, spares_destination between]
    exact absent
  · intro x hx
    rcases List.mem_append.mp hx with hx | hx
    · exact none_ x hx
    · rw [List.mem_singleton.mp hx]
      exact fun created => absurd (uncreated.symm.trans created) (by simp)

theorem commit_replaces : ReplaceTriple job destination
    (Vacated destination (remoteTemporaryPath destination job.id).chars)
    (commitRemoteTempRaw (remoteTemporaryPath destination job.id) destination)
    (outcome (fun _ => Replaced destination) (Gone destination)) := by
  refine triple_step (JobOp.hardlink (remoteTemporaryPath destination job.id) destination)
    (R := fun (answer : Except SftpError Unit) =>
      outcome (fun _ => Replaced destination) (Gone destination) answer) ?_ fun linked => ?_
  · intro answer past w before after held between step
    obtain ⟨gone, s, hs, node, delivered, found⟩ := held
    cases answer with
    | ok =>
      obtain ⟨_, node', there, _, rfl⟩ := step
      have same : node' = node := Option.some.inj (there.symm.trans ((spares_temporary between).trans found))
      subst same
      exact fill_replaces rfl ⟨s, hs, delivered⟩ (JobWorld.put_files _ _ _ _)
    | error e => exact gone_failed step rfl gone between
  · cases linked with
    | ok => exact triple_pure fun _ _ held => held
    | error e => exact triple_throw fun _ _ held => held

def Stopped (destination : RemotePath) (old : List UInt8) (past : List JobStep) (w : JobWorld) : Prop :=
  Kept destination old past w ∨ Gone destination past w ∨ Replaced destination past w

def Settled (destination : RemotePath) (old : List UInt8) :
    Except UserFacingError Unit → List JobStep → JobWorld → Prop :=
  outcome (fun _ past w => Kept destination old past w ∨ Replaced destination past w) (Stopped destination old)

theorem kept_quiet (op : JobOp) (plain : op.Plain) : Aside destination op ∨ ∃ path, op = .mkdir path :=
  Or.inl (quiet_aside op plain)

theorem uploadFile_settled (overwrite : job.conflictPolicy = .overwriteAll) (chunkSize : UInt32) (connectionKey : String)
    (source : LocalPath) (metadata : LocalMetadata) : ReplaceTriple job destination (Kept destination old)
      (uploadFile chunkSize job connectionKey source destination metadata) (Settled destination old) := by
  have left : ∀ past w, Kept destination old past w → Stopped destination old past w := fun _ _ => Or.inl
  have right : ∀ past w, Gone destination past w → Stopped destination old past w := fun _ _ gone => Or.inr (Or.inl gone)
  have last : ∀ past w, Replaced destination past w → Stopped destination old past w := fun _ _ done => Or.inr (Or.inr done)
  have temporary : Aside destination (.openNew (remoteTemporaryPath destination job.id)) :=
    temporary_aside destination job.id fun side path touched => Or.inl touched.2
  have opening : Uses (fun op => Aside destination op ∨ ∃ path, op = .mkdir path)
      (openRemoteTemp (remoteTemporaryPath destination job.id) job.id) := by
    refine (uses_ask (Or.inl temporary)).bind fun opened => ?_
    cases opened with
    | ok => trivial
    | error e =>
      refine ((cleanup_aside none).mono fun _ => Or.inl).bind fun cleaned => uses_ite ?_ trivial
      exact (uses_ask (Or.inl temporary)).bind fun _ => uses_orThrow
  refine triple_seq (kept_through (uses_emitTransferRunning kept_quiet _ _)) left fun _ => ?_
  refine triple_seq (kept_through (uses_ensureRemoteParentDirectoryRaw kept_quiet (fun path => Or.inr ⟨path, rfl⟩) _))
    left fun _ => ?_
  refine triple_seq (kept_through opening) left fun _ => ?_
  refine triple_seq (kept_through (uses_ask (Or.inl (quiet_aside _ ⟨fun _ _ => id, rfl⟩)))) left fun createdAt => ?_
  refine triple_seq (kept_through ((uses_ask (Or.inl id)).bind fun _ => trivial)) left fun _ => ?_
  refine triple_seq (R := fun _ => Ready destination old (remoteTemporaryPath destination job.id).chars)
    (triple_catch (copy_ready source rfl) (fun _ => triple_pure fun _ _ ready => ready) fun e =>
      triple_bind (kept_through ((cleanup_aside (some job.id)).mono fun _ => Or.inl))
        (fun _ => triple_throw fun _ _ kept => kept) fun _ _ _ kept => kept) left fun _ => ?_
  refine triple_seq (R := fun _ => Vacated destination (remoteTemporaryPath destination job.id).chars) ?_ left fun _ => ?_
  · unfold ifOverwriting
    rw [if_pos overwrite]
    exact replace_vacates
  refine triple_seq (R := fun _ => Replaced destination)
    (triple_catch commit_replaces (fun _ => triple_pure fun _ _ replaced => replaced) fun e =>
      triple_bind (gone_through (cleanup_aside (some job.id))) (fun _ => triple_throw fun _ _ gone => gone)
        fun _ _ _ gone => gone) right fun _ => ?_
  refine triple_seq (replaced_through (cleanup_aside (some job.id))) last fun _ => ?_
  refine (replaced_through (uses_preserveUploadMetadataRaw quiet_aside job metadata)).mono (fun _ _ h => h) ?_
  intro result past w done
  cases result with
  | ok => exact Or.inr done
  | error e => exact last past w done

/-- The target of the link has been read. -/
def Read (target : List Char) (past : List JobStep) : Prop := ∃ s ∈ past, s.delivers = some (.link target)

theorem Read.append {target : List Char} (h : Read target past) (s : JobStep) : Read target (past ++ [s]) := by
  obtain ⟨r, hr, read⟩ := h
  exact ⟨r, List.mem_append_left _ hr, read⟩

theorem uploadSymlinkRaw_settled (overwrite : job.conflictPolicy = .overwriteAll) (aim : job.destination = .remote destination) :
    ReplaceTriple job destination (Kept destination old) (uploadSymlinkRaw job) (Settled destination old) := by
  have left : ∀ past w, Kept destination old past w → Stopped destination old past w := fun _ _ => Or.inl
  unfold uploadSymlinkRaw
  split
  · rename_i source destination' from_ aim'
    cases aim.symm.trans aim'
    refine triple_seq (kept_through (uses_emitTransferRunning kept_quiet _ _)) left fun _ => ?_
    refine triple_seq (kept_through (uses_ask (Or.inl (quiet_aside _ ⟨fun _ _ => id, rfl⟩)))) left fun cancelled => ?_
    refine triple_seq (kept_through uses_failIf) left fun _ => ?_
    refine triple_step (JobOp.readLink source) (R := fun (answer : Except IoError (List Char)) past w =>
      Kept destination old past w ∧ ∀ target, answer = .ok target → Read target past) ?_ fun link => ?_
    · intro answer past w before after kept between step
      refine ⟨kept_aside (quiet_aside _ ⟨fun _ _ => id, rfl⟩) kept between step, ?_⟩
      rintro target rfl
      exact ⟨_, List.mem_append_right _ List.mem_cons_self, rfl⟩
    refine triple_seq (R := fun target past w => Kept destination old past w ∧ Read target past) (F := Kept destination old) ?_
      left fun target => ?_
    · cases link with
      | ok target => exact triple_pure fun _ _ held => ⟨held.1, held.2 target rfl⟩
      | error e => exact triple_throw fun _ _ held => held.1
    have walk : Uses (fun op => Aside destination op ∨ ∃ path, op = .mkdir path) (ensureRemoteParentDirectoryRaw destination) :=
      uses_ensureRemoteParentDirectoryRaw kept_quiet (fun path => Or.inr ⟨path, rfl⟩) destination
    refine triple_seq (R := fun _ past w => Kept destination old past w ∧ Read target past)
      (triple_uses walk ?_) (fun _ _ held => left _ _ held.1) fun _ => ?_
    · rintro op answer past w before after (aside | ⟨path, rfl⟩) held between step
      · exact ⟨kept_aside aside held.1 between step, held.2.append _⟩
      · exact ⟨kept_mkdir held.1 between step, held.2.append _⟩
    refine triple_seq (R := fun _ past w => Gone destination past w ∧ Read target past) ?_ left fun _ => ?_
    · unfold ifOverwriting
      rw [if_pos overwrite]
      exact remove_gone (R := fun past _ => Read target past) (fun _ _ held => held.1)
        fun answer past w before after held _ _ => held.2.append _
    refine triple_step (JobOp.symlink target destination) (R := fun (answer : Except SftpError Unit) =>
      outcome (fun _ => Replaced destination) (Gone destination) answer) ?_ fun created => ?_
    · intro answer past w before after held between step
      cases answer with
      | ok =>
        obtain ⟨_, rfl⟩ := step
        exact fill_replaces rfl held.2 (JobWorld.put_files _ _ _ _)
      | error e => exact gone_failed step rfl held.1 between
    · cases created with
      | ok => exact triple_pure fun _ _ done => Or.inr done
      | error e => exact triple_throw fun _ _ gone => Or.inr (Or.inl gone)
  · exact triple_throw fun _ _ kept => Or.inl kept

theorem upload_settled (overwrite : job.conflictPolicy = .overwriteAll) (aim : job.destination = .remote destination)
    (chunkSize : UInt32) (connectionKey : String) : ReplaceTriple job destination (Kept destination old)
      (uploadSingleFilePipelined chunkSize job connectionKey) (Settled destination old) := by
  have left : ∀ past w, Kept destination old past w → Stopped destination old past w := fun _ _ => Or.inl
  unfold uploadSingleFilePipelined
  split
  · rename_i source destination' from_ aim'
    cases aim.symm.trans aim'
    refine triple_seq (kept_through (uses_ask (Or.inl (quiet_aside _ ⟨fun _ _ => id, rfl⟩)))) left fun found => ?_
    refine triple_seq (kept_through uses_orThrow) left fun metadata => ?_
    split
    · exact uploadSymlinkRaw_settled overwrite aim
    · refine (kept_through ((uses_emitTransferRunning kept_quiet _ _).bind fun _ =>
        (uses_createRemoteDirectoryRaw kept_quiet (fun path => Or.inr ⟨path, rfl⟩) _).bind fun _ =>
          uses_preserveUploadMetadataRaw kept_quiet _ _)).mono (fun _ _ h => h) ?_
      intro result past w kept
      cases result with
      | ok => exact Or.inl kept
      | error e => exact Or.inl kept
    · exact triple_throw fun _ _ kept => Or.inl kept
    · exact uploadFile_settled overwrite chunkSize connectionKey source metadata
  · exact triple_throw fun _ _ kept => Or.inl kept

end Replace

section Respect

variable {path : List Char} {others : JobWorld → JobWorld → Prop}

/-- However it is answered, the operation leaves a file that exists at `path` as it is. -/
def Respects (path : List Char) (op : JobOp) : Prop :=
  ∀ answer w w', op.Does answer w w' → w.files .remote path ≠ none → w'.files .remote path = w.files .remote path

theorem respects_away {op : JobOp} (away : ¬op.Touches .remote path) : Respects path op :=
  fun _ _ _ step _ => does_frame step away

theorem respects_quiet (op : JobOp) (plain : op.Plain) : Respects path op := respects_away (plain.1 _ _)

theorem creates_respects {ε : Type} {answer : Except ε Unit} {side : Side} {created : List Char} {node : FileNode}
    {w w' : JobWorld} (step : Creates side created node answer w w') (there : w.files .remote path ≠ none) :
    w'.files .remote path = w.files .remote path := by
  by_cases same : Side.remote = side ∧ path = created
  · cases answer with
    | ok =>
      obtain ⟨rfl, rfl⟩ := same
      exact absurd step.1 there
    | error e => rw [show w' = w from step]
  · exact creates_frame step same

theorem respects_hardlink (source link : RemotePath) : Respects path (.hardlink source link) := by
  intro answer w w' step there
  by_cases same : path = link.chars
  · cases answer with
    | ok =>
      subst same
      exact absurd step.1 there
    | error e => rw [show w' = w from step]
  · exact linksTo_frame step fun touched => same touched.2

theorem upload_respects {job : TransferJob} {destination : RemotePath} (aim : job.destination = .remote destination)
    (keep : job.conflictPolicy ≠ .overwriteAll) (chunkSize : UInt32) (connectionKey : String) :
    Uses (Respects destination.chars) (uploadSingleFilePipelined chunkSize job connectionKey) := by
  have mkdir : ∀ path, Respects destination.chars (.mkdir path) := fun path _ _ _ step there => creates_respects step there
  have temporary : ∀ op : JobOp, (∀ side path, op.Touches side path → path = (remoteTemporaryPath destination job.id).chars) →
      Respects destination.chars op := fun op only =>
    respects_away (temporary_aside destination job.id fun side path touched => Or.inl (only side path touched))
  have cleanup := uses_cleanupRemoteTempRaw respects_quiet
    (temporary (.remove (remoteTemporaryPath destination job.id)) fun _ _ touched => touched.2) job.id
  have clear : ∀ id path, Respects destination.chars (.emit (.residualTempCleared id path)) := fun _ _ => respects_away id
  have opened := temporary (.openNew (remoteTemporaryPath destination job.id)) fun _ _ touched => touched.2
  unfold uploadSingleFilePipelined
  split
  · rename_i source destination' from_ aim'
    cases aim.symm.trans aim'
    refine (uses_ask (respects_quiet _ ⟨fun _ _ => id, rfl⟩)).bind fun found => uses_orThrow.bind fun metadata => ?_
    split
    · unfold uploadSymlinkRaw
      split
      · rename_i source' destination' from' aim''
        cases aim.symm.trans aim''
        refine (uses_emitTransferRunning respects_quiet _ _).bind fun _ =>
          (uses_ask (respects_quiet _ ⟨fun _ _ => id, rfl⟩)).bind fun cancelled => uses_failIf.bind fun _ => ?_
        refine (uses_ask (respects_quiet _ ⟨fun _ _ => id, rfl⟩)).bind fun link => uses_orThrow.bind fun target => ?_
        refine (uses_ensureRemoteParentDirectoryRaw respects_quiet mkdir _).bind fun _ => Uses.bind ?_ fun _ => ?_
        · unfold ifOverwriting
          rw [if_neg keep]
          trivial
        · exact (uses_ask fun _ _ _ step there => creates_respects step there).bind fun created => uses_orThrow
      · trivial
    · exact (uses_emitTransferRunning respects_quiet _ _).bind fun _ =>
        (uses_createRemoteDirectoryRaw respects_quiet mkdir _).bind fun _ => uses_preserveUploadMetadataRaw respects_quiet _ _
    · trivial
    · refine (uses_emitTransferRunning respects_quiet _ _).bind fun _ =>
        (uses_ensureRemoteParentDirectoryRaw respects_quiet mkdir _).bind fun _ => Uses.bind ?_ fun _ => ?_
      · refine (uses_ask opened).bind fun opened' => ?_
        cases opened' with
        | ok => trivial
        | error e =>
          exact (cleanup none (by simp)).bind fun cleaned => uses_ite ((uses_ask opened).bind fun _ => uses_orThrow) trivial
      refine (uses_ask (respects_quiet _ ⟨fun _ _ => id, rfl⟩)).bind fun createdAt => Uses.bind ?_ fun _ => Uses.bind ?_ fun _ => ?_
      · exact (uses_ask (respects_away id)).bind fun _ => trivial
      · refine uses_orCleanup ?_ (cleanup (some job.id) fun _ _ => clear _ _)
        refine (uses_ask (respects_quiet _ ⟨fun _ _ => id, rfl⟩)).bind fun file => uses_orThrow.bind fun _ => ?_
        refine (uses_ask (temporary (.upload (remoteTemporaryPath destination job.id) (uploadWriter chunkSize metadata))
          fun _ _ touched => touched.2)).bind fun answer => ?_
        exact (uses_ask (respects_quiet _ ⟨fun _ _ => id, rfl⟩)).bind fun closed => uses_orThrow.bind fun _ => uses_orThrow
      refine Uses.bind ?_ fun _ => Uses.bind (uses_orCleanup ?_ (cleanup (some job.id) fun _ _ => clear _ _)) fun _ =>
        (cleanup (some job.id) fun _ _ => clear _ _).bind fun _ => ?_
      · unfold ifOverwriting
        rw [if_neg keep]
        trivial
      · exact (uses_ask (respects_hardlink _ _)).bind fun linked => uses_orThrow
      · exact uses_preserveUploadMetadataRaw respects_quiet _ _
  · trivial

end Respect

section Decided

variable {others : JobWorld → JobWorld → Prop} {P : List JobStep → JobWorld → Prop}

/-- Somebody has decided to overwrite. -/
def Decided (past : List JobStep) : Prop := ∃ s ∈ past, overwriteDecided s.op s.answer = true

theorem Decided.append {past : List JobStep} (h : Decided past) (s : JobStep) : Decided (past ++ [s]) := by
  obtain ⟨r, hr, decided⟩ := h
  exact ⟨r, List.mem_append_left _ hr, decided⟩

theorem triple_any {α : Type} (p : JobM α) :
    Triple others JobOp.Does P p (outcome (fun _ _ _ => True) (fun _ _ => True)) := by
  rintro past w asked w' result _ _
  cases result with
  | ok => trivial
  | error e => trivial

/-- The policy to overwrite is the job's own or was decided. -/
def Licensed (job : TransferJob) (resolved : TransferJob) (past : List JobStep) (_ : JobWorld) : Prop :=
  resolved.conflictPolicy = .overwriteAll → job.conflictPolicy = .overwriteAll ∨ Decided past

theorem renameTo_licensed (job : TransferJob) (newName : List Char) :
    Triple others JobOp.Does P (renameTo job newName) (outcome (Licensed job) (fun _ _ => True)) := by
  have same : ∀ renamed, renameDestination job newName = .ok renamed → renamed.conflictPolicy = job.conflictPolicy := by
    intro renamed done
    unfold renameDestination at done
    split at done
    · cases done
    · cases done
      rfl
  refine triple_seq (R := fun renamed _ _ => renamed.conflictPolicy = job.conflictPolicy) (F := fun _ _ => True) ?_
    (fun _ _ h => h) fun renamed => ?_
  · cases done : renameDestination job newName with
    | ok renamed => exact triple_pure fun _ _ _ => same renamed done
    | error e => exact triple_throw fun _ _ _ => trivial
  have stays : Uses (fun _ => True) (destinationExists renamed) := uses_destinationExists (fun _ _ => trivial) renamed
  refine triple_seq (R := fun _ _ _ => renamed.conflictPolicy = job.conflictPolicy)
    (triple_uses stays fun _ _ _ _ _ _ _ h _ _ => h) (fun _ _ _ => trivial) fun taken => ?_
  refine triple_seq (R := fun _ _ _ => renamed.conflictPolicy = job.conflictPolicy) (F := fun _ _ => True) ?_
    (fun _ _ h => h) fun _ => ?_
  · exact triple_ite (fun _ => triple_throw fun _ _ _ => trivial) fun _ => triple_pure fun _ _ h => h
  · exact triple_pure fun _ _ h overwrite => Or.inl (h.symm.trans overwrite)

theorem askForDecision_decided (job : TransferJob) (planId : TransferPlanId) :
    Triple others JobOp.Does P (askForDecision job planId) (outcome
      (fun decision past _ => ∀ applyToAll, decision = .overwrite applyToAll → Decided past) (fun _ _ => True)) := by
  refine triple_seq (triple_any _) (fun _ _ h => h) fun requestId => ?_
  refine triple_seq (triple_any _) (fun _ _ h => h) fun _ => ?_
  refine triple_seq (triple_any _) (fun _ _ h => h) fun details => ?_
  refine triple_seq (triple_any _) (fun _ _ h => h) fun received => ?_
  refine triple_seq (triple_any _) (fun _ _ h => h) fun _ => ?_
  refine triple_step (JobOp.decision requestId) (R := fun (decision : ConflictDecision) past _ =>
    ∀ applyToAll, decision = .overwrite applyToAll → Decided past) ?_ fun decision => ?_
  · rintro answer past w before after _ _ _ applyToAll rfl
    exact ⟨_, List.mem_append_right _ List.mem_cons_self, rfl⟩
  refine triple_step _ (R := fun _ past _ => ∀ applyToAll, decision = .overwrite applyToAll → Decided past) ?_ fun _ => ?_
  · exact fun answer past w before after decided _ _ applyToAll is => (decided applyToAll is).append _
  · exact triple_pure fun _ _ decided => decided

theorem resolve_licensed (job : TransferJob) (planId : TransferPlanId) :
    Triple others JobOp.Does P (resolveTransferConflict job planId) (outcome (Licensed job) (fun _ _ => True)) := by
  have own : ∀ {P : List JobStep → JobWorld → Prop}, Triple others JobOp.Does P (pure job : JobM TransferJob)
      (outcome (Licensed job) (fun _ _ => True)) := triple_pure fun _ _ _ overwrite => Or.inl overwrite
  refine triple_ite (fun _ => own) fun _ => triple_seq (triple_any _) (fun _ _ h => h) fun found => ?_
  refine triple_ite (fun _ => ?_) fun _ => own
  refine triple_seq (triple_any _) (fun _ _ h => h) fun merge => triple_ite (fun _ => own) fun _ => ?_
  unfold resolveExisting
  split
  · exact own
  · exact triple_throw fun _ _ _ => trivial
  · exact renameTo_licensed job _
  · exact renameTo_licensed job _
  refine triple_seq (askForDecision_decided job planId) (fun _ _ h => h) fun decision => ?_
  cases decision with
  | overwrite applyToAll =>
    have monotone : ∀ {p : JobM Unit}, Uses (fun _ => True) p → Triple others JobOp.Does (fun past _ => Decided past) p
        (outcome (fun _ past _ => Decided past) (fun past _ => Decided past)) := fun uses =>
      triple_uses uses fun _ _ _ _ _ _ _ decided _ _ => decided.append _
    refine Triple.mono (P := fun past _ => Decided past) ?_ (fun _ _ decided => decided applyToAll rfl) fun _ _ _ h => h
    refine triple_seq (monotone (uses_applyToPlan (fun _ _ => trivial) _ _ _)) (fun _ _ _ => trivial) fun _ => ?_
    refine triple_seq (monotone (uses_settleWaiters (fun _ _ => trivial) _ _ _)) (fun _ _ _ => trivial) fun _ => ?_
    exact triple_pure fun _ _ decided _ => Or.inr decided
  | skip applyToAll =>
    refine triple_seq (triple_any _) (fun _ _ h => h) fun _ => triple_seq (triple_any _) (fun _ _ h => h) fun _ => ?_
    exact triple_throw fun _ _ _ => trivial
  | rename newName applyToAll =>
    refine triple_seq (renameTo_licensed job _) (fun _ _ h => h) fun renamed => ?_
    have stays : Uses (fun _ => True) (applyToPlan applyToAll planId (.renameAll (.explicitName newName))) :=
      uses_applyToPlan (fun _ _ => trivial) _ _ _
    refine triple_seq (triple_uses stays fun _ _ _ _ _ _ _ h _ _ => ?_) (fun _ _ _ => trivial) fun _ => ?_
    · exact fun overwrite => (h overwrite).imp_right fun decided => decided.append _
    · exact triple_pure fun _ _ h => h
  | cancelJob => exact triple_throw fun _ _ _ => trivial

end Decided

section Result

variable {job : TransferJob} {destination : RemotePath} {old : List UInt8} {steps : List JobStep} {w : JobWorld}

/-- The removal, if there was one, was made good. -/
def Refilled (destination : RemotePath) (steps : List JobStep) : Prop :=
  (∃ s ∈ steps, s.removes = some (.remote, destination.chars)) → ∃ s ∈ steps, s.creates = some (.remote, destination.chars)

theorem Kept.refilled (h : Kept destination old steps w) : Refilled destination steps := by
  rintro ⟨s, hs, removed⟩
  exact absurd removed (h.2 s hs).1

theorem Gone.not_refilled (h : Gone destination steps w) : ¬Refilled destination steps := by
  intro refilled
  obtain ⟨s, hs, created⟩ := refilled h.2.1
  exact h.2.2 s hs created

theorem Gone.not_whole (h : Gone destination steps w) :
    ¬(w.files .remote destination.chars = some (.file old) ∨ Holds destination.chars steps w) := by
  rintro (kept | ⟨s, _, node, _, found⟩)
  · exact absurd (h.1.symm.trans kept) (by simp)
  · exact absurd (h.1.symm.trans found) (by simp)

theorem Stopped.whole_iff (h : Stopped destination old steps w) :
    (w.files .remote destination.chars = some (.file old) ∨ Holds destination.chars steps w) ↔ Refilled destination steps := by
  rcases h with kept | gone | replaced
  · exact iff_of_true (Or.inl kept.1) kept.refilled
  · exact iff_of_false gone.not_whole gone.not_refilled
  · exact iff_of_true (Or.inr replaced.1) fun _ => replaced.2

theorem replace_keeps_iff (aim : job.destination = .remote destination) (chunkSize : UInt32) (connectionKey : String) :
    (job.conflictPolicy = .overwriteAll → ∀ old w w' steps result, w.files .remote destination.chars = some (.file old) →
      Run (ReplaceSpares job destination) JobOp.Does (uploadSingleFilePipelined chunkSize job connectionKey) w steps w' result →
      (((∃ error, result = .error error) →
          w'.files .remote destination.chars = some (.file old) ∨ Holds destination.chars steps w') ↔
        Refilled destination steps)) ∧
    (job.conflictPolicy ≠ .overwriteAll → ∀ others w w' steps result,
      Run others JobOp.Does (uploadSingleFilePipelined chunkSize job connectionKey) w steps w' result →
      ∀ s ∈ steps, s.before.files .remote destination.chars ≠ none →
        s.after.files .remote destination.chars = s.before.files .remote destination.chars) ∧
    ∀ others w w' steps planId resolved, Run others JobOp.Does (resolveTransferConflict job planId) w steps w' (.ok resolved) →
      (∀ s ∈ steps, s.after.files = s.before.files) ∧
        (resolved.conflictPolicy = .overwriteAll → job.conflictPolicy = .overwriteAll ∨ Decided steps) := by
  refine ⟨fun overwrite old w w' steps result existing run => ?_, fun keep others w w' steps result run => ?_,
    fun others w w' steps planId resolved run => ?_⟩
  · have start : Kept destination old [] w := ⟨existing, fun s hs => absurd hs List.not_mem_nil⟩
    have settled := upload_settled overwrite aim chunkSize connectionKey [] w steps w' result start run
    rw [List.nil_append] at settled
    cases result with
    | error e => exact (forall_prop_of_true ⟨e, rfl⟩).trans (Stopped.whole_iff settled)
    | ok =>
      have never : ¬∃ error : UserFacingError, Except.ok () = Except.error error := by
        rintro ⟨_, ⟨⟩⟩
      refine iff_of_true (fun failed => absurd failed never) ?_
      rcases settled with kept | replaced
      · exact kept.refilled
      · exact fun _ => replaced.2
  · intro s hs there
    obtain ⟨respects, step⟩ := run.uses (upload_respects aim keep chunkSize connectionKey) s hs
    exact respects _ _ _ step there
  · constructor
    · intro s hs
      obtain ⟨plain, step⟩ := run.uses (uses_resolveTransferConflict (fun _ plain => plain) job planId) s hs
      funext side path
      exact does_frame step (plain.1 side path)
    · have licensed := resolve_licensed (P := fun _ _ => True) job planId [] w steps w' (.ok resolved) trivial run
      rwa [List.nil_append] at licensed

def replaceJob (policy : ConflictPolicy) : TransferJob where
  id := ⟨7⟩
  direction := .upload
  source := .local (.new "new")
  destination := .remote (.new "old")
  state := .queued
  metadataPolicy := {}
  conflictPolicy := policy
  warnings := []
  createdAt := ⟨0⟩

def replaceFiles : Side → List Char → Option FileNode
  | .remote, path => if path = "old".toList then some (.file [1, 2]) else none
  | .local, path => if path = "new".toList then some (.file [3]) else none

/-- A server that refuses some operations while the file is uploaded. -/
def replaceServer (refuses : JobOp → Bool) : Server where
  refuses := refuses
  reads := [.bytes [3] (by decide)]
  writes := [.acknowledged 0 .ok false, .finish false]

def replaceRun (policy : ConflictPolicy) (refuses : JobOp → Bool) : List JobStep × JobWorld × Except UserFacingError Unit :=
  play (replaceServer refuses).serve (uploadSingleFilePipelined 0 (replaceJob policy) "host:22") ⟨replaceFiles, [], [], none⟩

theorem replaceRun_runs {others : JobWorld → JobWorld → Prop} (idle : ∀ w, others w w) (policy : ConflictPolicy)
    (refuses : JobOp → Bool) :
    Run others JobOp.Does (uploadSingleFilePipelined 0 (replaceJob policy) "host:22") ⟨replaceFiles, [], [], none⟩
      (replaceRun policy refuses).1 (replaceRun policy refuses).2.1 (replaceRun policy refuses).2.2 :=
  play_run idle (Server.serve_does _) _ _

def refusesCommit : JobOp → Bool
  | .hardlink _ link => link.chars = "old".toList
  | _ => false

theorem replace_keeps_iff_sample :
    (((∃ error, (replaceRun .overwriteAll refusesCommit).2.2 = .error error) →
        (replaceRun .overwriteAll refusesCommit).2.1.files .remote "old".toList = some (.file [1, 2]) ∨
          Holds "old".toList (replaceRun .overwriteAll refusesCommit).1 (replaceRun .overwriteAll refusesCommit).2.1) ↔
      Refilled (.new "old") (replaceRun .overwriteAll refusesCommit).1) ∧
    ∀ s ∈ (replaceRun .ask fun _ => false).1, s.before.files .remote "old".toList ≠ none →
      s.after.files .remote "old".toList = s.before.files .remote "old".toList :=
  ⟨(@replace_keeps_iff (replaceJob .overwriteAll) (.new "old") rfl 0 "host:22").1 rfl [1, 2] _ _ _ _ rfl
      (replaceRun_runs (fun _ _ _ _ => rfl) _ _),
    (@replace_keeps_iff (replaceJob .ask) (.new "old") rfl 0 "host:22").2.1 (by decide) (· = ·) _ _ _ _
      (replaceRun_runs (fun _ => rfl) _ _)⟩

/-- The link that commits the upload is refused after the old file has been removed. -/
theorem failed_commit_loses_file :
    ∃ error, (replaceJob .overwriteAll).conflictPolicy = .overwriteAll ∧
      replaceFiles .remote "old".toList = some (.file [1, 2]) ∧
      Run (ReplaceSpares (replaceJob .overwriteAll) (.new "old")) JobOp.Does
        (uploadSingleFilePipelined 0 (replaceJob .overwriteAll) "host:22") ⟨replaceFiles, [], [], none⟩
        (replaceRun .overwriteAll refusesCommit).1 (replaceRun .overwriteAll refusesCommit).2.1 (.error error) ∧
      (replaceRun .overwriteAll refusesCommit).2.1.files .remote "old".toList = none :=
  ⟨_, rfl, rfl, replaceRun_runs (fun _ _ _ _ => rfl) _ _, rfl⟩

end Result

end MacSftp
