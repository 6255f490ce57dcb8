import MacSftp.Jobs.Replacing

namespace MacSftp

open Lib Program

def TransferEndpoint.place : TransferEndpoint → Side × List Char
  | .remote path => (.remote, path.chars)
  | .local path => (.local, path.chars)

/-- A temporary file that the application has been told of and not told to forget. -/
def OnRecord (transferId : TransferId) (path : List Char) (steps : List JobStep) : Prop :=
  ∃ earlier s later record, steps = earlier ++ s :: later ∧ s.emits = some (.residualTempCreated record) ∧
    record.transferId = transferId ∧ record.path = path ∧ ∀ r ∈ later, r.emits ≠ some (.residualTempCleared transferId path)

/-- What the job created beside its destination is gone or on record. -/
def Accounted (job : TransferJob) (steps : List JobStep) (w : JobWorld) : Prop :=
  ∀ s ∈ steps, ∀ side path, s.creates = some (side, path) → (side, path) ≠ job.destination.place →
    w.files side path = none ∨ OnRecord job.id path steps

def ClearedGone (side : Side) (steps : List JobStep) : Prop :=
  ∀ s ∈ steps, ∀ transferId path, s.emits = some (.residualTempCleared transferId path) → s.before.files side path = none

/-- Each time the file is created, it is removed later. -/
def RemovedAgain (place : Side × List Char) (steps : List JobStep) : Prop :=
  ∀ earlier s later, steps = earlier ++ s :: later → s.creates = some place → ∃ r ∈ later, r.removes = some place

/-- A job's file has been created, and not been removed since. -/
def Hangs (place : Side × List Char) (steps : List JobStep) : Prop :=
  ∃ earlier s later, steps = earlier ++ s :: later ∧ s.creates = some place ∧ ∀ r ∈ later, r.removes ≠ some place

section Histories

variable {transferId : TransferId} {path : List Char} {place : Side × List Char} {past : List JobStep} {s : JobStep}

theorem append_eq_cut {α : Type} {xs earlier later : List α} {x y : α} (h : xs ++ [x] = earlier ++ y :: later) :
    (earlier = xs ∧ y = x ∧ later = []) ∨ ∃ front, xs = earlier ++ y :: front ∧ later = front ++ [x] := by
  rcases List.eq_nil_or_concat later with rfl | ⟨front, z, rfl⟩
  · obtain ⟨rfl, same⟩ := List.append_inj' h rfl
    cases same
    exact Or.inl ⟨rfl, rfl, rfl⟩
  · rw [List.concat_eq_append, ← List.cons_append, ← List.append_assoc] at h
    obtain ⟨rfl, same⟩ := List.append_inj' h rfl
    cases same
    exact Or.inr ⟨front, rfl, by rw [List.concat_eq_append]⟩

theorem OnRecord.append (h : OnRecord transferId path past) (hs : s.emits ≠ some (.residualTempCleared transferId path)) :
    OnRecord transferId path (past ++ [s]) := by
  obtain ⟨earlier, t, later, record, rfl, created, id_, path_, kept⟩ := h
  refine ⟨earlier, t, later ++ [s], record, by simp, created, id_, path_, fun r hr => ?_⟩
  rcases List.mem_append.mp hr with hr | hr
  · exact kept r hr
  · rw [List.mem_singleton.mp hr]
    exact hs

theorem onRecord_new {record : ResidualTempRecord} (hs : s.emits = some (.residualTempCreated record)) :
    OnRecord record.transferId record.path (past ++ [s]) :=
  ⟨past, s, [], record, rfl, hs, rfl, rfl, by simp⟩

theorem RemovedAgain.append (h : RemovedAgain place past) (hs : s.creates ≠ some place) : RemovedAgain place (past ++ [s]) := by
  intro earlier t later cut created
  rcases append_eq_cut cut with ⟨_, rfl, _⟩ | ⟨front, whole, rfl⟩
  · exact absurd created hs
  · obtain ⟨r, hr, removed⟩ := h _ _ _ whole created
    exact ⟨r, List.mem_append_left _ hr, removed⟩

theorem removedAgain_removal (removed : s.removes = some place) (hs : s.creates ≠ some place) :
    RemovedAgain place (past ++ [s]) := by
  intro earlier t later cut created
  rcases append_eq_cut cut with ⟨_, rfl, _⟩ | ⟨front, whole, rfl⟩
  · exact absurd created hs
  · exact ⟨s, List.mem_append_right _ List.mem_cons_self, removed⟩

theorem Hangs.append (h : Hangs place past) (hs : s.removes ≠ some place) : Hangs place (past ++ [s]) := by
  obtain ⟨earlier, t, later, rfl, created, kept⟩ := h
  refine ⟨earlier, t, later ++ [s], by simp, created, fun r hr => ?_⟩
  rcases List.mem_append.mp hr with hr | hr
  · exact kept r hr
  · rw [List.mem_singleton.mp hr]
    exact hs

theorem Hangs.not_removedAgain (h : Hangs place past) : ¬RemovedAgain place past := by
  intro removedAgain
  obtain ⟨earlier, t, later, cut, created, kept⟩ := h
  obtain ⟨r, hr, removed⟩ := removedAgain _ _ _ cut created
  exact kept r hr removed

theorem emits_residual {op : JobOp} (h : op.residual = none) :
    (∀ record, emittedBy op ≠ some (.residualTempCreated record)) ∧
      ∀ transferId path, emittedBy op ≠ some (.residualTempCleared transferId path) := by
  constructor
  · intro record same
    cases op with
    | emit event =>
      cases Option.some.inj same
      cases h
    | _ => cases same
  · intro transferId path same
    cases op with
    | emit event =>
      cases Option.some.inj same
      cases h
    | _ => cases same

end Histories

structure Landing where
  side : Side
  destination : List Char
  temporary : List Char
  transferId : TransferId
  temporary_ne : temporary ≠ destination
  probe_ne : commitProbe temporary ≠ destination
  auxiliary : ∀ path, path = temporary ∨ path = commitProbe temporary → Auxiliary transferId side path

namespace Landing

def remote (destination : RemotePath) (transferId : TransferId) : Landing where
  side := .remote
  destination := destination.chars
  temporary := (remoteTemporaryPath destination transferId).chars
  transferId := transferId
  temporary_ne := remoteTemporaryPath_ne destination transferId
  probe_ne := remoteProbe_ne destination transferId
  auxiliary := fun _ is => ⟨destination, is⟩

def «local» (destination : LocalPath) (transferId : TransferId) : Landing where
  side := .local
  destination := destination.chars
  temporary := (localTemporaryPath destination transferId).chars
  transferId := transferId
  temporary_ne := localTemporaryPath_ne destination transferId
  probe_ne := localProbe_ne destination transferId
  auxiliary := fun _ is => ⟨destination, is⟩

variable (l : Landing)

def probe : List Char := commitProbe l.temporary

structure Entered (s : JobStep) : Prop where
  created : ∀ place, s.creates = some place →
    place = (l.side, l.destination) ∨ place = (l.side, l.temporary) ∨ place = (l.side, l.probe)
  recorded : ∀ record, s.emits = some (.residualTempCreated record) → record.path = l.temporary
  cleared : ∀ transferId path, s.emits = some (.residualTempCleared transferId path) → s.before.files l.side path = none

def Books (past : List JobStep) : Prop := ∀ s ∈ past, l.Entered s

def Fresh (past : List JobStep) (_ : JobWorld) : Prop :=
  ∀ s ∈ past, s.op.residual = none ∧ ∀ place, s.creates = some place → place = (l.side, l.destination)

def Opened (past : List JobStep) (_ : JobWorld) : Prop :=
  ∀ s ∈ past, s.op.residual = none ∧
    ∀ place, s.creates = some place → place = (l.side, l.destination) ∨ place = (l.side, l.temporary)

def ProbeGone (past : List JobStep) (w : JobWorld) : Prop :=
  RemovedAgain (l.side, l.probe) past ∧ ((∃ s ∈ past, s.creates = some (l.side, l.probe)) → w.files l.side l.probe = none)

structure Balanced (past : List JobStep) (w : JobWorld) : Prop where
  books : l.Books past
  temporary : (∃ s ∈ past, s.creates = some (l.side, l.temporary)) →
    w.files l.side l.temporary = none ∨ OnRecord l.transferId l.temporary past
  probe : l.ProbeGone past w

structure Recorded (past : List JobStep) (w : JobWorld) : Prop where
  books : l.Books past
  temporary : OnRecord l.transferId l.temporary past
  probe : l.ProbeGone past w

structure Stuck (past : List JobStep) (w : JobWorld) : Prop where
  books : l.Books past
  hangs : Hangs (l.side, l.probe) past
  there : w.files l.side l.probe ≠ none

abbrev Triple {α : Type} (P : List JobStep → JobWorld → Prop) (p : JobM α)
    (Q : Except UserFacingError α → List JobStep → JobWorld → Prop) : Prop :=
  Program.Triple (Spares (Auxiliary l.transferId)) JobOp.Does P p Q

variable {l} {past : List JobStep} {w w' before after : JobWorld} {s : JobStep}

theorem spared (between : Spares (Auxiliary l.transferId) w w') :
    w'.files l.side l.temporary = w.files l.side l.temporary ∧ w'.files l.side l.probe = w.files l.side l.probe :=
  ⟨between _ _ (l.auxiliary _ (Or.inl rfl)), between _ _ (l.auxiliary _ (Or.inr rfl))⟩

theorem temporary_ne_probe : l.temporary ≠ l.probe := fun same => commitProbe_ne l.temporary same.symm

theorem Books.append (h : l.Books past) (hs : l.Entered s) : l.Books (past ++ [s]) := by
  intro x hx
  rcases List.mem_append.mp hx with hx | hx
  · exact h x hx
  · rw [List.mem_singleton.mp hx]
    exact hs

theorem entered_silent {op : JobOp} {answer : op.Answer} (silent : op.residual = none)
    (created : ∀ place, createdBy op answer = some place →
      place = (l.side, l.destination) ∨ place = (l.side, l.temporary) ∨ place = (l.side, l.probe)) :
    l.Entered ⟨before, op, answer, after⟩ where
  created := created
  recorded := fun record emitted => absurd emitted ((emits_residual silent).1 record)
  cleared := fun transferId path emitted => absurd emitted ((emits_residual silent).2 transferId path)

theorem Opened.books (h : l.Opened past w) : l.Books past := by
  rintro ⟨before, op, answer, after⟩ hs
  exact entered_silent (h _ hs).1 fun place created => ((h _ hs).2 place created).imp_right Or.inl

theorem Fresh.opened (h : l.Fresh past w) : l.Opened past w :=
  fun s hs => ⟨(h s hs).1, fun place created => Or.inl ((h s hs).2 place created)⟩

theorem Opened.probeGone (h : l.Opened past w) : l.ProbeGone past w' := by
  have never : ∀ s ∈ past, s.creates ≠ some (l.side, l.probe) := by
    intro s hs created
    rcases (h s hs).2 _ created with same | same
    · exact l.probe_ne (Prod.ext_iff.mp same).2
    · exact temporary_ne_probe (Prod.ext_iff.mp same).2.symm
  refine ⟨?_, ?_⟩
  · rintro earlier s later rfl created
    exact absurd created (never s (List.mem_append_right _ List.mem_cons_self))
  · rintro ⟨s, hs, created⟩
    exact absurd created (never s hs)

theorem Fresh.balanced (h : l.Fresh past w) : l.Balanced past w := by
  refine ⟨h.opened.books, ?_, h.opened.probeGone⟩
  rintro ⟨s, hs, created⟩
  exact absurd (Prod.ext_iff.mp ((h s hs).2 _ created)).2 l.temporary_ne

theorem Recorded.balanced (h : l.Recorded past w) : l.Balanced past w := ⟨h.books, fun _ => Or.inr h.temporary, h.probe⟩

structure Ordinary (l : Landing) (op : JobOp) : Prop where
  silent : op.residual = none
  created : ∀ answer place, createdBy op answer = some place → place = (l.side, l.destination)
  probe : ∀ answer before after, op.Does answer before after → before.files l.side l.probe = none →
    after.files l.side l.probe = none

theorem createdBy_quiet {op : JobOp} (quiet : op.Quiet) (answer : op.Answer) : createdBy op answer = none := by
  cases created : createdBy op answer with
  | none => rfl
  | some place => exact absurd (createdBy_touches created) (quiet place.1 place.2)

theorem ordinary_plain (op : JobOp) (plain : op.Plain) : l.Ordinary op where
  silent := plain.2
  created := fun answer place created => absurd ((createdBy_quiet plain.1 answer).symm.trans created) (by simp)
  probe := fun answer before after step absent => (does_frame step (plain.1 _ _)).trans absent

theorem ProbeGone.append {op : JobOp} {answer : op.Answer} (h : l.ProbeGone past w)
    (between : Spares (Auxiliary l.transferId) w before)
    (created : createdBy op answer ≠ some (l.side, l.probe))
    (keep : before.files l.side l.probe = none → after.files l.side l.probe = none) :
    l.ProbeGone (past ++ [⟨before, op, answer, after⟩]) after := by
  refine ⟨h.1.append created, ?_⟩
  rintro ⟨s, hs, probed⟩
  rcases List.mem_append.mp hs with hs | hs
  · exact keep ((spared between).2.trans (h.2 ⟨s, hs, probed⟩))
  · rw [List.mem_singleton.mp hs] at probed
    exact absurd probed created

theorem destination_ne_probe {place : Side × List Char} (is : place = (l.side, l.destination)) :
    place ≠ (l.side, l.probe) := by
  rintro rfl
  exact l.probe_ne (Prod.ext_iff.mp is).2

theorem Recorded.step {op : JobOp} {answer : op.Answer} (h : l.Recorded past w) (ordinary : l.Ordinary op)
    (between : Spares (Auxiliary l.transferId) w before) (step : op.Does answer before after) :
    l.Recorded (past ++ [⟨before, op, answer, after⟩]) after where
  books := h.books.append (entered_silent ordinary.silent fun place created => Or.inl (ordinary.created answer place created))
  temporary := h.temporary.append ((emits_residual ordinary.silent).2 _ _)
  probe := h.probe.append between (fun created => destination_ne_probe (ordinary.created answer _ created) rfl)
    (ordinary.probe answer before after step)

theorem Balanced.step {op : JobOp} {answer : op.Answer} (h : l.Balanced past w) (plain : op.Plain)
    (between : Spares (Auxiliary l.transferId) w before) (step : op.Does answer before after) :
    l.Balanced (past ++ [⟨before, op, answer, after⟩]) after := by
  have uncreated := createdBy_quiet plain.1 answer
  refine ⟨h.books.append (entered_silent plain.2 fun place created => ?_), ?_, h.probe.append between ?_ ?_⟩
  · exact absurd (uncreated.symm.trans created) (by simp)
  · rintro ⟨s, hs, created⟩
    rcases List.mem_append.mp hs with hs | hs
    · refine (h.temporary ⟨s, hs, created⟩).imp (fun absent => ?_) fun known => ?_
      · rw [does_frame step (plain.1 _ _), (spared between).1, absent]
      · exact known.append ((emits_residual plain.2).2 _ _)
    · rw [List.mem_singleton.mp hs] at created
      exact absurd (uncreated.symm.trans created) (by simp)
  · exact fun created => absurd (uncreated.symm.trans created) (by simp)
  · exact fun absent => (does_frame step (plain.1 _ _)).trans absent

theorem Stuck.step {op : JobOp} {answer : op.Answer} (h : l.Stuck past w) (entered : l.Entered ⟨before, op, answer, after⟩)
    (away : ¬op.Touches l.side l.probe) (between : Spares (Auxiliary l.transferId) w before)
    (step : op.Does answer before after) : l.Stuck (past ++ [⟨before, op, answer, after⟩]) after where
  books := h.books.append entered
  hangs := h.hangs.append fun removed => away (removedBy_touches removed)
  there := by
    rw [does_frame step away, (spared between).2]
    exact h.there

structure Swept (side : Side) (path : List Char) (cleaned : Bool) (s : JobStep) : Prop where
  silent : s.op.residual = none
  created : s.creates = none
  only : ∀ place, s.removes = some place → place = (side, path)
  others : ∀ sd p, ¬(sd = side ∧ p = path) → s.after.files sd p = s.before.files sd p
  gone : cleaned = true → s.after.files side path = none ∧
    (s.removes = some (side, path) ∨ s.before.files side path = none)
  kept : cleaned = false → s.after = s.before ∧ s.removes = none

/-- A program that removes a file and reports it as cleared, where it is on record under an id. -/
def Sweeps (l : Landing) (path : List Char) (residual : Option TransferId) (p : JobM Bool) : Prop :=
  ∀ {P A B C : List JobStep → JobWorld → Prop},
    (∀ cleaned past w s, P past w → Spares (Auxiliary l.transferId) w s.before → s.op.Does s.answer s.before s.after →
      Swept l.side path cleaned s → (bif cleaned then A else B) (past ++ [s]) s.after) →
    (∀ op answer past w before after, JobOp.Plain op → B past w → Spares (Auxiliary l.transferId) w before →
      op.Does answer before after → B (past ++ [⟨before, op, answer, after⟩]) after) →
    (∀ id, residual = some id → ∀ answer past w before after, A past w → Spares (Auxiliary l.transferId) w before →
      JobOp.Does (.emit (.residualTempCleared id path)) answer before after →
      C (past ++ [⟨before, .emit (.residualTempCleared id path), answer, after⟩]) after) →
    (residual = none → ∀ past w, A past w → C past w) →
    l.Triple P p (outcome (fun cleaned => bif cleaned then C else B) B)

def reportsGone {ε : Type} (missing : ε → Bool) : Except ε Unit → Bool
  | .ok () => true
  | .error e => missing e

theorem swept_remove {path : RemotePath} {answer : Except SftpError Unit}
    (step : JobOp.Does (.remove path) answer before after) :
    Swept .remote path.chars (reportsGone (fun e => e.status = some .noSuchFile) answer) ⟨before, .remove path, answer, after⟩ := by
  have others : ∀ sd p, ¬(sd = Side.remote ∧ p = path.chars) → after.files sd p = before.files sd p :=
    fun _ _ away => does_frame step away
  cases answer with
  | ok =>
    refine ⟨rfl, rfl, fun place removed => (Option.some.inj removed).symm, others, fun _ => ⟨?_, Or.inl rfl⟩, by simp [reportsGone]⟩
    rw [step.2]
    exact JobWorld.put_files _ _ _ _
  | error e =>
    refine ⟨rfl, rfl, (fun place removed => by cases removed), others, fun cleaned => ?_, fun _ => ⟨step.1, rfl⟩⟩
    have missing : e.status = some .noSuchFile := of_decide_eq_true cleaned
    have absent := step.2 missing
    exact ⟨step.1 ▸ absent, Or.inr absent⟩

theorem swept_removeFile {path : LocalPath} {answer : Except IoError Unit}
    (step : JobOp.Does (.removeFile path) answer before after) :
    Swept .local path.chars (reportsGone (fun e => e.kind = .notFound) answer) ⟨before, .removeFile path, answer, after⟩ := by
  have others : ∀ sd p, ¬(sd = Side.local ∧ p = path.chars) → after.files sd p = before.files sd p :=
    fun _ _ away => does_frame step away
  cases answer with
  | ok =>
    refine ⟨rfl, rfl, fun place removed => (Option.some.inj removed).symm, others, fun _ => ⟨?_, Or.inl rfl⟩, by simp [reportsGone]⟩
    rw [step.2]
    exact JobWorld.put_files _ _ _ _
  | error e =>
    refine ⟨rfl, rfl, (fun place removed => by cases removed), others, fun cleaned => ?_, fun _ => ⟨step.1, rfl⟩⟩
    have missing : e.kind = .notFound := of_decide_eq_true cleaned
    have absent := step.2 missing
    exact ⟨step.1 ▸ absent, Or.inr absent⟩

theorem sweep_tail {path : List Char} {residual : Option TransferId} {A B C : List JobStep → JobWorld → Prop}
    (clear : ∀ id, residual = some id → ∀ answer past w before after, A past w → Spares (Auxiliary l.transferId) w before →
      JobOp.Does (.emit (.residualTempCleared id path)) answer before after →
      C (past ++ [⟨before, .emit (.residualTempCleared id path), answer, after⟩]) after)
    (skip : residual = none → ∀ past w, A past w → C past w) (cleaned : Bool) :
    l.Triple (bif cleaned then A else B) (do emitClearedIf cleaned residual path; pure cleaned)
      (outcome (fun cleaned => bif cleaned then C else B) B) := by
  cases cleaned with
  | false =>
    refine triple_seq (R := fun _ => B) (F := B) ?_ (fun _ _ h => h) fun _ => triple_pure fun _ _ h => h
    cases residual with
    | none => exact triple_pure fun _ _ h => h
    | some id => exact triple_pure fun _ _ h => h
  | true =>
    refine triple_seq (R := fun _ => C) (F := B) ?_ (fun _ _ h => h) fun _ => triple_pure fun _ _ h => h
    cases residual with
    | none => exact triple_pure (skip rfl)
    | some id => exact triple_step (R := fun _ => C) _ (clear id rfl) fun _ => triple_pure fun _ _ h => h

theorem warned {B : List JobStep → JobWorld → Prop}
    (warn : ∀ op answer past w before after, JobOp.Plain op → B past w → Spares (Auxiliary l.transferId) w before →
      op.Does answer before after → B (past ++ [⟨before, op, answer, after⟩]) after) (side path text : String)
    (transferId : TransferId) {A : List JobStep → JobWorld → Prop} :
    l.Triple B (warnRemains side path text transferId) (outcome (fun cleaned => bif cleaned then A else B) B) := by
  refine triple_seq (triple_uses (uses_warn (fun _ plain => plain) transferId _ _ _) fun op answer past w before after plain =>
    warn op answer past w before after plain) (fun _ _ h => h) fun _ => triple_pure fun _ _ h => h

theorem cleanupRemoteTempRaw_sweeps (side : l.side = .remote) (path : RemotePath) (transferId : TransferId)
    (residual : Option TransferId) : l.Sweeps path.chars residual (cleanupRemoteTempRaw path transferId residual) := by
  intro P A B C swept warn clear skip
  refine triple_step (JobOp.remove path) (R := fun (answer : Except SftpError Unit) =>
    bif reportsGone (fun e => e.status = some .noSuchFile) answer then A else B) ?_ fun removed => ?_
  · intro answer past w before after held between step
    exact swept _ past w ⟨before, .remove path, answer, after⟩ held between step (side ▸ swept_remove step)
  refine triple_seq (R := fun cleaned => bif cleaned then A else B) (F := B) ?_ (fun _ _ h => h) (sweep_tail clear skip)
  cases removed with
  | ok => exact triple_pure fun _ _ h => h
  | error e =>
    by_cases missing : e.status = some .noSuchFile
    · simp only [reportsGone, missing, decide_true, cond_true, if_true]
      exact triple_pure fun _ _ h => h
    · simp only [reportsGone, missing, decide_false, cond_false, if_false]
      exact warned warn _ _ _ _

theorem cleanupLocalTemp_sweeps (side : l.side = .local) {path : LocalPath} (marked : partMark <:+: path.chars)
    (transferId : TransferId) (residual : Option TransferId) :
    l.Sweeps path.chars residual (cleanupLocalTemp path transferId residual) := by
  intro P A B C swept warn clear skip
  unfold cleanupLocalTemp
  rw [if_neg (not_not.mpr marked)]
  refine triple_step (JobOp.removeFile path) (R := fun (answer : Except IoError Unit) =>
    bif reportsGone (fun e => e.kind = .notFound) answer then A else B) ?_ fun removed => ?_
  · intro answer past w before after held between step
    exact swept _ past w ⟨before, .removeFile path, answer, after⟩ held between step (side ▸ swept_removeFile step)
  refine triple_seq (R := fun cleaned => bif cleaned then A else B) (F := B) ?_ (fun _ _ h => h) (sweep_tail clear skip)
  cases removed with
  | ok => exact triple_pure fun _ _ h => h
  | error e =>
    by_cases missing : e.kind = .notFound
    · simp only [reportsGone, missing, decide_true, cond_true, if_true]
      exact triple_pure fun _ _ h => h
    · simp only [reportsGone, missing, decide_false, cond_false, if_false]
      exact warned warn _ _ _ _

theorem Swept.entered {path : List Char} {cleaned : Bool} (h : Swept l.side path cleaned s) : l.Entered s := by
  obtain ⟨before, op, answer, after⟩ := s
  exact entered_silent h.silent fun place created => absurd (h.created.symm.trans created) (by simp)

theorem Swept.onRecord {side : Side} {path : List Char} {cleaned : Bool} {transferId : TransferId} {known : List Char}
    (h : Swept side path cleaned s) (old : OnRecord transferId known past) : OnRecord transferId known (past ++ [s]) :=
  old.append ((emits_residual h.silent).2 _ _)

theorem Recorded.sweep {path : List Char} {cleaned : Bool} (h : l.Recorded past w) (swept : Swept l.side path cleaned s)
    (between : Spares (Auxiliary l.transferId) w s.before) : l.Recorded (past ++ [s]) s.after := by
  refine ⟨h.books.append swept.entered, swept.onRecord h.temporary, h.probe.append between ?_ fun absent => ?_⟩
  · exact fun created => absurd (swept.created.symm.trans created) (by simp)
  · by_cases same : l.probe = path
    · cases cleaned with
      | true => exact same ▸ (swept.gone rfl).1
      | false => exact (congrArg (fun w => w.files l.side l.probe) (swept.kept rfl).1).trans absent
    · exact (swept.others _ _ fun here => same here.2).trans absent

theorem entered_cleared {answer : JobOp.Answer (.emit (.residualTempCleared l.transferId l.temporary))}
    (absent : before.files l.side l.temporary = none) :
    l.Entered ⟨before, .emit (.residualTempCleared l.transferId l.temporary), answer, after⟩ := by
  refine ⟨(fun place created => by cases created), fun record emitted => ?_, fun transferId path emitted => ?_⟩
  · cases Option.some.inj emitted
  · cases Option.some.inj emitted
    exact absent

theorem Recorded.settle {p : JobM Bool} (sweeps : l.Sweeps l.temporary (some l.transferId) p) :
    l.Triple l.Recorded p (outcome (fun _ => l.Balanced) l.Balanced) := by
  have swept := sweeps (P := l.Recorded) (A := fun past w => l.Recorded past w ∧ w.files l.side l.temporary = none)
    (B := l.Recorded) (C := l.Balanced) ?_ ?_ ?_ (by simp)
  · refine Triple.mono swept (fun _ _ h => h) fun result past w held => ?_
    cases result with
    | ok cleaned =>
      cases cleaned with
      | true => exact held
      | false => exact Recorded.balanced held
    | error e => exact Recorded.balanced held
  · intro cleaned past w s recorded between step swept
    have recorded' := recorded.sweep swept between
    cases cleaned with
    | true => exact ⟨recorded', (swept.gone rfl).1⟩
    | false => exact recorded'
  · exact fun op answer past w before after plain recorded between step => recorded.step (ordinary_plain op plain) between step
  · rintro id ⟨⟩ answer past w before after ⟨recorded, absent⟩ between step
    have gone := (spared between).1.trans absent
    refine ⟨recorded.books.append (entered_cleared gone), fun _ => Or.inl ?_, recorded.probe.append between ?_ ?_⟩
    · rwa [show after = before from step]
    · exact fun created => by cases created
    · rw [show after = before from step]
      exact id

theorem Stuck.sweep {p : JobM Bool} (sweeps : l.Sweeps l.temporary (some l.transferId) p) :
    l.Triple l.Stuck p (outcome (fun _ => l.Stuck) l.Stuck) := by
  have swept := sweeps (P := l.Stuck) (A := fun past w => l.Stuck past w ∧ w.files l.side l.temporary = none)
    (B := l.Stuck) (C := l.Stuck) ?_ ?_ ?_ (by simp)
  · refine Triple.mono swept (fun _ _ h => h) fun result past w held => ?_
    cases result with
    | ok cleaned =>
      cases cleaned with
      | true => exact held
      | false => exact held
    | error e => exact held
  · intro cleaned past w s stuck between step swept
    have stuck' : l.Stuck (past ++ [s]) s.after := by
      refine ⟨stuck.books.append swept.entered, stuck.hangs.append fun removed => ?_, ?_⟩
      · exact temporary_ne_probe (Prod.ext_iff.mp (swept.only _ removed)).2.symm
      · rw [swept.others _ _ fun here => temporary_ne_probe here.2.symm, (spared between).2]
        exact stuck.there
    cases cleaned with
    | true => exact ⟨stuck', (swept.gone rfl).1⟩
    | false => exact stuck'
  · intro op answer past w before after plain stuck between step
    refine stuck.step (entered_silent plain.2 fun place created => ?_) (plain.1 _ _) between step
    exact absurd ((createdBy_quiet plain.1 answer).symm.trans created) (by simp)
  · rintro id ⟨⟩ answer past w before after ⟨stuck, absent⟩ between step
    exact stuck.step (entered_cleared ((spared between).1.trans absent)) (fun touched => touched) between step

structure Hanging (l : Landing) (past : List JobStep) (w : JobWorld) : Prop where
  stuck : l.Stuck past w
  temporary : OnRecord l.transferId l.temporary past

/-- What a job leaves that ends here. -/
def Settled (l : Landing) (past : List JobStep) (w : JobWorld) : Prop := l.Balanced past w ∨ l.Stuck past w

def Held (l : Landing) (past : List JobStep) (w : JobWorld) : Prop := l.Recorded past w ∨ l.Hanging past w

theorem Held.settled (h : l.Held past w) : l.Settled past w := h.imp Recorded.balanced Hanging.stuck

theorem Recorded.sweepProbe {p : JobM Bool} (sweeps : l.Sweeps l.probe none p) :
    l.Triple l.Recorded p (outcome (fun _ => l.Recorded) l.Recorded) := by
  have swept := sweeps (P := l.Recorded) (A := l.Recorded) (B := l.Recorded) (C := l.Recorded) ?_ ?_ (by simp) (fun _ _ _ h => h)
  · refine Triple.mono swept (fun _ _ h => h) fun result past w held => ?_
    cases result with
    | ok cleaned => cases cleaned <;> exact held
    | error e => exact held
  · intro cleaned past w s recorded between step swept
    cases cleaned <;> exact recorded.sweep swept between
  · exact fun op answer past w before after plain recorded between step => recorded.step (ordinary_plain op plain) between step

theorem Hanging.sweepProbe {p : JobM Bool} (sweeps : l.Sweeps l.probe none p) :
    l.Triple l.Hanging p (outcome (fun cleaned => bif cleaned then l.Recorded else l.Hanging) l.Hanging) := by
  refine sweeps ?_ ?_ (by simp) (fun _ _ _ h => h)
  · intro cleaned past w s hanging between step swept
    have there := (spared between).2.symm ▸ hanging.stuck.there
    have books := hanging.stuck.books.append swept.entered
    have known := swept.onRecord hanging.temporary
    have uncreated : s.creates ≠ some (l.side, l.probe) := fun created => absurd (swept.created.symm.trans created) (by simp)
    cases cleaned with
    | true =>
      obtain ⟨gone, removed | absent⟩ := swept.gone rfl
      · exact ⟨books, known, removedAgain_removal removed uncreated, fun _ => gone⟩
      · exact absurd absent there
    | false =>
      obtain ⟨same, kept⟩ := swept.kept rfl
      refine ⟨⟨books, hanging.stuck.hangs.append fun removed => absurd (kept.symm.trans removed) (by simp), ?_⟩, known⟩
      rwa [same]
  · intro op answer past w before after plain hanging between step
    refine ⟨hanging.stuck.step (entered_silent plain.2 fun place created => ?_) (plain.1 _ _) between step, ?_⟩
    · exact absurd ((createdBy_quiet plain.1 answer).symm.trans created) (by simp)
    · exact hanging.temporary.append ((emits_residual plain.2).2 _ _)

theorem Recorded.linkProbe {op : JobOp} {answer : op.Answer} (h : l.Recorded past w) (silent : op.residual = none)
    (created : createdBy op answer = some (l.side, l.probe))
    (there : after.files l.side l.probe ≠ none) : l.Hanging (past ++ [⟨before, op, answer, after⟩]) after := by
  refine ⟨⟨h.books.append (entered_silent silent fun place is => ?_), ⟨past, _, [], rfl, created, by simp⟩, there⟩, ?_⟩
  · exact Or.inr (Or.inr (Option.some.inj (is.symm.trans created)))
  · exact h.temporary.append ((emits_residual silent).2 _ _)

theorem verify_held {ε : Type} {sweep : JobM Bool} (sweeps : l.Sweeps l.probe none sweep) {link : JobM (Except ε Unit)}
    (links : l.Triple l.Recorded link (outcome (outcome (fun _ => l.Hanging) l.Recorded) l.Recorded))
    (mapErr : ε → UserFacingError) (first last : UserFacingError) :
    l.Triple l.Recorded (do
      let stale ← sweep
      failIf (!stale) first
      let linked ← link
      orThrow mapErr linked
      let cleaned ← sweep
      failIf (!cleaned) last) (outcome (fun _ => l.Recorded) l.Held) := by
  have left : ∀ past w, l.Recorded past w → l.Held past w := fun _ _ => Or.inl
  refine triple_seq (Recorded.sweepProbe sweeps) left fun stale => ?_
  refine triple_seq (R := fun _ => l.Recorded) (F := l.Recorded) ?_ left fun _ => ?_
  · exact triple_ite (fun _ => triple_throw fun _ _ h => h) fun _ => triple_pure fun _ _ h => h
  refine triple_seq links left fun linked => ?_
  refine triple_seq (R := fun _ => l.Hanging) (F := l.Recorded) ?_ left fun _ => ?_
  · cases linked with
    | ok => exact triple_pure fun _ _ h => h
    | error e => exact triple_throw fun _ _ h => h
  refine triple_seq (Hanging.sweepProbe sweeps) (fun _ _ => Or.inr) fun cleaned => ?_
  cases cleaned with
  | true => exact triple_pure fun _ _ h => h
  | false => exact triple_throw fun _ _ h => Or.inr h

theorem orCleanup_settled {P R : List JobStep → JobWorld → Prop} {body : JobM Unit} {cleanup : JobM Bool}
    (sweeps : l.Sweeps l.temporary (some l.transferId) cleanup) (h : l.Triple P body (outcome (fun _ => R) l.Held)) :
    l.Triple P (orCleanup body cleanup) (outcome (fun _ => R) l.Settled) := by
  have balanced : l.Triple l.Recorded cleanup (outcome (fun _ => l.Settled) l.Settled) :=
    (Recorded.settle sweeps).mono (fun _ _ h => h) fun result past w held => by
      cases result <;> exact Or.inl held
  have stuck : l.Triple l.Hanging cleanup (outcome (fun _ => l.Settled) l.Settled) :=
    (Stuck.sweep sweeps).mono (fun _ _ h => h.stuck) fun result past w held => by
      cases result <;> exact Or.inr held
  refine triple_catch h (fun _ => triple_pure fun _ _ h => h) fun e => ?_
  exact triple_seq (balanced.or stuck) (fun _ _ h => h) fun _ => triple_throw fun _ _ h => h

def Early (l : Landing) (op : JobOp) : Prop :=
  op.residual = none ∧ ∀ answer place, createdBy op answer = some place → place = (l.side, l.destination)

theorem early_plain (op : JobOp) (plain : op.Plain) : l.Early op :=
  ⟨plain.2, fun answer place created => absurd ((createdBy_quiet plain.1 answer).symm.trans created) (by simp)⟩

theorem early_uncreating {op : JobOp} (silent : op.residual = none) (uncreated : ∀ answer, createdBy op answer = none) :
    l.Early op :=
  ⟨silent, fun answer place created => absurd ((uncreated answer).symm.trans created) (by simp)⟩

theorem fresh_through {α : Type} {p : JobM α} (uses : Uses l.Early p) :
    l.Triple l.Fresh p (outcome (fun _ => l.Fresh) l.Fresh) := by
  refine triple_uses uses fun op answer past w before after early fresh _ _ s hs => ?_
  rcases List.mem_append.mp hs with hs | hs
  · exact fresh s hs
  · rw [List.mem_singleton.mp hs]
    exact ⟨early.1, early.2 answer⟩

theorem recorded_through {α : Type} {p : JobM α} (uses : Uses l.Ordinary p) :
    l.Triple l.Recorded p (outcome (fun _ => l.Recorded) l.Recorded) :=
  triple_uses uses fun _ _ _ _ _ _ ordinary recorded between step => recorded.step ordinary between step

theorem balanced_through {α : Type} {p : JobM α} (uses : Uses JobOp.Plain p) :
    l.Triple l.Balanced p (outcome (fun _ => l.Balanced) l.Balanced) :=
  triple_uses uses fun _ _ _ _ _ _ plain balanced between step => balanced.step plain between step

theorem held_of_recorded {α : Type} {P : List JobStep → JobWorld → Prop} {p : JobM α}
    (h : l.Triple P p (outcome (fun _ => l.Recorded) l.Recorded)) : l.Triple P p (outcome (fun _ => l.Recorded) l.Held) :=
  h.mono (fun _ _ h => h) fun result past w held => by
    cases result with
    | ok => exact held
    | error e => exact Or.inl held

theorem Opened.append {op : JobOp} {answer : op.Answer} (h : l.Opened past w) (silent : op.residual = none)
    (created : ∀ place, createdBy op answer = some place → place = (l.side, l.destination) ∨ place = (l.side, l.temporary)) :
    l.Opened (past ++ [⟨before, op, answer, after⟩]) after := by
  intro s hs
  rcases List.mem_append.mp hs with hs | hs
  · exact h s hs
  · rw [List.mem_singleton.mp hs]
    exact ⟨silent, created⟩

theorem Fresh.append {op : JobOp} {answer : op.Answer} (h : l.Fresh past w) (silent : op.residual = none)
    (uncreated : createdBy op answer = none) : l.Fresh (past ++ [⟨before, op, answer, after⟩]) after := by
  intro s hs
  rcases List.mem_append.mp hs with hs | hs
  · exact h s hs
  · rw [List.mem_singleton.mp hs]
    exact ⟨silent, fun place created => absurd (uncreated.symm.trans created) (by simp)⟩

theorem Recorded.idle {op : JobOp} {answer : op.Answer} (h : l.Recorded past w) (silent : op.residual = none)
    (uncreated : createdBy op answer = none) (between : Spares (Auxiliary l.transferId) w before) (same : after = before) :
    l.Recorded (past ++ [⟨before, op, answer, after⟩]) after := by
  have never : ∀ place, createdBy op answer ≠ some place := fun place created => absurd (uncreated.symm.trans created) (by simp)
  refine ⟨h.books.append (entered_silent silent fun place created => absurd created (never place)),
    h.temporary.append ((emits_residual silent).2 _ _), h.probe.append between (never _) fun absent => ?_⟩
  rwa [same]

theorem Opened.record {record : ResidualTempRecord} (id_ : record.transferId = l.transferId) (path_ : record.path = l.temporary) :
    l.Triple l.Opened (emitResidualTempCreated record) (outcome (fun _ => l.Recorded) l.Settled) := by
  refine triple_step (R := fun _ => l.Recorded) _ (fun answer past w before after opened between step => ?_) fun _ =>
    triple_pure fun _ _ h => h
  refine ⟨opened.books.append ⟨(fun place created => by cases created), fun record' emitted => ?_, (fun _ _ emitted => ?_)⟩, ?_, ?_⟩
  · cases Option.some.inj emitted
    exact path_
  · cases Option.some.inj emitted
  · exact id_ ▸ path_ ▸ onRecord_new rfl
  · have gone : l.ProbeGone past w := opened.probeGone
    refine gone.append between (fun created => by cases created) fun absent => ?_
    rwa [show after = before from step]

def Opening (l : Landing) {ε : Type} : Except ε Unit → List JobStep → JobWorld → Prop
  | .ok () => l.Opened
  | .error _ => l.Fresh

theorem Opening.returned {ε : Type} {mapErr : ε → UserFacingError} (answer : Except ε Unit) :
    l.Triple (l.Opening answer) (orThrow mapErr answer) (outcome (fun _ => l.Opened) l.Fresh) := by
  cases answer with
  | ok => exact triple_pure fun _ _ h => h
  | error e => exact triple_throw fun _ _ h => h

theorem ordinary_away {op : JobOp} (silent : op.residual = none)
    (created : ∀ answer place, createdBy op answer = some place → place = (l.side, l.destination))
    (away : ¬op.Touches l.side l.probe) : l.Ordinary op :=
  ⟨silent, created, fun _ _ _ step absent => (does_frame step away).trans absent⟩

section Upload

variable {destination : RemotePath} {transferId : TransferId}

theorem sweepsRemote : (remote destination transferId).Sweeps (remote destination transferId).temporary (some transferId)
    (cleanupRemoteTempRaw (remoteTemporaryPath destination transferId) transferId (some transferId)) :=
  cleanupRemoteTempRaw_sweeps rfl _ _ _

theorem early_remove (path : RemotePath) : (remote destination transferId).Early (.remove path) :=
  early_uncreating rfl fun answer => by cases answer <;> rfl

theorem openNew_opening (answer : Except SftpError Unit) (past : List JobStep) (w before after : JobWorld)
    (h : (remote destination transferId).Fresh past w) : (remote destination transferId).Opening answer
      (past ++ [⟨before, .openNew (remoteTemporaryPath destination transferId), answer, after⟩]) after := by
  cases answer with
  | ok => exact h.opened.append rfl fun place created => Or.inr (Option.some.inj created).symm
  | error e => exact h.append rfl rfl

theorem openRemoteTemp_opened : (remote destination transferId).Triple (remote destination transferId).Fresh
    (openRemoteTemp (remoteTemporaryPath destination transferId) transferId)
    (outcome (fun _ => (remote destination transferId).Opened) (remote destination transferId).Fresh) := by
  refine triple_step (R := fun (answer : Except SftpError Unit) => (remote destination transferId).Opening answer)
    (JobOp.openNew (remoteTemporaryPath destination transferId))
    (fun answer past w before after fresh _ _ => openNew_opening answer past w before after fresh) fun opened => ?_
  cases opened with
  | ok => exact triple_pure fun _ _ h => h
  | error e =>
    refine triple_seq (fresh_through (uses_cleanupRemoteTempRaw early_plain (early_remove _) _ none (by simp)))
      (fun _ _ h => h) fun cleaned => triple_ite (fun _ => ?_) fun _ => triple_throw fun _ _ h => h
    exact triple_step (R := fun (answer : Except SftpError Unit) => (remote destination transferId).Opening answer)
      (JobOp.openNew (remoteTemporaryPath destination transferId))
      (fun answer past w before after fresh _ _ => openNew_opening answer past w before after fresh) Opening.returned

theorem hardlink_linked : (remote destination transferId).Triple (remote destination transferId).Recorded
    (perform (.hardlink (remoteTemporaryPath destination transferId) ⟨(remote destination transferId).probe⟩))
    (outcome (outcome (fun _ => (remote destination transferId).Hanging) (remote destination transferId).Recorded)
      (remote destination transferId).Recorded) := by
  refine triple_perform fun answer past w before after recorded between step => ?_
  cases (answer : Except SftpError Unit) with
  | ok =>
    obtain ⟨_, node, _, _, rfl⟩ := step
    refine recorded.linkProbe rfl rfl ?_
    exact fun absent => absurd ((JobWorld.put_files _ _ _ _).symm.trans absent) (by simp)
  | error e => exact recorded.idle rfl rfl between step

theorem replaceRemoteDestination_held : (remote destination transferId).Triple (remote destination transferId).Recorded
    (replaceRemoteDestination (remoteTemporaryPath destination transferId) destination transferId)
    (outcome (fun _ => (remote destination transferId).Recorded) (remote destination transferId).Held) := by
  have remove : (remote destination transferId).Ordinary (.remove destination) := by
    refine ordinary_away rfl (fun answer place created => ?_) fun touched => remoteProbe_ne destination transferId touched.2
    cases (answer : Except SftpError Unit) <;> cases created
  have left : ∀ past w, (remote destination transferId).Recorded past w → (remote destination transferId).Held past w :=
    fun _ _ => Or.inl
  refine triple_seq (recorded_through (uses_ask (ordinary_plain _ ⟨fun _ _ => id, rfl⟩))) left fun (confirmed : Bool) => ?_
  refine triple_ite (fun _ => held_of_recorded (recorded_through (uses_removeRemoteDestinationRaw remove))) fun _ => ?_
  refine triple_seq (verify_held (cleanupRemoteTempRaw_sweeps rfl ⟨(remote destination transferId).probe⟩ transferId none)
    hardlink_linked _ _ _) (fun _ _ h => h) fun _ => ?_
  refine triple_seq (recorded_through (uses_ask (ordinary_plain _ ⟨fun _ _ => id, rfl⟩))) left fun _ => ?_
  exact held_of_recorded (recorded_through (uses_removeRemoteDestinationRaw remove))

theorem uploadFile_settled {job : TransferJob} (chunkSize : UInt32) (connectionKey : String) (source : LocalPath)
    (metadata : LocalMetadata) : (remote destination job.id).Triple (remote destination job.id).Fresh
    (uploadFile chunkSize job connectionKey source destination metadata)
    (outcome (fun _ => (remote destination job.id).Settled) (remote destination job.id).Settled) := by
  have fresh : ∀ past w, (remote destination job.id).Fresh past w → (remote destination job.id).Settled past w :=
    fun _ _ h => Or.inl h.balanced
  have balanced : ∀ past w, (remote destination job.id).Balanced past w → (remote destination job.id).Settled past w :=
    fun _ _ => Or.inl
  have settled : ∀ past w, (remote destination job.id).Settled past w → (remote destination job.id).Settled past w :=
    fun _ _ h => h
  have written : (remote destination job.id).Ordinary
      (.upload (remoteTemporaryPath destination job.id) (uploadWriter chunkSize metadata)) := by
    refine ordinary_away rfl (fun answer place created => by cases created) fun touched => ?_
    exact commitProbe_ne _ touched.2
  have linked : (remote destination job.id).Ordinary (.hardlink (remoteTemporaryPath destination job.id) destination) := by
    refine ordinary_away rfl (fun answer place created => ?_) fun touched => remoteProbe_ne destination job.id touched.2
    cases (answer : Except SftpError Unit) with
    | ok => exact (Option.some.inj created).symm
    | error e => cases created
  refine triple_seq (fresh_through (uses_emitTransferRunning early_plain _ _)) fresh fun _ => ?_
  have made : ∀ path, (remote destination job.id).Early (.mkdir path) := fun path => early_uncreating rfl fun _ => rfl
  refine triple_seq (fresh_through (uses_ensureRemoteParentDirectoryRaw early_plain made _)) fresh fun _ => ?_
  refine triple_seq openRemoteTemp_opened fresh fun _ => ?_
  refine triple_step JobOp.now (R := fun _ => (remote destination job.id).Opened)
    (fun answer past w before after opened _ _ => opened.append rfl fun place created => by cases created) fun createdAt => ?_
  refine triple_seq (Opened.record rfl rfl) settled fun _ => ?_
  refine triple_seq (orCleanup_settled sweepsRemote (held_of_recorded (recorded_through
    (uses_copyToRemote ordinary_plain written source)))) settled fun _ => ?_
  refine triple_seq (R := fun _ => (remote destination job.id).Recorded) (F := (remote destination job.id).Held)
    (triple_ite (fun _ => replaceRemoteDestination_held) fun _ => triple_pure fun _ _ h => h) (fun _ _ => Held.settled) fun _ => ?_
  refine triple_seq (orCleanup_settled sweepsRemote (held_of_recorded (recorded_through
    (uses_commitRemoteTempRaw linked)))) settled fun _ => ?_
  refine triple_seq (Recorded.settle sweepsRemote) balanced fun _ => ?_
  refine (balanced_through (uses_preserveUploadMetadataRaw (fun _ plain => plain) job metadata)).mono (fun _ _ h => h) ?_
  intro result past w held
  cases result <;> exact Or.inl held

theorem uploadSingleFilePipelined_settled {job : TransferJob} (aim : job.destination = .remote destination) (chunkSize : UInt32)
    (connectionKey : String) : (remote destination job.id).Triple (remote destination job.id).Fresh
    (uploadSingleFilePipelined chunkSize job connectionKey)
    (outcome (fun _ => (remote destination job.id).Settled) (remote destination job.id).Settled) := by
  have made : ∀ path, (remote destination job.id).Early (.mkdir path) := fun path => early_uncreating rfl fun _ => rfl
  have settle : ∀ {p : JobM Unit}, Uses (remote destination job.id).Early p →
      (remote destination job.id).Triple (remote destination job.id).Fresh p
        (outcome (fun _ => (remote destination job.id).Settled) (remote destination job.id).Settled) := by
    intro p uses
    refine (fresh_through uses).mono (fun _ _ h => h) fun result past w held => ?_
    cases result <;> exact Or.inl (Fresh.balanced held)
  have fresh : ∀ past w, (remote destination job.id).Fresh past w → (remote destination job.id).Settled past w :=
    fun _ _ h => Or.inl h.balanced
  unfold uploadSingleFilePipelined
  split
  · rename_i source destination' from_ aim'
    cases aim.symm.trans aim'
    refine triple_seq (fresh_through (uses_ask (early_plain _ ⟨fun _ _ => id, rfl⟩))) fresh fun found => ?_
    refine triple_seq (fresh_through uses_orThrow) fresh fun metadata => ?_
    split
    · refine settle (uses_uploadSymlinkRaw early_plain made fun destination'' aim'' => ⟨fun _ => early_remove _, fun target => ?_⟩)
      cases aim.symm.trans aim''
      refine ⟨rfl, fun answer place created => ?_⟩
      cases (answer : Except SftpError Unit) with
      | ok => exact (Option.some.inj created).symm
      | error e => cases created
    · exact settle ((uses_emitTransferRunning early_plain _ _).bind fun _ =>
        (uses_createRemoteDirectoryRaw early_plain made _).bind fun _ => uses_preserveUploadMetadataRaw early_plain _ _)
    · exact settle trivial
    · exact uploadFile_settled chunkSize connectionKey source metadata
  · exact settle trivial

end Upload

section Download

variable {destination : LocalPath} {transferId : TransferId}

theorem sweepsLocal : («local» destination transferId).Sweeps («local» destination transferId).temporary (some transferId)
    (cleanupLocalTemp (localTemporaryPath destination transferId) transferId (some transferId)) :=
  cleanupLocalTemp_sweeps rfl (localTemporaryPath_marked destination transferId) _ _

theorem early_removeFile (path : LocalPath) : («local» destination transferId).Early (.removeFile path) :=
  early_uncreating rfl fun answer => by cases answer <;> rfl

theorem createNew_opening (answer : Except IoError Unit) (past : List JobStep) (w before after : JobWorld)
    (h : («local» destination transferId).Fresh past w) : («local» destination transferId).Opening answer
      (past ++ [⟨before, .createNew (localTemporaryPath destination transferId), answer, after⟩]) after := by
  cases answer with
  | ok => exact h.opened.append rfl fun place created => Or.inr (Option.some.inj created).symm
  | error e => exact h.append rfl rfl

theorem openLocalTemp_opened : («local» destination transferId).Triple («local» destination transferId).Fresh
    (openLocalTemp (localTemporaryPath destination transferId) transferId)
    (outcome (fun _ => («local» destination transferId).Opened) («local» destination transferId).Fresh) := by
  refine triple_step (R := fun (answer : Except IoError Unit) => («local» destination transferId).Opening answer)
    (JobOp.createNew (localTemporaryPath destination transferId))
    (fun answer past w before after fresh _ _ => createNew_opening answer past w before after fresh) fun opened => ?_
  cases opened with
  | ok => exact triple_pure fun _ _ h => h
  | error e =>
    refine triple_ite (fun _ => ?_) fun _ => triple_throw fun _ _ h => h
    refine triple_seq (fresh_through (uses_cleanupLocalTemp early_plain (early_removeFile _) _ none (by simp)))
      (fun _ _ h => h) fun cleaned => triple_ite (fun _ => ?_) fun _ => triple_throw fun _ _ h => h
    exact triple_step (R := fun (answer : Except IoError Unit) => («local» destination transferId).Opening answer)
      (JobOp.createNew (localTemporaryPath destination transferId))
      (fun answer past w before after fresh _ _ => createNew_opening answer past w before after fresh) Opening.returned

theorem hardLink_linked : («local» destination transferId).Triple («local» destination transferId).Recorded
    (perform (.hardLink (localTemporaryPath destination transferId) ⟨(«local» destination transferId).probe⟩))
    (outcome (outcome (fun _ => («local» destination transferId).Hanging) («local» destination transferId).Recorded)
      («local» destination transferId).Recorded) := by
  refine triple_perform fun answer past w before after recorded between step => ?_
  cases (answer : Except IoError Unit) with
  | ok =>
    obtain ⟨_, node, _, _, rfl⟩ := step
    refine recorded.linkProbe rfl rfl ?_
    exact fun absent => absurd ((JobWorld.put_files _ _ _ _).symm.trans absent) (by simp)
  | error e => exact recorded.idle rfl rfl between step

theorem ordinary_removeDirAll (path : LocalPath) : («local» destination transferId).Ordinary (.removeDirAll path) := by
  refine ⟨rfl, (fun answer place created => by cases created), fun answer before after step absent => ?_⟩
  obtain ⟨files, rfl, each⟩ := step
  rcases each .local (commitProbe (localTemporaryPath destination transferId).chars) with same | gone
  · exact same.trans absent
  · exact gone.2.2

theorem ordinary_removeDestination : («local» destination transferId).Ordinary (.removeFile destination) := by
  refine ordinary_away rfl (fun answer place created => ?_) fun touched => localProbe_ne destination transferId touched.2
  cases (answer : Except IoError Unit) <;> cases created

theorem confirmLocalHardlink_settled : («local» destination transferId).Triple («local» destination transferId).Recorded
    (confirmLocalHardlink (localTemporaryPath destination transferId) destination transferId)
    (outcome (fun _ => («local» destination transferId).Recorded) («local» destination transferId).Settled) := by
  have left : ∀ past w, («local» destination transferId).Recorded past w → («local» destination transferId).Settled past w :=
    fun _ _ h => Or.inl h.balanced
  have probe : («local» destination transferId).Sweeps («local» destination transferId).probe none
      (cleanupLocalTemp ⟨(«local» destination transferId).probe⟩ transferId none) :=
    cleanupLocalTemp_sweeps rfl (commitProbe_marked (localTemporaryPath_marked destination transferId)) _ _
  refine triple_seq (recorded_through (uses_ask (ordinary_plain _ ⟨fun _ _ => id, rfl⟩))) left fun (confirmed : Bool) => ?_
  refine triple_ite (fun _ => triple_pure fun _ _ h => h) fun _ => ?_
  refine triple_seq (orCleanup_settled sweepsLocal (verify_held probe hardLink_linked _ _ _)) (fun _ _ h => h) fun _ => ?_
  exact (recorded_through (uses_ask (ordinary_plain _ ⟨fun _ _ => id, rfl⟩))).mono (fun _ _ h => h) fun result past w held => by
    cases result with
    | ok => exact held
    | error e => exact left past w held

theorem downloadFile_settled {job : TransferJob} (chunkSize : UInt32) (source : RemotePath) (attributes : FileAttributes) :
    («local» destination job.id).Triple («local» destination job.id).Fresh
      (downloadFile chunkSize job source destination attributes)
      (outcome (fun _ => («local» destination job.id).Settled) («local» destination job.id).Settled) := by
  have fresh : ∀ past w, («local» destination job.id).Fresh past w → («local» destination job.id).Settled past w :=
    fun _ _ h => Or.inl h.balanced
  have balanced : ∀ past w, («local» destination job.id).Balanced past w → («local» destination job.id).Settled past w :=
    fun _ _ => Or.inl
  have settled : ∀ past w, («local» destination job.id).Settled past w → («local» destination job.id).Settled past w :=
    fun _ _ h => h
  have sized : ∀ len, («local» destination job.id).Ordinary (.setLen (localTemporaryPath destination job.id) len) := by
    intro len
    exact ordinary_away rfl (fun answer place created => by cases created) fun touched => commitProbe_ne _ touched.2
  have written : («local» destination job.id).Ordinary
      (.download (localTemporaryPath destination job.id) (downloadReader chunkSize attributes)) :=
    ordinary_away rfl (fun answer place created => by cases created) fun touched => commitProbe_ne _ touched.2
  have linked : («local» destination job.id).Ordinary (.hardLink (localTemporaryPath destination job.id) destination) := by
    refine ordinary_away rfl (fun answer place created => ?_) fun touched => localProbe_ne destination job.id touched.2
    cases (answer : Except IoError Unit) with
    | ok => exact (Option.some.inj created).symm
    | error e => cases created
  refine triple_seq (fresh_through (uses_emitTransferRunning early_plain _ _)) fresh fun _ => ?_
  have made : ∀ path, («local» destination job.id).Early (.createDirAll path) := fun path => early_uncreating rfl fun _ => rfl
  refine triple_seq (fresh_through (uses_ensureLocalParentDirectory early_plain made _)) fresh fun _ => ?_
  refine triple_seq openLocalTemp_opened fresh fun _ => ?_
  refine triple_step JobOp.now (R := fun _ => («local» destination job.id).Opened)
    (fun answer past w before after opened _ _ => opened.append rfl fun place created => by cases created) fun createdAt => ?_
  refine triple_seq (Opened.record rfl rfl) settled fun _ => ?_
  refine triple_seq (orCleanup_settled sweepsLocal (held_of_recorded (recorded_through (uses_reserve sized _)))) settled fun _ => ?_
  refine triple_seq (orCleanup_settled sweepsLocal (held_of_recorded (recorded_through
    (uses_copyFromRemote ordinary_plain written source)))) settled fun _ => ?_
  refine triple_seq (R := fun _ => («local» destination job.id).Recorded) (F := («local» destination job.id).Settled)
    (triple_ite (fun _ => ?_) fun _ => triple_pure fun _ _ h => h) settled fun _ => ?_
  · refine triple_seq confirmLocalHardlink_settled settled fun _ => orCleanup_settled sweepsLocal (held_of_recorded ?_)
    exact recorded_through (uses_removeDownloadedFileDestination ordinary_plain ordinary_removeDestination
      (ordinary_removeDirAll _))
  refine triple_seq (orCleanup_settled sweepsLocal (held_of_recorded (recorded_through
    ((uses_ask linked).bind fun _ => uses_orThrow)))) settled fun _ => ?_
  refine triple_seq (Recorded.settle sweepsLocal) balanced fun _ => ?_
  refine (balanced_through (uses_preserveDownloadMetadata (fun _ plain => plain) job attributes)).mono (fun _ _ h => h) ?_
  intro result past w held
  cases result <;> exact Or.inl held

theorem downloadSingleFilePipelined_settled {job : TransferJob} (aim : job.destination = .local destination)
    (chunkSize : UInt32) (mayClearDestination : Bool) : («local» destination job.id).Triple («local» destination job.id).Fresh
    (downloadSingleFilePipelined chunkSize job mayClearDestination)
    (outcome (fun _ => («local» destination job.id).Settled) («local» destination job.id).Settled) := by
  have made : ∀ path, («local» destination job.id).Early (.createDirAll path) := fun path => early_uncreating rfl fun _ => rfl
  have cleared : ∀ path, («local» destination job.id).Early (.removeDirAll path) := fun path => early_uncreating rfl fun _ => rfl
  have settle : ∀ {p : JobM Unit}, Uses («local» destination job.id).Early p →
      («local» destination job.id).Triple («local» destination job.id).Fresh p
        (outcome (fun _ => («local» destination job.id).Settled) («local» destination job.id).Settled) := by
    intro p uses
    refine (fresh_through uses).mono (fun _ _ h => h) fun result past w held => ?_
    cases result <;> exact Or.inl (Fresh.balanced held)
  have fresh : ∀ past w, («local» destination job.id).Fresh past w → («local» destination job.id).Settled past w :=
    fun _ _ h => Or.inl h.balanced
  unfold downloadSingleFilePipelined
  split
  · rename_i source destination' from_ aim'
    cases aim.symm.trans aim'
    refine triple_seq (fresh_through (uses_ask (early_plain _ ⟨fun _ _ => id, rfl⟩))) fresh fun found => ?_
    refine triple_seq (fresh_through uses_orThrow) fresh fun attributes => ?_
    split
    · refine settle (uses_downloadSymlinkRaw early_plain made fun destination'' aim'' =>
        ⟨early_removeFile _, cleared _, fun target => ?_⟩)
      cases aim.symm.trans aim''
      refine ⟨rfl, fun answer place created => ?_⟩
      cases (answer : Except IoError Unit) with
      | ok => exact (Option.some.inj created).symm
      | error e => cases created
    · exact settle (uses_downloadDirectory early_plain made fun destination'' _ => ⟨early_removeFile _, cleared _⟩)
    · exact downloadFile_settled chunkSize source attributes
    · exact downloadFile_settled chunkSize source attributes
  · exact settle trivial

end Download

def of : TransferEndpoint → TransferId → Landing
  | .remote destination, transferId => remote destination transferId
  | .local destination, transferId => «local» destination transferId

theorem of_place (destination : TransferEndpoint) (transferId : TransferId) :
    destination.place = ((of destination transferId).side, (of destination transferId).destination) := by
  cases destination <;> rfl

theorem of_transferId (destination : TransferEndpoint) (transferId : TransferId) :
    (of destination transferId).transferId = transferId := by
  cases destination <;> rfl

theorem transferFile_settled (chunkSize : UInt32) (job : TransferJob) (connectionKey : String) (mayClearDestination : Bool) :
    (of job.destination job.id).Triple (of job.destination job.id).Fresh
      (transferFile chunkSize job connectionKey mayClearDestination)
      (outcome (fun _ => (of job.destination job.id).Settled) (of job.destination job.id).Settled) := by
  have stops : ∀ {p : JobM Unit} {error : UserFacingError}, p = Program.throw error →
      (of job.destination job.id).Triple (of job.destination job.id).Fresh p
        (outcome (fun _ => (of job.destination job.id).Settled) (of job.destination job.id).Settled) := by
    rintro p error rfl
    exact triple_throw fun _ _ h => Or.inl h.balanced
  have invalid : ∀ local_, job.destination = .local local_ → ∃ error, uploadSingleFilePipelined chunkSize job connectionKey =
      Program.throw error := by
    intro local_ aim
    unfold uploadSingleFilePipelined
    cases job.source <;> rw [aim] <;> exact ⟨_, rfl⟩
  have invalid' : ∀ remote_, job.destination = .remote remote_ →
      ∃ error, downloadSingleFilePipelined chunkSize job mayClearDestination = Program.throw error := by
    intro remote_ aim
    unfold downloadSingleFilePipelined
    cases job.source <;> rw [aim] <;> exact ⟨_, rfl⟩
  unfold transferFile
  cases job.direction with
  | upload =>
    cases aim : job.destination with
    | remote destination => exact uploadSingleFilePipelined_settled aim chunkSize connectionKey
    | «local» destination =>
      obtain ⟨error, same⟩ := invalid destination aim
      exact aim ▸ stops same
  | download =>
    cases aim : job.destination with
    | remote destination =>
      obtain ⟨error, same⟩ := invalid' destination aim
      exact aim ▸ stops same
    | «local» destination => exact downloadSingleFilePipelined_settled aim chunkSize mayClearDestination

end Landing

section Leftovers

variable {job : TransferJob} {steps : List JobStep} {w w' : JobWorld}

def probePlace (job : TransferJob) : Side × List Char :=
  ((Landing.of job.destination job.id).side, (Landing.of job.destination job.id).probe)

theorem Landing.Balanced.accounted (h : (Landing.of job.destination job.id).Balanced steps w) : Accounted job steps w := by
  intro s hs side path created other
  rw [Landing.of_place _ job.id] at other
  rcases (h.books s hs).created _ created with same | same | same
  · exact absurd same other
  · cases same
    have settled := h.temporary ⟨s, hs, created⟩
    rwa [Landing.of_transferId] at settled
  · cases same
    exact Or.inl (h.probe.2 ⟨s, hs, created⟩)

theorem Landing.Stuck.not_accounted (h : (Landing.of job.destination job.id).Stuck steps w) : ¬Accounted job steps w := by
  intro accounted
  obtain ⟨earlier, s, later, rfl, created, _⟩ := h.hangs
  have other : probePlace job ≠ job.destination.place := by
    rw [Landing.of_place _ job.id]
    exact fun same => (Landing.of job.destination job.id).probe_ne (Prod.ext_iff.mp same).2
  rcases accounted s (List.mem_append_right _ List.mem_cons_self) _ _ created other with gone | known
  · exact h.there gone
  · obtain ⟨before, r, after, record, cut, emitted, _, named, _⟩ := known
    have temporary := (h.books r (cut ▸ List.mem_append_right _ List.mem_cons_self)).recorded record emitted
    exact Landing.temporary_ne_probe (temporary.symm.trans named)

theorem Landing.Books.clearedGone (h : (Landing.of job.destination job.id).Books steps) :
    ClearedGone job.destination.place.1 steps := by
  intro s hs transferId path emitted
  rw [Landing.of_place _ job.id]
  exact (h s hs).cleared transferId path emitted

theorem leftovers_recorded_iff (chunkSize : UInt32) (job : TransferJob) (connectionKey : String) (mayClearDestination : Bool)
    {w w' : JobWorld} {steps : List JobStep} {result : Except UserFacingError Unit}
    (run : Run (Spares (Auxiliary job.id)) JobOp.Does (transferFile chunkSize job connectionKey mayClearDestination)
      w steps w' result) :
    (Accounted job steps w' ∧ ClearedGone job.destination.place.1 steps) ↔ RemovedAgain (probePlace job) steps := by
  have start : (Landing.of job.destination job.id).Fresh [] w := fun s hs => absurd hs List.not_mem_nil
  have ended := Landing.transferFile_settled chunkSize job connectionKey mayClearDestination [] w steps w' result start
    (by rwa [Landing.of_transferId])
  have settled : (Landing.of job.destination job.id).Settled steps w' := by
    cases result <;> exact ended
  rcases settled with balanced | stuck
  · exact iff_of_true ⟨balanced.accounted, balanced.books.clearedGone⟩ balanced.probe.1
  · exact iff_of_false (fun kept => stuck.not_accounted kept.1) stuck.hangs.not_removedAgain

def refusesProbe : JobOp → Bool
  | .remove path => path.chars = (probePlace (replaceJob .overwriteAll)).2
  | _ => false

theorem leftovers_recorded_iff_sample :
    (Accounted (replaceJob .overwriteAll) (replaceRun .overwriteAll refusesProbe).1
        (replaceRun .overwriteAll refusesProbe).2.1 ∧
      ClearedGone .remote (replaceRun .overwriteAll refusesProbe).1) ↔
      RemovedAgain (probePlace (replaceJob .overwriteAll)) (replaceRun .overwriteAll refusesProbe).1 :=
  leftovers_recorded_iff 0 (replaceJob .overwriteAll) "host:22" false (replaceRun_runs (fun _ _ _ _ => rfl) _ _)

def recordedPath : Option JobEvent → Option (List Char)
  | some (.residualTempCreated record) => some record.path
  | _ => none

/-- The server makes the probe and refuses to remove it. -/
theorem refused_probe_left_over :
    ∃ error, Run (Spares (Auxiliary (replaceJob .overwriteAll).id)) JobOp.Does
        (transferFile 0 (replaceJob .overwriteAll) "host:22" false) ⟨replaceFiles, [], [], none⟩
        (replaceRun .overwriteAll refusesProbe).1 (replaceRun .overwriteAll refusesProbe).2.1 (.error error) ∧
      ¬(Accounted (replaceJob .overwriteAll) (replaceRun .overwriteAll refusesProbe).1
          (replaceRun .overwriteAll refusesProbe).2.1 ∧
        ClearedGone .remote (replaceRun .overwriteAll refusesProbe).1) := by
  refine ⟨_, replaceRun_runs (fun _ _ _ _ => rfl) .overwriteAll refusesProbe, fun kept => ?_⟩
  have created : some (probePlace (replaceJob .overwriteAll)) ∈
      (replaceRun .overwriteAll refusesProbe).1.map JobStep.creates := by decide +kernel
  have there : (replaceRun .overwriteAll refusesProbe).2.1.files .remote (probePlace (replaceJob .overwriteAll)).2 ≠ none := by
    decide +kernel
  have unknown : ∀ emitted ∈ (replaceRun .overwriteAll refusesProbe).1.map JobStep.emits,
      recordedPath emitted ≠ some (probePlace (replaceJob .overwriteAll)).2 := by decide +kernel
  obtain ⟨s, hs, made⟩ := List.mem_map.mp created
  rcases kept.1 s hs _ _ made (by decide) with gone | known
  · exact there gone
  · obtain ⟨earlier, r, later, record, cut, emitted, _, named, _⟩ := known
    refine unknown _ (List.mem_map_of_mem (cut ▸ List.mem_append_right _ List.mem_cons_self)) ?_
    rw [emitted]
    exact congrArg some named

end Leftovers

end MacSftp
