import MacSftp.Edit.Correlation
import MacSftp.Transfer.Endings

namespace MacSftp

open Lib EditSessionStore

structure Process where
  transfers : TransferStore
  editSessions : RemoteEditLifecycle

inductive ProcessOp
  | transferEvent (event : TransferEvent) (now : Timestamp) (readLocalFacts : LocalPath → Option LocalFileFacts)
  | markCancelling (transferId : TransferId)
  | removeConflict (requestId : ConflictRequestId)
  | clearTerminal
  | edit (op : EditOp)

def TransferEvent.finished : TransferEvent → Option (TransferId × Bool)
  | completed transferId => some (transferId, true)
  | failed failure => some (failure.transferId, false)
  | _ => none

namespace Process

def advanceEditSessions (p : Process) (event : TransferEvent) (readLocalFacts : LocalPath → Option LocalFileFacts) :
    Process :=
  match event.finished with
  | none => p
  | some (transferId, succeeded) =>
    match p.transfers.findJob transferId with
    | none => p
    | some job =>
      match RemoteEditLifecycle.localEndpoint job.source job.destination with
      | none => p
      | some path =>
        { p with editSessions := (p.editSessions.onTransferFinished
            ⟨job.direction, job.source, job.destination, succeeded⟩ (readLocalFacts path)).1 }

def dispatchTransferEvent (p : Process) (event : TransferEvent) (now : Timestamp)
    (readLocalFacts : LocalPath → Option LocalFileFacts) : Process :=
  { p with transfers := (p.transfers.applyEvent event now).1 }.advanceEditSessions event readLocalFacts

def apply (p : Process) : ProcessOp → Process
  | .transferEvent event now readLocalFacts => p.dispatchTransferEvent event now readLocalFacts
  | .markCancelling transferId => { p with transfers := (p.transfers.markCancelling transferId).1 }
  | .removeConflict requestId => { p with transfers := (p.transfers.removeConflict requestId).1 }
  | .clearTerminal => { p with transfers := p.transfers.clearTerminal.1 }
  | .edit op => { p with editSessions := (p.editSessions.apply op).1 }

def machine : Machine Process ProcessOp Unit := ⟨fun p op => (p.apply op, ())⟩

def new (editsDir : LocalPath) (runId : List Char) : Process := ⟨{}, .new editsDir runId⟩

end Process

/-- What the runtime sends: legal plan events, and jobs that have not ended when they are announced. -/
def ProcessOp.Legal (p : Process) : ProcessOp → Prop
  | .transferEvent event now _ => (StoreOp.applyEvent event now).Legal p.transfers ∧
      ∀ job ∈ event.announced, job.state.isTerminal = false
  | _ => True

instance (p : Process) (op : ProcessOp) : Decidable (op.Legal p) :=
  match op with
  | .transferEvent .. => inferInstanceAs (Decidable (_ ∧ _))
  | .markCancelling _ | .removeConflict _ | .clearTerminal | .edit _ => isTrue trivial

/-- When the event ends a job that an edit session waits for, the session is gone or editable afterwards. -/
def ProcessOp.NoStranded (p : Process) : ProcessOp → Prop
  | .transferEvent event now readLocalFacts =>
    ∀ session ∈ p.editSessions.store.sessions,
      ∀ job ∈ (p.dispatchTransferEvent event now readLocalFacts).transfers.jobs,
        session.awaited = some job.route → job.state.isTerminal = true →
        (∀ old ∈ p.transfers.jobs, old.id = job.id → old.state.isTerminal = false) →
        ∀ session' ∈ (p.dispatchTransferEvent event now readLocalFacts).editSessions.store.sessions,
          session'.id = session.id → session'.phase = .editing
  | _ => True

/-- An event that ends a job some session waits for is a `Completed` or `Failed` event, about a job that the
same session waits for. -/
def ProcessOp.Translated (p : Process) : ProcessOp → Prop
  | .transferEvent event _ _ =>
    ∀ session ∈ p.editSessions.store.sessions, ∀ job ∈ p.transfers.jobs, session.awaited = some job.route →
      job.state.isTerminal = false → p.transfers.Ends event job →
      ∃ ended ∈ p.transfers.jobs, event.finished.map Prod.fst = some ended.id ∧ session.awaited = some ended.route
  | _ => True

instance (p : Process) (op : ProcessOp) : Decidable (op.Translated p) :=
  match op with
  | .transferEvent .. => inferInstanceAs (Decidable (∀ session ∈ p.editSessions.store.sessions, _))
  | .markCancelling _ | .removeConflict _ | .clearTerminal | .edit _ => isTrue trivial

namespace Process

structure Valid (p : Process) : Prop where
  transfers : p.transfers.Valid
  sessions : p.editSessions.store.Valid
  paths : p.editSessions.TempPaths

variable {p : Process}

theorem finished_outcome {event : TransferEvent} {transferId : TransferId} {succeeded : Bool}
    (h : event.finished = some (transferId, succeeded)) :
    event.announces = false ∧ ∃ state, event.outcome = some (transferId, state) := by
  cases event <;> simp only [TransferEvent.finished, reduceCtorEq, Option.some.injEq, Prod.mk.injEq] at h
  all_goals
    obtain ⟨rfl, _⟩ := h
    exact ⟨rfl, _, rfl⟩

theorem finished_route (valid : p.transfers.Valid) {event : TransferEvent} {transferId : TransferId}
    {succeeded : Bool} (h : event.finished = some (transferId, succeeded)) (now : Timestamp) {job : TransferJob} :
    (p.transfers.applyEvent event now).1.findJob transferId = some job →
      ∃ old ∈ p.transfers.jobs, old.id = transferId ∧ old.route = job.route := by
  intro found
  obtain ⟨quiet, state, outcome⟩ := finished_outcome h
  obtain ⟨g, jobs, keep, _⟩ := TransferStore.rewriting_ends valid quiet now
  have asc : Ascending (fun job => job.id) (p.transfers.applyEvent event now).1.jobs := by
    rw [jobs]
    exact valid.jobs.map fun job => (keep job).1
  obtain ⟨hm, he⟩ := (TransferStore.findJob_iff asc).mp found
  rw [jobs] at hm
  obtain ⟨old, ho, rfl⟩ := List.mem_map.mp hm
  exact ⟨old, ho, (keep old).1.symm.trans he, (keep old).2.symm⟩

theorem finished_findJob (valid : p.transfers.Valid) {event : TransferEvent} {transferId : TransferId}
    {succeeded : Bool} (h : event.finished = some (transferId, succeeded)) (now : Timestamp) {old : TransferJob}
    (ho : old ∈ p.transfers.jobs) (he : old.id = transferId) :
    ∃ job, (p.transfers.applyEvent event now).1.findJob transferId = some job ∧ job.route = old.route := by
  obtain ⟨quiet, state, outcome⟩ := finished_outcome h
  obtain ⟨g, jobs, keep, _⟩ := TransferStore.rewriting_ends valid quiet now
  refine ⟨g old, ?_, (keep old).2⟩
  rw [TransferStore.findJob_map valid.jobs (fun job => (keep job).1) jobs,
    (TransferStore.findJob_iff valid.jobs).mpr ⟨ho, he⟩]
  rfl

theorem advance_transfers (p : Process) (event : TransferEvent)
    (readLocalFacts : LocalPath → Option LocalFileFacts) :
    (p.advanceEditSessions event readLocalFacts).transfers = p.transfers := by
  unfold advanceEditSessions
  split
  · rfl
  · split
    · rfl
    · split <;> rfl

theorem noStranded_of_translated (valid : p.Valid) {event : TransferEvent} {now : Timestamp}
    {readLocalFacts : LocalPath → Option LocalFileFacts}
    (open_ : ∀ job ∈ event.announced, job.state.isTerminal = false)
    (translated : (ProcessOp.transferEvent event now readLocalFacts).Translated p) :
    (ProcessOp.transferEvent event now readLocalFacts).NoStranded p := by
  intro session hs job hj awaited terminal before session' hs' he
  rw [dispatchTransferEvent, advance_transfers] at hj
  obtain ⟨old, ho, _, route, running, ends⟩ :=
    TransferStore.newly_ended valid.transfers now open_ hj terminal before
  obtain ⟨ended, hm, hfin, hroute⟩ := translated session hs old ho (route ▸ awaited) running ends
  obtain ⟨⟨transferId, succeeded⟩, finished, hid⟩ := Option.map_eq_some_iff.mp hfin
  obtain ⟨last, found, same⟩ := finished_findJob valid.transfers finished now hm hid.symm
  rw [← same] at hroute
  obtain ⟨path, _⟩ := (RemoteEditLifecycle.awaited_iff (RemoteEditLifecycle.awaited_inTransit hroute)
    last.direction last.source last.destination succeeded).mp hroute
  simp only [dispatchTransferEvent, advanceEditSessions, finished, found, path] at hs'
  exact RemoteEditLifecycle.onTransferFinished_awaited valid.sessions valid.paths hs hroute succeeded _ hs' he

theorem translated_of_noStranded (valid : p.Valid) {event : TransferEvent} {now : Timestamp}
    {readLocalFacts : LocalPath → Option LocalFileFacts}
    (safe : (ProcessOp.transferEvent event now readLocalFacts).NoStranded p) :
    (ProcessOp.transferEvent event now readLocalFacts).Translated p := by
  intro session hs job hj awaited running ends
  by_contra missing
  have transit := RemoteEditLifecycle.awaited_inTransit awaited
  have stays : session ∈ (p.dispatchTransferEvent event now readLocalFacts).editSessions.store.sessions := by
    unfold dispatchTransferEvent advanceEditSessions
    split
    · exact hs
    · rename_i transferId succeeded finished
      split
      · exact hs
      · rename_i last found
        split
        · exact hs
        · apply RemoteEditLifecycle.onTransferFinished_other valid.sessions hs transit
          intro hroute
          obtain ⟨old, ho, hid, same⟩ := finished_route valid.transfers finished now found
          refine missing ⟨old, ho, ?_, ?_⟩
          · rw [finished, hid]
            rfl
          · rw [same]
            exact hroute
  obtain ⟨job', hj', hid, hroute, terminal⟩ := TransferStore.ends_newly valid.transfers now hj running ends
  have editing := safe session hs job' (by rw [dispatchTransferEvent, advance_transfers]; exact hj')
    (hroute ▸ awaited) terminal ?_ session stays rfl
  · simp [EditSession.inTransit, editing] at transit
  · intro old ho he
    have same := key_unique (fun job => job.id) valid.transfers.jobs.nodup ho hj (he.trans hid)
    rw [same]
    exact running

theorem advance_sessions (p : Process) (event : TransferEvent) (readLocalFacts : LocalPath → Option LocalFileFacts) :
    (p.advanceEditSessions event readLocalFacts).editSessions = p.editSessions ∨
      ∃ op, (p.advanceEditSessions event readLocalFacts).editSessions = (p.editSessions.apply op).1 := by
  unfold advanceEditSessions
  split
  · exact Or.inl rfl
  · split
    · exact Or.inl rfl
    · split
      · exact Or.inl rfl
      · exact Or.inr ⟨.onTransferFinished _ _, rfl⟩

theorem apply_valid (valid : p.Valid) {op : ProcessOp} (legal : op.Legal p) : (p.apply op).Valid := by
  cases op with
  | transferEvent event now readLocalFacts =>
    have transfers := TransferStore.applyEvent_valid valid.transfers legal.1
    have kept := advance_transfers { p with transfers := (p.transfers.applyEvent event now).1 } event readLocalFacts
    rcases advance_sessions { p with transfers := (p.transfers.applyEvent event now).1 } event readLocalFacts with
      same | ⟨op, same⟩
    · refine ⟨?_, ?_, ?_⟩
      · exact kept.symm ▸ transfers
      · exact same.symm ▸ valid.sessions
      · exact same.symm ▸ valid.paths
    · refine ⟨?_, ?_, ?_⟩
      · exact kept.symm ▸ transfers
      · exact same.symm ▸ RemoteEditLifecycle.apply_valid valid.sessions op
      · exact same.symm ▸ valid.paths.apply valid.sessions op
  | markCancelling transferId =>
    exact ⟨TransferStore.markCancelling_valid valid.transfers transferId, valid.sessions, valid.paths⟩
  | removeConflict requestId => exact ⟨⟨valid.transfers.jobs, valid.transfers.plans⟩, valid.sessions, valid.paths⟩
  | clearTerminal => exact ⟨TransferStore.clearTerminal_valid valid.transfers, valid.sessions, valid.paths⟩
  | edit op =>
    exact ⟨valid.transfers, RemoteEditLifecycle.apply_valid valid.sessions op, valid.paths.apply valid.sessions op⟩

theorem new_valid (editsDir : LocalPath) (runId : List Char) : (new editsDir runId).Valid :=
  ⟨TransferStore.empty_valid, RemoteEditLifecycle.new_valid editsDir runId, fun _ h => by cases h⟩

theorem no_stranded_session_iff (editsDir : LocalPath) (runId : List Char) (ops : List ProcessOp)
    (legal : machine.Admissible (fun p op => op.Legal p) (new editsDir runId) ops) :
    machine.Admissible (fun p op => op.NoStranded p) (new editsDir runId) ops ↔
      machine.Admissible (fun p op => op.Translated p) (new editsDir runId) ops := by
  apply machine.admissible_congr (I := Valid) _ _ (new_valid editsDir runId) ops legal
  · intro p op legal valid
    exact apply_valid valid legal
  · intro p op legal valid
    cases op with
    | transferEvent event now readLocalFacts =>
      exact ⟨translated_of_noStranded valid, noStranded_of_translated valid legal.2⟩
    | markCancelling | removeConflict | clearTerminal | edit => exact Iff.rfl

def sampleEdit : PendingEdit where
  remotePath := .new "/notes.txt"
  ioPath := .new "/notes.txt"
  size := some 10
  modifiedAt := none
  sessionEpoch := 1
  connectionKey := ⟨"srv", 22, "alex", .ephemeral ⟨1⟩⟩
  tabId := ⟨1⟩
  profileId := ⟨0⟩

def sampleCommand : StartTransferCommand where
  tabId := ⟨1⟩
  sessionEpoch := 1
  profileId := ⟨0⟩
  direction := .download
  sources := [.remote (.new "/notes.txt")]
  destination := .local (.new "/e/r/1/notes.txt")
  metadataPolicy := {}
  conflictPolicy := .overwriteAll

def sampleDownload (last : TransferEvent) : List ProcessOp :=
  let plan := newPlan sampleCommand ⟨1⟩ ⟨1⟩ ⟨0⟩
  .edit (.startDownload sampleEdit) :: ([.planStarted ⟨plan.1, plan.2⟩,
    .planProgress ⟨⟨1⟩, [{ plan.2 with id := ⟨2⟩, state := .queued }], 1, none⟩, .planCompleted ⟨1⟩, last].map
      (.transferEvent · ⟨0⟩ (fun _ => none)))

theorem no_stranded_session_completed :
    machine.Admissible (fun p op => op.NoStranded p) (new (.new "/e") ['r']) (sampleDownload (.completed ⟨2⟩)) :=
  (no_stranded_session_iff (.new "/e") ['r'] (sampleDownload (.completed ⟨2⟩)) (by decide)).mpr (by decide)

theorem plan_cancel_strands_session :
    machine.Admissible (fun p op => op.Legal p) (new (.new "/e") ['r']) (sampleDownload (.planCancelled ⟨1⟩)) ∧
      ((machine.run (new (.new "/e") ['r']) (sampleDownload (.planCancelled ⟨1⟩))).transfers.findJob ⟨2⟩).map
        (fun job => job.state) = some .skipped ∧
      (machine.run (new (.new "/e") ['r']) (sampleDownload (.planCancelled ⟨1⟩))).editSessions.store.sessions.map
        EditSession.phase = [.downloading] ∧
      ¬ machine.Admissible (fun p op => op.NoStranded p) (new (.new "/e") ['r'])
        (sampleDownload (.planCancelled ⟨1⟩)) := by
  refine ⟨by decide, by decide, by decide, ?_⟩
  rintro ⟨_, _, _, _, last, _⟩
  let session := RemoteEditLifecycle.downloadSession sampleEdit ⟨1⟩ (.new "/e/r/1/notes.txt")
  let job := { (newPlan sampleCommand ⟨1⟩ ⟨1⟩ ⟨0⟩).2 with id := ⟨2⟩, state := .skipped }
  have editing := last session (by decide) job (by decide) (by decide) (by decide) (by decide) session (by decide) rfl
  exact absurd editing (by decide)

end Process

end MacSftp
