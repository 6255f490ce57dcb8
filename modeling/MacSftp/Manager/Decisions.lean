import MacSftp.Jobs.Frames
import MacSftp.Lib.Protocols
import MacSftp.Lib.Runs

namespace MacSftp

open Lib Program

/-- How far a job has come with what is in the way of its destination. -/
inductive ConflictPhase
  | checking
  | numbered (id : ConflictRequestId)
  | registered (id : ConflictRequestId)
  | prompted (id : ConflictRequestId)
  | decided (id : ConflictRequestId)
  -- the plan's policy has been set, and the waiters of the plan come next
  | spreading
  | settled
  deriving DecidableEq, Repr

def ConflictPhase.request : ConflictPhase → Option ConflictRequestId
  | numbered id | registered id | prompted id | decided id => some id
  | checking | spreading | settled => none

def ConflictPhase.of (job : TransferJob) : ConflictPhase := if job.conflictPolicy = .ask then .checking else .settled

/-- What a job of the plan may ask for. -/
def conflictProtocol (planId : TransferPlanId) : Protocol ConflictPhase JobOp JobOp.Answer where
  may phase op :=
    match op with
    | .nextRequestId => phase = .checking
    | .registerWaiter id plan => phase = .numbered id ∧ plan = planId
    | .emit (.transfer (.conflict prompt)) => phase = .registered prompt.requestId ∧ prompt.planId = planId
    | .decision id => phase = .prompted id
    | .removeWaiter id => phase = .decided id
    | .setPlanPolicy plan policy => phase = .settled ∧ plan = planId ∧ policy ≠ .ask
    | .resolveWaitersForPlan plan _ => phase = .spreading ∧ plan = planId
    | op => op.Looks
  after phase op answer :=
    match op, answer with
    | .nextRequestId, id => .numbered id
    | .registerWaiter id _, _ => .registered id
    | .emit (.transfer (.conflict prompt)), received => bif received then .prompted prompt.requestId else .settled
    | .decision id, _ => .decided id
    | .removeWaiter _, _ => .settled
    | .setPlanPolicy _ (.renameAll _), _ => .settled
    | .setPlanPolicy .., _ => .spreading
    | .resolveWaitersForPlan .., _ => .settled
    | _, _ => phase

/-- A job that is settling its conflict, and what is left of that. The phase is remembered for the statements about it. -/
structure ConflictJob where
  planId : TransferPlanId
  phase : ConflictPhase
  rest : JobM TransferJob

/-- The shared `TransferConflictContext`, what has been sent to the waiters, and the running jobs. -/
structure Conflicts where
  waiters : ConflictRequestId → Option TransferPlanId := fun _ => none
  sent : ConflictRequestId → Option ConflictDecision := fun _ => none
  nextId : Nat := 1
  planPolicies : TransferPlanId → Option ConflictPolicy := fun _ => none
  cancelled : TransferId → Bool := fun _ => false
  running : TransferId → Option ConflictJob := fun _ => none

inductive ConflictMove
  | enqueue (planId : TransferPlanId) (policy : ConflictPolicy)
  | start (job : TransferJob) (planId : TransferPlanId)
  -- the answers are those of the server and of the disk
  | ask (transferId : TransferId) (answers : (op : JobOp) → op.Answer)
  | goOn (transferId : TransferId)
  | resolve (requestId : ConflictRequestId) (decision : ConflictDecision)
  | cancel (transferId : TransferId)

/-- What `select!` takes when the token may have been cancelled too. -/
def raced (cancelled : Bool) (given decision : ConflictDecision) : ConflictDecision :=
  if cancelled = true ∧ given = .cancelJob then .cancelJob else decision

namespace Conflicts

def resolveWaitersForPlan (s : Conflicts) (planId : TransferPlanId) (decision : ConflictDecision) : Conflicts :=
  { s with
    sent := fun id => if s.waiters id = some planId then some decision else s.sent id
    waiters := fun id => if s.waiters id = some planId then none else s.waiters id }

/-- What an operation of a job is answered, if it is not waited for. -/
def serve (s : Conflicts) (transferId : TransferId) : (op : JobOp) → op.Answer → Option (op.Answer × Conflicts)
  | .nextRequestId, _ => some (⟨s.nextId⟩, { s with nextId := s.nextId + 1 })
  | .registerWaiter id planId, _ => some ((), { s with waiters := Function.update s.waiters id (some planId) })
  | .decision id, given =>
    match s.sent id with
    | some decision => some (raced (s.cancelled transferId) given decision, s)
    | none => if s.cancelled transferId then some (.cancelJob, s) else none
  | .removeWaiter id, _ => some ((), { s with waiters := Function.update s.waiters id none })
  | .setPlanPolicy planId policy, _ => some ((), { s with planPolicies := Function.update s.planPolicies planId (some policy) })
  | .resolveWaitersForPlan planId decision, _ => some ((), s.resolveWaitersForPlan planId decision)
  | _, given => some (given, s)

def setJob (s : Conflicts) (transferId : TransferId) (job : Option ConflictJob) : Conflicts :=
  { s with running := Function.update s.running transferId job }

def start (s : Conflicts) (job : TransferJob) (planId : TransferPlanId) : Conflicts :=
  match s.running job.id with
  | some _ => s
  | none =>
    let started := { job with conflictPolicy := (s.planPolicies planId).getD job.conflictPolicy }
    s.setJob job.id (some ⟨planId, .of started, resolveTransferConflict started planId⟩)

def askNext (s : Conflicts) (transferId : TransferId) (answers : (op : JobOp) → op.Answer) :
    Conflicts × Option (TransferPlanId × JobOp) :=
  match s.running transferId with
  | some ⟨planId, phase, .ask op next⟩ =>
    match s.serve transferId op (answers op) with
    | some (answer, s') =>
      (s'.setJob transferId (some ⟨planId, (conflictProtocol planId).after phase op answer, next answer⟩), some (planId, op))
    | none => (s, none)
  | _ => (s, none)

def resolve (s : Conflicts) (requestId : ConflictRequestId) (decision : ConflictDecision) : Conflicts :=
  match s.waiters requestId with
  | some _ =>
    { s with
      waiters := Function.update s.waiters requestId none
      sent := Function.update s.sent requestId (some decision) }
  | none => s

/-- The manager and the jobs, which move one at a time, each up to its next operation. -/
def step (s : Conflicts) : ConflictMove → Conflicts × Option (TransferPlanId × JobOp)
  | .enqueue planId policy =>
    ({ s with planPolicies := Function.update s.planPolicies planId (some ((s.planPolicies planId).getD policy)) }, none)
  | .start job planId => (s.start job planId, none)
  | .ask transferId answers => s.askNext transferId answers
  | .goOn transferId =>
    match s.running transferId with
    | some ⟨_, _, .done _⟩ => (s.setJob transferId none, none)
    | _ => (s, none)
  | .resolve requestId decision => (s.resolve requestId decision, none)
  | .cancel transferId => ({ s with cancelled := Function.update s.cancelled transferId true }, none)

def machine : Machine Conflicts ConflictMove (Option (TransferPlanId × JobOp)) := ⟨step⟩

end Conflicts

section Keeps

variable {planId : TransferPlanId} {phase : ConflictPhase}

theorem looks_idle {op : JobOp} (look : op.Looks) : (conflictProtocol planId).Idle phase op := by
  cases op with
  | stat | lstat | symlinkMetadata => exact ⟨look, fun _ => rfl⟩
  | _ => exact look.elim

theorem keeps_looks {α : Type} {p : JobM α} (uses : Uses JobOp.Looks p) :
    Keeps (conflictProtocol planId) (fun after _ => after = phase) phase p :=
  uses.keeps fun _ look => looks_idle look

theorem keeps_quiet {p : JobM TransferJob} (uses : Uses JobOp.Looks p) :
    Keeps (conflictProtocol planId) (fun _ _ => True) phase p :=
  (keeps_looks uses).mono fun _ _ _ => trivial

theorem keeps_askForDecision (job : TransferJob) : Keeps (conflictProtocol planId)
    (fun after result => ∀ decision, result = .ok decision → after = .settled) .checking (askForDecision job planId) := by
  refine keeps_ask rfl fun id => keeps_ask ⟨rfl, rfl⟩ fun _ => ?_
  refine keeps_bind (keeps_looks (uses_conflictSourceDetails (fun _ look => look) job)) ?_ ?_
  · rintro _ details rfl
    refine keeps_ask ⟨rfl, rfl⟩ fun received => ?_
    cases received with
    | false => exact fun decision never => by cases never
    | true => exact keeps_ask rfl fun decision => keeps_ask rfl fun _ => fun _ _ => rfl
  · exact fun _ _ _ decision never => by cases never

theorem keeps_applyDecision (job : TransferJob) (decision : ConflictDecision) :
    Keeps (conflictProtocol planId) (fun _ _ => True) .settled (applyDecision job planId decision) := by
  cases decision with
  | overwrite applyToAll =>
    cases applyToAll with
    | false => trivial
    | true => exact keeps_ask ⟨rfl, rfl, by simp⟩ fun _ => keeps_ask ⟨rfl, rfl⟩ fun _ => trivial
  | skip applyToAll =>
    cases applyToAll with
    | false => trivial
    | true => exact keeps_ask ⟨rfl, rfl, by simp⟩ fun _ => keeps_ask ⟨rfl, rfl⟩ fun _ => trivial
  | rename newName applyToAll =>
    refine keeps_bind (keeps_looks (uses_renameTo (fun _ look => look) job newName.toList)) ?_ fun _ _ _ => trivial
    rintro _ renamed rfl
    cases applyToAll with
    | false => trivial
    | true => exact keeps_ask ⟨rfl, rfl, by simp⟩ fun _ => trivial
  | cancelJob => trivial

theorem keeps_resolveExisting (job : TransferJob) :
    Keeps (conflictProtocol planId) (fun _ _ => True) (.of job) (resolveExisting job planId) := by
  unfold resolveExisting
  split
  · trivial
  · trivial
  · exact keeps_quiet (uses_renameTo (fun _ look => look) job _)
  · exact keeps_quiet (uses_renameTo (fun _ look => look) job _)
  · rename_i asks
    rw [ConflictPhase.of, if_pos asks]
    refine keeps_bind (keeps_askForDecision job) ?_ fun _ _ _ => trivial
    rintro _ decision ended
    obtain rfl := ended decision rfl
    exact keeps_applyDecision job decision

theorem keeps_resolveTransferConflict (job : TransferJob) :
    Keeps (conflictProtocol planId) (fun _ _ => True) (.of job) (resolveTransferConflict job planId) := by
  unfold resolveTransferConflict
  split
  · trivial
  · refine keeps_bind (keeps_looks (uses_destinationExists (fun _ look => look) job)) ?_ fun _ _ _ => trivial
    rintro _ found rfl
    split
    · refine keeps_bind (keeps_looks (uses_directoriesCanMerge (fun _ look => look) job)) ?_ fun _ _ _ => trivial
      rintro _ merge rfl
      split
      · trivial
      · exact keeps_resolveExisting job
    · trivial

end Keeps

end MacSftp
