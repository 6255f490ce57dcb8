import MacSftp.Runtime.Ledger

namespace MacSftp

open Lib

def PlanningStage.isReturned : PlanningStage → Bool
  | planning _ | flushed _ => false
  | _ => true

/-- The task has not looked at its token since the planner was started. -/
def PlanningStage.isUndecided : PlanningStage → Bool
  | planning _ | flushed _ | planned _ => true
  | _ => false

/-- How many steps a cancelled task may still take. -/
def PlanningStage.stepsLeft : PlanningStage → Nat
  | planning _ | flushed _ => 7
  | planned _ => 6
  | connecting _ => 5
  | enqueuing .. => 4
  | enqueued .. => 3
  | ending actions => actions.length

namespace PlanningTask

variable {task : PlanningTask}

theorem afterPlanning_cancelled (cancelled : task.cancel = true) (jobs : Option (List TransferJob)) :
    (task.afterPlanning jobs).stage = .ending task.cancelledActions := by
  cases jobs with
  | none => simp [afterPlanning, cancelled, cancelledActions]
  | some jobs => simp [afterPlanning, cancelled, handoffCancelled]

theorem handoffFailure_cancelled (cancelled : task.cancel = true) (jobs : List TransferJob) (detail : String) :
    (task.handoffFailure jobs detail).stage = .ending task.cancelledActions := by
  simp [handoffFailure, cancelled]

theorem connect_cancelled (cancelled : task.cancel = true) (jobs : List TransferJob) (outcome : ConnectionOutcome) :
    (∃ connection, (task.connect jobs outcome).stage = .enqueuing connection jobs) ∨
      (task.connect jobs outcome).stage = .ending task.cancelledActions := by
  unfold connect
  cases task.hasConnection with
  | false => exact Or.inr (handoffFailure_cancelled cancelled jobs _)
  | true =>
    cases outcome with
    | cancelled => exact Or.inr (by simp [cancelled, handoffCancelled])
    | acquired connection => exact Or.inl ⟨connection, rfl⟩
    | closed => exact Or.inr (handoffFailure_cancelled cancelled jobs _)

theorem afterEnqueue_cancelled (cancelled : task.cancel = true) (jobs : List TransferJob) (accepted : Bool) :
    (task.afterEnqueue jobs accepted).stage = .ending (if accepted then [.cancelPlan] else task.cancelledActions) := by
  cases accepted with
  | false => exact handoffFailure_cancelled cancelled jobs _
  | true => simp [afterEnqueue, cancelled]

end PlanningTask

namespace Runtime

/-- What is certain about a cancelled task: in the end the cancel is reported, or the manager, which
has the jobs, is told. -/
def Bound (past : List (RuntimeOp × List RuntimeOutput)) (managerOpen : Bool) (planId : TransferPlanId) :
    PlanningStage → Prop
  | .enqueued _ accepted => accepted = true → HandedOver past planId
  | .ending actions => Occurs past (.emitted (.planCancelled planId)) ∨ .emit (.planCancelled planId) ∈ actions ∨
      HandedOver past planId ∧ (.cancelPlan ∈ actions ∨ Occurs past (.requested (.cancelPlan planId)) ∨
        managerOpen = false)
  | _ => True

variable {past : List (RuntimeOp × List RuntimeOutput)} {managerOpen : Bool}

theorem Bound.mono {managerOpen' : Bool} {planId : TransferPlanId} {stage : PlanningStage}
    (h : Bound past managerOpen planId stage) (later : List (RuntimeOp × List RuntimeOutput))
    (closes : managerOpen = false → managerOpen' = false) : Bound (past ++ later) managerOpen' planId stage := by
  cases stage with
  | enqueued jobs accepted => exact fun yes => (h yes).append later
  | ending actions =>
    obtain emitted | waiting | ⟨handed, waiting | asked | gone⟩ := h
    · exact Or.inl (occurs_append.mpr (Or.inl emitted))
    · exact Or.inr (Or.inl waiting)
    · exact Or.inr (Or.inr ⟨handed.append later, Or.inl waiting⟩)
    · exact Or.inr (Or.inr ⟨handed.append later, Or.inr (Or.inl (occurs_append.mpr (Or.inl asked)))⟩)
    · exact Or.inr (Or.inr ⟨handed.append later, Or.inr (Or.inr (closes gone))⟩)
  | planning | flushed | planned | connecting | enqueuing => trivial

theorem bound_cancelledActions (task : PlanningTask) :
    Bound past managerOpen task.planId (.ending task.cancelledActions) := Or.inr (Or.inl List.mem_cons_self)

theorem act_bound {task : PlanningTask} {action : PlanningAction} {actions : List PlanningAction}
    (h : Bound past managerOpen task.planId (.ending (action :: actions))) (op : RuntimeOp) {outputs : List RuntimeOutput}
    (out : outputs = (task.act actions action).emits.map .emitted ++
      (if managerOpen then (task.act actions action).sends else []).map .requested) :
    Bound (past ++ [(op, outputs)]) managerOpen task.planId (.ending actions) := by
  obtain emitted | waiting | ⟨handed, waiting | asked | gone⟩ := h
  · exact Or.inl (occurs_append.mpr (Or.inl emitted))
  · obtain rfl | later := List.mem_cons.mp waiting
    · refine Or.inl (occurs_concat.mpr (Or.inr ?_))
      simp [out, PlanningTask.act]
    · exact Or.inr (Or.inl later)
  · refine Or.inr (Or.inr ⟨handed.append _, ?_⟩)
    obtain rfl | later := List.mem_cons.mp waiting
    · cases managerOpen with
      | false => exact Or.inr (Or.inr rfl)
      | true =>
        refine Or.inr (Or.inl (occurs_concat.mpr (Or.inr ?_)))
        simp [out, PlanningTask.act]
    · exact Or.inl later
  · exact Or.inr (Or.inr ⟨handed.append _, Or.inr (Or.inl (occurs_append.mpr (Or.inl asked)))⟩)
  · exact Or.inr (Or.inr ⟨handed.append _, Or.inr (Or.inr gone)⟩)

theorem step_bound {task : PlanningTask} (cancelled : task.cancel = true) (h : Bound past managerOpen task.planId task.stage)
    (nextTransferId : TransferId) (input : PlanningInput) (op : RuntimeOp) {outputs : List RuntimeOutput}
    (out : outputs = (task.step nextTransferId managerOpen input).emits.map .emitted ++
      (if managerOpen then (task.step nextTransferId managerOpen input).sends else []).map .requested) :
    Bound (past ++ [(op, outputs)]) managerOpen task.planId (task.step nextTransferId managerOpen input).stage := by
  revert out
  unfold PlanningTask.step
  split <;> rename_i stage <;> intro out
  · simp only [PlanningTask.emitChild, cancelled, if_true]
    trivial
  · simp only [PlanningTask.finishPlanning, cancelled, if_true]
    trivial
  · trivial
  · trivial
  · simp only [PlanningTask.completePlanning, cancelled, if_true]
    trivial
  · rw [PlanningTask.afterPlanning_cancelled cancelled]
    exact bound_cancelledActions task
  · rename_i jobs outcome
    obtain ⟨connection, next⟩ | next := PlanningTask.connect_cancelled cancelled jobs outcome
    · rw [next]
      trivial
    · rw [next]
      exact bound_cancelledActions task
  · rename_i connection jobs _
    intro isOpen
    refine ⟨connection, jobs, occurs_concat.mpr (Or.inr ?_)⟩
    simp [out, isOpen]
  · rename_i jobs accepted _
    rw [stage] at h
    rw [PlanningTask.afterEnqueue_cancelled cancelled]
    cases accepted with
    | true => exact Or.inr (Or.inr ⟨(h rfl).append _, Or.inl (List.mem_singleton.mpr rfl)⟩)
    | false => exact bound_cancelledActions task
  · rename_i action actions _
    rw [stage] at h
    rw [(task.act_ending actions action).1]
    exact act_bound h op out
  · exact h.mono _ id

theorem step_left {task : PlanningTask} (cancelled : task.cancel = true) (returned : task.stage.isReturned = true)
    (nextTransferId : TransferId) (managerOpen : Bool) (input : PlanningInput) :
    (task.step nextTransferId managerOpen input).stage.isReturned = true ∧
      (task.step nextTransferId managerOpen input).stage.stepsLeft ≤ task.stage.stepsLeft ∧
      ∀ outcome, input = .proceed outcome →
        (task.step nextTransferId managerOpen input).stage.stepsLeft ≤ task.stage.stepsLeft - 1 := by
  have two : task.cancelledActions.length = 2 := rfl
  unfold PlanningTask.step
  split <;> rename_i stage
  · rw [stage] at returned
    cases returned
  · rw [stage] at returned
    cases returned
  · rw [stage] at returned
    cases returned
  · rw [stage] at returned
    cases returned
  · rw [stage] at returned
    cases returned
  · rw [stage, PlanningTask.afterPlanning_cancelled cancelled]
    simp [PlanningStage.isReturned, PlanningStage.stepsLeft, two]
  · rename_i jobs outcome
    rw [stage]
    obtain ⟨connection, next⟩ | next := PlanningTask.connect_cancelled cancelled jobs outcome
    · simp [next, PlanningStage.isReturned, PlanningStage.stepsLeft]
    · simp [next, PlanningStage.isReturned, PlanningStage.stepsLeft, two]
  · rw [stage]
    simp [PlanningStage.isReturned, PlanningStage.stepsLeft]
  · rename_i jobs accepted _
    rw [stage, PlanningTask.afterEnqueue_cancelled cancelled]
    cases accepted <;> simp [PlanningStage.isReturned, PlanningStage.stepsLeft, two]
  · rename_i action actions _
    rw [stage, (task.act_ending actions action).1]
    simp [PlanningStage.isReturned, PlanningStage.stepsLeft]
  · refine ⟨returned, Nat.le_refl _, ?_⟩
    rintro outcome rfl
    cases now : task.stage with
    | planning | flushed =>
      rw [now] at returned
      cases returned
    | ending actions =>
      cases actions with
      | nil => exact Nat.le_refl _
      | cons action actions => simp_all
    | planned | connecting | enqueuing | enqueued => simp_all

theorem step_short {task : PlanningTask} (cancelled : task.cancel = true)
    (short : task.stage.isReturned = true → task.stage.stepsLeft ≤ 6) (nextTransferId : TransferId) (managerOpen : Bool)
    (input : PlanningInput) (returned : (task.step nextTransferId managerOpen input).stage.isReturned = true) :
    (task.step nextTransferId managerOpen input).stage.stepsLeft ≤ 6 := by
  cases back : task.stage.isReturned with
  | true => exact (step_left cancelled back nextTransferId managerOpen input).2.1.trans (short back)
  | false =>
    revert returned
    cases stage : task.stage with
    | planning planner =>
      cases input <;> simp [PlanningTask.step, stage, PlanningTask.emitChild, PlanningTask.finishPlanning,
        PlanningTask.stopped, cancelled, PlanningStage.isReturned, PlanningStage.stepsLeft]
    | flushed planner =>
      cases input <;> simp [PlanningTask.step, stage, PlanningTask.completePlanning, PlanningTask.stopped, cancelled,
        PlanningStage.isReturned, PlanningStage.stepsLeft]
    | planned | connecting | enqueuing | enqueued | ending =>
      rw [stage] at back
      cases back

variable {s : Runtime} {index : Nat} {task : PlanningTask}

theorem next_plan (get : s.planning[index]? = some task) (input : PlanningInput) :
    machine.step s (.plan index input) = s.advance index task (task.step ⟨s.nextTransferId⟩ s.managerOpen input) := by
  show s.plan index input = _
  unfold plan
  rw [get]

theorem next_task_other (get : s.planning[index]? = some task) {op : RuntimeOp}
    (other : ∀ input, op ≠ .plan index input) :
    ∃ cancel, (machine.next s op).planning[index]? = some { task with cancel } ∧ (task.cancel = true → cancel = true) := by
  generalize machine.out s op = outputs, machine.next s op = s', s.next_moves op = moves
  cases moves with
  | stays planning => exact ⟨task.cancel, by rw [planning, get], id⟩
  | starts before same command now hasConnection step =>
    obtain ⟨pendingCommands, rfl⟩ := same
    refine ⟨task.cancel, ?_, id⟩
    rw [step]
    exact (List.getElem?_append_left (List.getElem?_eq_some_iff.mp get).1).trans get
  | cancels transferId _ step =>
    rw [step, List.getElem?_map, get, Option.map_some]
    split
    · exact ⟨true, rfl, fun _ => rfl⟩
    · exact ⟨task.cancel, rfl, id⟩
  | asks request _ step => exact ⟨task.cancel, by rw [step, request_planning, get], id⟩
  | plans i task' input is _ step =>
    have differ : i ≠ index := fun same => other input (same ▸ is)
    exact ⟨task.cancel, by rw [step, advance_planning, List.getElem?_set_ne differ, get], id⟩
  | delivers _ _ _ _ _ step | transfers _ _ step | stops step => exact ⟨task.cancel, by rw [step]; exact get, id⟩

theorem next_managerOpen (op : RuntimeOp) (gone : s.managerOpen = false) : (machine.next s op).managerOpen = false := by
  generalize machine.out s op = outputs, machine.next s op = s', s.next_moves op = moves
  cases moves with
  | stays _ _ _ _ _ isOpen => rw [isOpen, gone]
  | starts before same command now hasConnection step =>
    obtain ⟨pendingCommands, rfl⟩ := same
    rw [step]
    exact gone
  | cancels _ _ step | delivers _ _ _ _ _ step | transfers _ _ step => rw [step]; exact gone
  | asks request _ step => rw [step, request_managerOpen, gone]
  | plans index task input _ _ step => rw [step, advance_managerOpen, gone]
  | stops step => rw [step]; rfl

def Doomed (index : Nat) (planId : TransferPlanId) (past : List (RuntimeOp × List RuntimeOutput)) (s : Runtime) : Prop :=
  ∃ task, s.planning[index]? = some task ∧ task.planId = planId ∧ task.cancel = true ∧
    Bound past s.managerOpen planId task.stage ∧ (task.stage.isReturned = true → task.stage.stepsLeft ≤ 6)

theorem next_doomed {planId : TransferPlanId} (past : List (RuntimeOp × List RuntimeOutput)) (s : Runtime) (op : RuntimeOp)
    (h : Doomed index planId past s) : Doomed index planId (past ++ [(op, machine.out s op)]) (machine.next s op) := by
  obtain ⟨task, get, rfl, cancelled, bound, short⟩ := h
  by_cases own : ∃ input, op = .plan index input
  · obtain ⟨input, rfl⟩ := own
    rw [Machine.next, Machine.out, next_plan get]
    refine ⟨{ task with stage := (task.step ⟨s.nextTransferId⟩ s.managerOpen input).stage }, ?_, rfl, cancelled, ?_, ?_⟩
    · rw [advance_planning, List.getElem?_set_self (List.getElem?_eq_some_iff.mp get).1]
    · rw [advance_managerOpen]
      exact step_bound cancelled bound ⟨s.nextTransferId⟩ input _ (s.advance_outputs index task _)
    · exact step_short cancelled short ⟨s.nextTransferId⟩ s.managerOpen input
  · push Not at own
    obtain ⟨cancel, get', keep⟩ := next_task_other get own
    exact ⟨_, get', rfl, keep cancelled, bound.mono _ (next_managerOpen op), short⟩

theorem step_barred {task : PlanningTask} (cancelled : task.cancel = true)
    (barred : task.stage.isUndecided = true ∨ task.stage.isEnding = true) (nextTransferId : TransferId) (managerOpen : Bool)
    (input : PlanningInput) :
    (task.step nextTransferId managerOpen input).stage.isUndecided = true ∨
      (task.step nextTransferId managerOpen input).stage.isEnding = true := by
  cases stage : task.stage with
  | planning planner =>
    cases input <;> simp [PlanningTask.step, stage, PlanningTask.emitChild, PlanningTask.finishPlanning,
      PlanningTask.stopped, cancelled, PlanningStage.isUndecided]
  | flushed planner =>
    cases input <;> simp [PlanningTask.step, stage, PlanningTask.completePlanning, PlanningTask.stopped, cancelled,
      PlanningStage.isUndecided]
  | planned jobs =>
    cases input with
    | proceed outcome =>
      refine Or.inr ?_
      simp only [PlanningTask.step, stage, PlanningTask.afterPlanning_cancelled cancelled]
      rfl
    | emitChild | finish | abandon => simp [PlanningTask.step, stage, PlanningStage.isUndecided]
  | ending actions => exact Or.inr ((task.step_guard nextTransferId managerOpen input).2 (by rw [stage]; rfl))
  | connecting | enqueuing | enqueued => simp [stage, PlanningStage.isUndecided, PlanningStage.isEnding] at barred

/-- The task is cancelled, and its jobs have not been sent to the manager; nor will they be. -/
def Barred (index : Nat) (planId : TransferPlanId) (past : List (RuntimeOp × List RuntimeOutput)) (s : Runtime) : Prop :=
  ¬ HandedOver past planId ∧ ∃ task, s.planning[index]? = some task ∧ task.planId = planId ∧ task.cancel = true ∧
    (task.stage.isUndecided = true ∨ task.stage.isEnding = true)

theorem next_barred {planId : TransferPlanId} (past : List (RuntimeOp × List RuntimeOutput)) (s : Runtime) (op : RuntimeOp)
    (h : Planned s ∧ Barred index planId past s) :
    Planned (machine.next s op) ∧ Barred index planId (past ++ [(op, machine.out s op)]) (machine.next s op) := by
  obtain ⟨planned, kept, task, get, rfl, cancelled, barred⟩ := h
  refine ⟨next_planned s op planned, ?_, ?_⟩
  · intro handed
    obtain old | ⟨_, _, new⟩ := handedOver_concat handed
    · exact kept old
    · obtain ⟨_, sender, there, id, stage, _⟩ := requested_enqueue op new
      obtain rfl := key_unique (fun task => task.planId) planned.plans (List.mem_of_getElem? there)
        (List.mem_of_getElem? get) id
      simp [stage, PlanningStage.isUndecided, PlanningStage.isEnding] at barred
  · by_cases own : ∃ input, op = .plan index input
    · obtain ⟨input, rfl⟩ := own
      rw [Machine.next, next_plan get]
      refine ⟨{ task with stage := (task.step ⟨s.nextTransferId⟩ s.managerOpen input).stage }, ?_, rfl, cancelled, ?_⟩
      · rw [advance_planning, List.getElem?_set_self (List.getElem?_eq_some_iff.mp get).1]
      · exact step_barred cancelled barred ⟨s.nextTransferId⟩ s.managerOpen input
    · push Not at own
      obtain ⟨cancel, get', keep⟩ := next_task_other get own
      exact ⟨_, get', rfl, keep cancelled, barred⟩

def Within (index steps : Nat) (s : Runtime) : Prop :=
  ∃ task, s.planning[index]? = some task ∧ task.cancel = true ∧ task.stage.isReturned = true ∧
    task.stage.stepsLeft ≤ steps

def advances (index : Nat) : RuntimeOp → Bool
  | .plan task (.proceed _) => task = index
  | _ => false

theorem next_within {steps : Nat} (op : RuntimeOp) (h : Within index steps s) :
    Within index (if advances index op then steps - 1 else steps) (machine.next s op) := by
  obtain ⟨task, get, cancelled, returned, left⟩ := h
  by_cases own : ∃ input, op = .plan index input
  · obtain ⟨input, rfl⟩ := own
    rw [Machine.next, next_plan get]
    obtain ⟨returned', keeps, drops⟩ := step_left cancelled returned ⟨s.nextTransferId⟩ s.managerOpen input
    refine ⟨{ task with stage := (task.step ⟨s.nextTransferId⟩ s.managerOpen input).stage }, ?_, cancelled, returned', ?_⟩
    · rw [advance_planning, List.getElem?_set_self (List.getElem?_eq_some_iff.mp get).1]
    · cases input with
      | proceed outcome =>
        have less := drops outcome rfl
        simp only [advances, decide_true, if_true]
        omega
      | emitChild | finish | abandon => exact keeps.trans left
  · push Not at own
    have other : advances index op = false := by
      cases op with
      | plan i input =>
        cases input with
        | proceed outcome =>
          have differ : i ≠ index := by
            rintro rfl
            exact own _ rfl
          simp [advances, differ]
        | emitChild | finish | abandon => rfl
      | startTransfer | restartTransfer | cancelTransfer | retryTransfer | deliver | transfer | stopManager => rfl
    obtain ⟨cancel, get', keep⟩ := next_task_other get own
    rw [other]
    exact ⟨_, get', keep cancelled, returned, left⟩

theorem run_within {steps : Nat} (h : Within index steps s) (ops : List RuntimeOp) :
    Within index (steps - ops.countP (advances index)) (machine.run s ops) := by
  induction ops generalizing s steps with
  | nil => exact h
  | cons op ops ih =>
    have rest := ih (next_within op h)
    rw [Machine.run_cons, List.countP_cons]
    cases moved : advances index op with
    | true =>
      simp only [moved, if_true] at rest ⊢
      rwa [Nat.add_comm, Nat.sub_add_eq]
    | false => simpa [moved] using rest

def EndedAt (s : Runtime) (index : Nat) : Prop := ∃ task, s.planning[index]? = some task ∧ task.stage = .ending []

theorem Within.ended (h : Within index 0 s) : s.EndedAt index := by
  obtain ⟨task, get, _, returned, left⟩ := h
  refine ⟨task, get, ?_⟩
  cases stage : task.stage with
  | ending actions =>
    rw [stage] at left
    rw [List.eq_nil_of_length_eq_zero (Nat.le_zero.mp left)]
  | planning | flushed | planned | connecting | enqueuing | enqueued =>
    rw [stage] at left
    cases left

/-- No job of the plan is on its way to the manager, and what the manager has of the plan is among the ids. -/
structure Sealed (planId : TransferPlanId) (ids : TransferId → Prop) (s : Runtime) : Prop where
  planned : Planned s
  closed : s.Closed planId
  quiet : ∀ connection jobs, .enqueue connection planId jobs ∉ s.requests
  home : TransferManager.Homed (fun plan transferId => plan = planId → ids transferId)
    (fun plan transferId => plan = planId → ids transferId) s.transfers.manager s.transfers.tasks

theorem next_sealed {planId : TransferPlanId} {ids : TransferId → Prop} (op : RuntimeOp) (h : Sealed planId ids s) :
    Sealed planId ids (machine.next s op) ∧
      ∀ task : TransferTask, .started task ∈ machine.out s op → task.planId = planId → ids task.job.id := by
  have starts : ∀ task : TransferTask, .started task ∈ machine.out s op → task.planId = planId → ids task.job.id :=
    fun task started => started_homed h.home started
  refine ⟨⟨next_planned s op h.planned, next_closed op h.closed, ?_, ?_⟩, starts⟩
  · intro connection jobs member
    obtain old | ⟨_, task, there, id, notEnding⟩ := next_enqueue op member
    · exact h.quiet connection jobs old
    · rw [h.closed.not_enqueuing h.planned there id] at notEnding
      cases notEnding
  · refine next_homed op h.home (fun _ _ own => own) starts ?_
    rintro connection plan jobs member job inside rfl
    exact absurd member (h.quiet connection jobs)

theorem sealed_starts {planId : TransferPlanId} {ids : TransferId → Prop} (h : Sealed planId ids s)
    (ops : List RuntimeOp) {transferId : TransferId} (started : StartedBy (machine.log s ops) planId transferId) :
    ids transferId := by
  have invariant := machine.log_invariant
    (I := fun past s => Sealed planId ids s ∧ ∀ transferId, StartedBy past planId transferId → ids transferId) ?_
    ⟨h, ?_⟩ ops
  · exact invariant.2 transferId started
  · rintro past s op ⟨sealed, known⟩
    obtain ⟨sealed', starts⟩ := next_sealed op sealed
    refine ⟨sealed', fun transferId started => ?_⟩
    obtain old | ⟨task, new, plan, rfl⟩ := startedBy_concat started
    · exact known transferId old
    · exact starts task new plan
  · rintro transferId ⟨task, ⟨entry, member, _⟩, _⟩
    cases member

theorem next_outbox {event : TransferEvent} (phase : s.transfers.phase = .busy [event]) (op : RuntimeOp) :
    .emitted event ∈ machine.out s op ∨ (machine.next s op).transfers.phase = .busy [event] := by
  generalize machine.out s op = outputs, machine.next s op = s', s.next_moves op = moves
  cases moves with
  | stays _ _ _ _ _ _ transfers => exact Or.inr (by rw [transfers, phase])
  | starts before same command now hasConnection step =>
    obtain ⟨pendingCommands, rfl⟩ := same
    rw [step]
    exact Or.inr phase
  | cancels _ _ step | stops step =>
    rw [step]
    exact Or.inr phase
  | asks request _ step => exact Or.inr (by rw [step, request_transfers, phase])
  | plans index task input _ _ step => exact Or.inr (by rw [step, advance_transfers, phase])
  | delivers request requests connected _ ready =>
    rw [phase] at ready
    cases ready
  | transfers op' _ step out =>
    rw [step, out]
    refine (TransferSystem.next_outbox s.transfers phase op').imp (fun sent => ?_) id
    exact List.mem_map.mpr ⟨_, sent, rfl⟩

theorem run_outbox {event : TransferEvent} (phase : s.transfers.phase = .busy [event]) (ops : List RuntimeOp) :
    Occurs (machine.log s ops) (.emitted event) ∨ (machine.run s ops).transfers.phase = .busy [event] := by
  induction ops generalizing s with
  | nil => exact Or.inr phase
  | cons op ops ih =>
    obtain sent | still := next_outbox phase op
    · exact Or.inl (occurs_cons.mpr (Or.inl sent))
    · exact (ih still).imp (fun later => occurs_cons.mpr (Or.inr later)) id

theorem step_deliver {planId : TransferPlanId} {requests : List TransferManagerRequest}
    (head : s.requests = .cancelPlan planId :: requests) (isOpen : s.managerOpen = true)
    (ready : s.transfers.phase = .ready) (connected : Option ConnectionId) :
    machine.step s (.deliver connected) = ({ s with
      requests
      transfers := { s.transfers with
        manager := (s.transfers.manager.cancelPlan planId).1
        phase := .busy (s.transfers.manager.cancelPlan planId).2 } }, [.handled (.cancelPlan planId)]) := by
  show s.deliver connected = _
  simp [deliver, head, isOpen, ready, TransferManagerRequest.resolve, TransferSystem.receive,
    TransferManager.handleRequest]

theorem deliver_seals {past : List (RuntimeOp × List RuntimeOutput)} {planId : TransferPlanId}
    {requests : List TransferManagerRequest} (valid : Planned s ∧ Orderly s) (accounted : Accounted past s)
    (head : s.requests = .cancelPlan planId :: requests) (isOpen : s.managerOpen = true)
    (ready : s.transfers.phase = .ready) (connected : Option ConnectionId) :
    Sealed planId (StartedBy past planId) (machine.next s (.deliver connected)) := by
  have closed : s.Closed planId := valid.2.closed planId (by rw [head]; exact List.mem_cons_self)
  refine ⟨next_planned s _ valid.1, next_closed _ closed, ?_, ?_⟩
  · have order := valid.2.order
    rw [head] at order
    rw [Machine.next, step_deliver head isOpen ready]
    intro connection jobs member
    exact (List.pairwise_cons.mp order).1 _ member planId rfl connection jobs rfl
  · rw [Machine.next, step_deliver head isOpen ready]
    refine ⟨?_, ?_, ?_⟩
    · rintro queued member rfl
      rw [TransferManager.cancelPlan_pending, List.mem_filter] at member
      simp at member
    · rintro task member rfl
      exact accounted.ran.tasks task member
    · rw [TransferManager.cancelPlan_routes]
      rintro transferId route found rfl
      exact accounted.ran.routes transferId route found

theorem cancelled_task (known : s.planning[index]? = some task) (guarded : task.rootJob.id ∈ s.planningCancellations)
    (reported : Option TransferPlanId) :
    (machine.next s (.cancelTransfer task.rootJob.id reported)).planning[index]? = some { task with cancel := true } := by
  show (s.cancelTransfer task.rootJob.id reported).1.planning[index]? = _
  unfold cancelTransfer
  rw [if_pos guarded, List.getElem?_map, known, Option.map_some, if_pos rfl]

theorem cancel_dooms (planned : Planned s) (accounted : Accounted past s) (known : s.planning[index]? = some task)
    (guarded : task.rootJob.id ∈ s.planningCancellations) (reported : Option TransferPlanId) :
    Doomed index task.planId (past ++ [(.cancelTransfer task.rootJob.id reported,
      machine.out s (.cancelTransfer task.rootJob.id reported))])
      (machine.next s (.cancelTransfer task.rootJob.id reported)) := by
  have member := List.mem_of_getElem? known
  have held := (planned.guards task member).mp guarded
  have accepted := accounted.accepted task member
  refine ⟨{ task with cancel := true }, cancelled_task known guarded reported, rfl, rfl, ?_, ?_⟩
  · cases stage : task.stage with
    | enqueued jobs yes =>
      rintro rfl
      exact (accepted jobs stage).append _
    | ending actions =>
      rw [stage] at held
      cases held
    | planning | flushed | planned | connecting | enqueuing => trivial
  · cases stage : task.stage with
    | ending actions =>
      rw [stage] at held
      cases held
    | planning | flushed | planned | connecting | enqueuing | enqueued => simp [PlanningStage.isReturned, PlanningStage.stepsLeft]

theorem doomed_after (before after : List RuntimeOp) (known : (machine.run {} before).planning[index]? = some task)
    (guarded : task.rootJob.id ∈ (machine.run {} before).planningCancellations) (reported : Option TransferPlanId) :
    Doomed index task.planId (machine.log {} (before ++ .cancelTransfer task.rootJob.id reported :: after))
      (machine.run {} (before ++ .cancelTransfer task.rootJob.id reported :: after)) := by
  have start := cancel_dooms (reachable_orderly before).1 (accounted before) known guarded reported
  rw [← Machine.log_concat, ← Machine.run_concat] at start
  rw [List.append_cons]
  exact machine.log_invariant_append next_doomed start after

theorem Doomed.unsent {planId : TransferPlanId} (h : Doomed index planId past s) (accounted : Accounted past s)
    (kept : ¬ HandedOver past planId) : (∀ transferId, ¬ StartedBy past planId transferId) ∧
      (s.EndedAt index → Occurs past (.emitted (.planCancelled planId))) := by
  obtain ⟨task, get, plan, cancelled, bound, short⟩ := h
  refine ⟨fun transferId started => kept (accounted.started _ transferId started), ?_⟩
  rintro ⟨last, get', ended⟩
  rw [get] at get'
  cases get'
  rw [ended] at bound
  obtain emitted | waiting | ⟨handed, _⟩ := bound
  · exact emitted
  · cases waiting
  · exact absurd handed kept

theorem barred_after (before after : List RuntimeOp) (known : (machine.run {} before).planning[index]? = some task)
    (guarded : task.rootJob.id ∈ (machine.run {} before).planningCancellations) (undecided : task.stage.isUndecided = true)
    (reported : Option TransferPlanId) :
    ¬ HandedOver (machine.log {} (before ++ .cancelTransfer task.rootJob.id reported :: after)) task.planId := by
  have planned := (reachable_orderly before).1
  have early : task.stage.isEarly = true := by
    cases stage : task.stage <;> simp_all [PlanningStage.isUndecided, PlanningStage.isEarly]
  have unsent := (reachable_sentByOwn before).late task (List.mem_of_getElem? known) early
  have silent : machine.out (machine.run {} before) (.cancelTransfer task.rootJob.id reported) = [] := by
    show ((machine.run {} before).cancelTransfer task.rootJob.id reported).2 = []
    unfold cancelTransfer
    rw [if_pos guarded]
  have start : Planned (machine.run {} (before ++ [.cancelTransfer task.rootJob.id reported])) ∧
      Barred index task.planId (machine.log {} (before ++ [.cancelTransfer task.rootJob.id reported]))
        (machine.run {} (before ++ [.cancelTransfer task.rootJob.id reported])) := by
    rw [Machine.run_concat, Machine.log_concat, silent]
    refine ⟨next_planned _ _ planned, fun handed => ?_, _, cancelled_task known guarded reported, rfl, rfl, Or.inl undecided⟩
    obtain old | ⟨_, _, new⟩ := handedOver_concat handed
    · exact unsent old
    · cases new
  rw [List.append_cons]
  exact (machine.log_invariant_append next_barred start after).2.1

/-- A cancel of the plan's root that finds the planning guard is not lost. While the planner runs or its result has not been
looked at, the cancel wins: nothing is handed over. Later, if the jobs are not handed over, none is ever started and the
cancel is reported when the planning task ends. If they are, the manager is told; once it handles that, nothing of the plan
starts any more that had not been started, and the cancel is reported unless no job was left to stop. The last part says
that the planning task does end. -/
theorem root_cancel_not_lost (before after : List RuntimeOp) (index : Nat) (task : PlanningTask)
    (known : (machine.run {} before).planning[index]? = some task)
    (guarded : task.rootJob.id ∈ (machine.run {} before).planningCancellations) (reported : Option TransferPlanId)
    (ops : List RuntimeOp) (run : ops = before ++ .cancelTransfer task.rootJob.id reported :: after) :
    (task.stage.isUndecided = true → ¬ HandedOver (machine.log {} ops) task.planId ∧
      (∀ transferId, ¬ StartedBy (machine.log {} ops) task.planId transferId) ∧
        ((machine.run {} ops).EndedAt index → Occurs (machine.log {} ops) (.emitted (.planCancelled task.planId)))) ∧
    (¬ HandedOver (machine.log {} ops) task.planId →
      (∀ transferId, ¬ StartedBy (machine.log {} ops) task.planId transferId) ∧
        ((machine.run {} ops).EndedAt index → Occurs (machine.log {} ops) (.emitted (.planCancelled task.planId)))) ∧
    ((machine.run {} ops).EndedAt index → (machine.run {} ops).managerOpen = true →
      Occurs (machine.log {} ops) (.emitted (.planCancelled task.planId)) ∨
        Occurs (machine.log {} ops) (.requested (.cancelPlan task.planId))) ∧
    (∀ requests, (machine.run {} ops).requests = .cancelPlan task.planId :: requests →
      (machine.run {} ops).managerOpen = true → (machine.run {} ops).transfers.phase = .ready →
      ∀ connected later,
        ((machine.run {} ops).transfers.manager.interrupted task.planId ≠ [] →
          Occurs (machine.log (machine.run {} ops) (.deliver connected :: later)) (.emitted (.planCancelled task.planId)) ∨
            (machine.run (machine.run {} ops) (.deliver connected :: later)).transfers.phase =
              .busy [.planCancelled task.planId]) ∧
        ∀ transferId, StartedBy (machine.log (machine.run {} ops) (.deliver connected :: later)) task.planId transferId →
          StartedBy (machine.log {} ops) task.planId transferId) ∧
    ((∃ now, (machine.run {} ops).planning[index]? = some now ∧ now.stage.isReturned = true) →
      ∀ later, 6 ≤ later.countP (advances index) → (machine.run {} (ops ++ later)).EndedAt index) := by
  subst run
  have doomed := doomed_after before after known guarded reported
  have barred := fun undecided => barred_after before after known guarded undecided reported
  generalize before ++ .cancelTransfer task.rootJob.id reported :: after = ops at doomed barred ⊢
  have past := accounted ops
  refine ⟨fun undecided => ⟨barred undecided, doomed.unsent past (barred undecided)⟩, doomed.unsent past, ?_⟩
  obtain ⟨now, get, plan, cancelled, bound, short⟩ := doomed
  refine ⟨?_, ?_, ?_⟩
  · rintro ⟨last, get', ended⟩ isOpen
    rw [get] at get'
    cases get'
    rw [ended] at bound
    obtain emitted | waiting | ⟨_, waiting | asked | gone⟩ := bound
    · exact Or.inl emitted
    · cases waiting
    · cases waiting
    · exact Or.inr asked
    · rw [gone] at isOpen
      cases isOpen
  · intro requests head isOpen ready connected later
    constructor
    · intro interrupts
      have phase : (machine.next (machine.run {} ops) (.deliver connected)).transfers.phase =
          .busy [.planCancelled task.planId] := by
        rw [Machine.next, step_deliver head isOpen ready, TransferManager.cancelPlan_events _ interrupts]
      exact (run_outbox phase later).imp (fun sent => occurs_cons.mpr (Or.inr sent)) id
    · rintro transferId ⟨begun, there, is⟩
      have closes := deliver_seals (reachable_orderly ops) past head isOpen ready connected
      obtain first | rest := occurs_cons.mp there
      · rw [Machine.out, step_deliver head isOpen ready] at first
        cases List.mem_singleton.mp first
      · exact sealed_starts closes later ⟨begun, rest, is⟩
  · rintro ⟨now', get', returned⟩ later enough
    rw [get] at get'
    cases get'
    have within := run_within ⟨now, get, cancelled, returned, short returned⟩ later
    rw [Nat.sub_eq_zero_of_le enough] at within
    rw [Machine.run_append]
    exact within.ended

def uploadCommand : StartTransferCommand where
  tabId := ⟨1⟩
  sessionEpoch := 1
  profileId := ⟨0⟩
  direction := .upload
  sources := [.local (.new "/notes.txt")]
  destination := .remote (.new "/srv/notes.txt")
  metadataPolicy := {}
  conflictPolicy := .ask

/-- One file is planned, and the planning task has the connection for it. -/
def beforeEnqueue : List RuntimeOp :=
  [.startTransfer uploadCommand ⟨0⟩ true,
    .plan 0 (.emitChild (.local (.new "/notes.txt")) (.remote (.new "/srv/notes.txt")) (some 10)), .plan 0 .finish,
    .plan 0 .finish, .plan 0 (.proceed .closed), .plan 0 (.proceed (.acquired ⟨1⟩))]

def cancelRoot : RuntimeOp := .cancelTransfer ⟨1⟩ (some ⟨1⟩)

def plannedUpload : PlanningTask where
  command := uploadCommand
  planId := ⟨1⟩
  rootJob := (newPlan uploadCommand ⟨1⟩ ⟨1⟩ ⟨0⟩).2
  hasConnection := true
  stage := .planned (some [{ (newPlan uploadCommand ⟨1⟩ ⟨1⟩ ⟨0⟩).2 with id := ⟨2⟩, state := .queued }])

def cancelWhilePlanned : List RuntimeOp :=
  beforeEnqueue.take 4 ++ cancelRoot :: List.replicate 3 (.plan 0 (.proceed .closed))

theorem root_cancel_not_lost_planned :
    Occurs (machine.log {} cancelWhilePlanned) (.emitted (.planCancelled ⟨1⟩)) ∧
      ∀ transferId, ¬ StartedBy (machine.log {} cancelWhilePlanned) ⟨1⟩ transferId := by
  have spec := root_cancel_not_lost (beforeEnqueue.take 4) (List.replicate 3 (.plan 0 (.proceed .closed))) 0 plannedUpload
    (by decide +kernel) (by decide +kernel) (some ⟨1⟩) cancelWhilePlanned rfl
  obtain ⟨_, nothing, told⟩ := spec.1 rfl
  exact ⟨told ⟨{ plannedUpload with cancel := true, stage := .ending [] }, by decide +kernel, rfl⟩, nothing⟩

/-- The cancel comes while the enqueue is on its way; the job is over when the manager is told. -/
def handoffRace : List RuntimeOp :=
  beforeEnqueue ++ cancelRoot :: [.plan 0 (.proceed .closed), .deliver none, .transfer .startNext, .transfer .startNext,
    .transfer (.report 0 .finished), .transfer (.release 0), .transfer (.complete 0), .transfer .startNext,
    .plan 0 (.proceed .closed), .plan 0 (.proceed .closed), .deliver none, .transfer .startNext]

theorem handoff_cancel_comes_late :
    (⟨1⟩ : TransferId) ∈ (machine.run {} beforeEnqueue).planningCancellations ∧
      (machine.run {} beforeEnqueue).transfers.tasks = [] ∧
      (∃ task ∈ (machine.run {} (handoffRace.take 10)).transfers.tasks, task.planId = ⟨1⟩ ∧ task.job.id = ⟨2⟩) ∧
      Occurs (machine.log {} handoffRace) (.handled (.cancelPlan ⟨1⟩)) ∧
      (machine.run {} handoffRace).requests = [] ∧ (machine.run {} handoffRace).transfers.phase = .ready ∧
      (machine.run {} handoffRace).transfers.tasks = [] ∧
      ¬ Occurs (machine.log {} handoffRace) (.emitted (.planCancelled ⟨1⟩)) := by
  refine ⟨?_, ?_, ?_, ?_, ?_, ?_, ?_, ?_⟩ <;> decide +kernel

end Runtime

end MacSftp
