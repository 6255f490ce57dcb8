import MacSftp.Lib.Keyed
import MacSftp.Runtime.Planning

namespace MacSftp

open Lib

def PlanningStage.isEarly : PlanningStage → Bool
  | enqueued .. | ending _ => false
  | _ => true

theorem PlanningStage.not_ending_of_early {stage : PlanningStage} (early : stage.isEarly = true) :
    stage.isEnding = false := by
  cases stage <;> first | rfl | cases early

structure PlanningStep.Early (step : PlanningStep) : Prop where
  keepsGuard : step.takesGuard = false
  early : step.stage.isEarly = true
  silent : step.sends = []

structure PlanningStep.Final (step : PlanningStep) : Prop where
  takesGuard : step.takesGuard = true
  ending : step.stage.isEnding = true
  silent : step.sends = []

namespace PlanningTask

variable (task : PlanningTask)

theorem stopped_early : task.stopped.Early := ⟨rfl, rfl, rfl⟩

theorem emitChild_early (planner : Planner) (id : TransferId) (source destination : TransferEndpoint)
    (size : Option Nat) : (task.emitChild planner id source destination size).Early := by
  unfold emitChild
  split
  · exact task.stopped_early
  · exact ⟨rfl, rfl, rfl⟩

theorem finishPlanning_early (planner : Planner) : (task.finishPlanning planner).Early := by
  unfold finishPlanning
  split
  · exact task.stopped_early
  · exact ⟨rfl, rfl, rfl⟩

theorem completePlanning_early (planner : Planner) : (task.completePlanning planner).Early := by
  unfold completePlanning
  split
  · exact task.stopped_early
  · exact ⟨rfl, rfl, rfl⟩

theorem afterPlanning_cases (jobs : Option (List TransferJob)) :
    (task.afterPlanning jobs).Early ∨ (task.afterPlanning jobs).Final := by
  cases jobs with
  | none => exact Or.inr ⟨rfl, rfl, rfl⟩
  | some jobs =>
    unfold afterPlanning
    dsimp only
    split
    · exact Or.inr ⟨rfl, rfl, rfl⟩
    · exact Or.inl ⟨rfl, rfl, rfl⟩

theorem handoffFailure_final (jobs : List TransferJob) (detail : String) : (task.handoffFailure jobs detail).Final :=
  ⟨rfl, rfl, rfl⟩

theorem connect_cases (jobs : List TransferJob) (outcome : ConnectionOutcome) :
    (task.connect jobs outcome).Early ∨ (task.connect jobs outcome).Final := by
  unfold connect
  split
  · cases outcome with
    | cancelled =>
      dsimp only
      split
      · exact Or.inr ⟨rfl, rfl, rfl⟩
      · exact Or.inl ⟨rfl, rfl, rfl⟩
    | acquired connection => exact Or.inl ⟨rfl, rfl, rfl⟩
    | closed => exact Or.inr (task.handoffFailure_final jobs _)
  · exact Or.inr (task.handoffFailure_final jobs _)

theorem afterEnqueue_final (jobs : List TransferJob) (accepted : Bool) : (task.afterEnqueue jobs accepted).Final := by
  unfold afterEnqueue
  split
  · exact ⟨rfl, rfl, rfl⟩
  · exact task.handoffFailure_final jobs _

variable (nextTransferId : TransferId) (managerOpen : Bool) (input : PlanningInput)

theorem step_cases :
    task.stage.isEnding = false ∧ ((task.step nextTransferId managerOpen input).Early ∨
      (task.step nextTransferId managerOpen input).Final) ∨
    (∃ connection jobs, task.stage = .enqueuing connection jobs ∧ task.step nextTransferId managerOpen input =
      { stage := .enqueued jobs managerOpen, sends := [.enqueue connection task.planId jobs] }) ∨
    (∃ action actions, task.stage = .ending (action :: actions) ∧
      task.step nextTransferId managerOpen input = task.act actions action) ∨
    task.step nextTransferId managerOpen input = { stage := task.stage } := by
  unfold step
  split <;> rename_i stage
  · exact Or.inl ⟨by rw [stage]; rfl, Or.inl (task.emitChild_early _ _ _ _ _)⟩
  · exact Or.inl ⟨by rw [stage]; rfl, Or.inl (task.finishPlanning_early _)⟩
  · exact Or.inl ⟨by rw [stage]; rfl, Or.inl ⟨rfl, rfl, rfl⟩⟩
  · exact Or.inl ⟨by rw [stage]; rfl, Or.inl ⟨rfl, rfl, rfl⟩⟩
  · exact Or.inl ⟨by rw [stage]; rfl, Or.inl (task.completePlanning_early _)⟩
  · exact Or.inl ⟨by rw [stage]; rfl, task.afterPlanning_cases _⟩
  · exact Or.inl ⟨by rw [stage]; rfl, task.connect_cases _ _⟩
  · exact Or.inr (Or.inl ⟨_, _, stage, rfl⟩)
  · exact Or.inl ⟨by rw [stage]; rfl, Or.inr (task.afterEnqueue_final _ _)⟩
  · exact Or.inr (Or.inr (Or.inl ⟨_, _, stage, rfl⟩))
  · exact Or.inr (Or.inr (Or.inr rfl))

theorem act_ending (actions : List PlanningAction) (action : PlanningAction) :
    (task.act actions action).stage = .ending actions ∧ (task.act actions action).takesGuard = false := by
  cases action <;> exact ⟨rfl, rfl⟩

theorem step_guard :
    (task.step nextTransferId managerOpen input).takesGuard =
      (!task.stage.isEnding && (task.step nextTransferId managerOpen input).stage.isEnding) ∧
    (task.stage.isEnding = true → (task.step nextTransferId managerOpen input).stage.isEnding = true) := by
  obtain ⟨notEnding, early | final⟩ | ⟨_, _, stage, step⟩ | ⟨action, actions, stage, step⟩ | step :=
    task.step_cases nextTransferId managerOpen input
  · simp [early.keepsGuard, PlanningStage.not_ending_of_early early.early, notEnding]
  · simp [final.takesGuard, final.ending, notEnding]
  · simp [step, stage, PlanningStage.isEnding]
  · obtain ⟨same, keeps⟩ := task.act_ending actions action
    simp [step, stage, same, keeps, PlanningStage.isEnding]
  · simp [step]

theorem step_sends :
    (task.step nextTransferId managerOpen input).sends = [] ∨
    (∃ connection jobs, task.stage = .enqueuing connection jobs ∧
      (task.step nextTransferId managerOpen input).sends = [.enqueue connection task.planId jobs]) ∨
    task.stage.isEnding = true ∧ ((task.step nextTransferId managerOpen input).sends = [.forgetPlan task.planId] ∨
      (task.step nextTransferId managerOpen input).sends = [.cancelPlan task.planId]) := by
  obtain ⟨_, early | final⟩ | ⟨connection, jobs, stage, step⟩ | ⟨action, actions, stage, step⟩ | step :=
    task.step_cases nextTransferId managerOpen input
  · exact Or.inl early.silent
  · exact Or.inl final.silent
  · exact Or.inr (Or.inl ⟨connection, jobs, stage, by rw [step]⟩)
  · rw [step, stage]
    cases action with
    | emit event => exact Or.inl rfl
    | forgetPlan => exact Or.inr (Or.inr ⟨rfl, Or.inl rfl⟩)
    | cancelPlan => exact Or.inr (Or.inr ⟨rfl, Or.inr rfl⟩)
  · exact Or.inl (by rw [step])

theorem step_early (early : (task.step nextTransferId managerOpen input).stage.isEarly = true) :
    task.stage.isEarly = true := by
  cases stage : task.stage with
  | planning | flushed | planned | connecting | enqueuing => rfl
  | enqueued jobs accepted =>
    revert early
    cases input <;> cases accepted <;> simp [step, stage, afterEnqueue, handoffFailure, PlanningStage.isEarly]
  | ending actions =>
    have stays := (task.step_guard nextTransferId managerOpen input).2 (by rw [stage]; rfl)
    rw [PlanningStage.not_ending_of_early early] at stays
    cases stays

theorem step_accepted {jobs : List TransferJob} (h : (task.step nextTransferId managerOpen input).stage = .enqueued jobs true) :
    task.stage = .enqueued jobs true ∨ managerOpen = true ∧ ∃ connection,
      (task.step nextTransferId managerOpen input).sends = [.enqueue connection task.planId jobs] := by
  obtain ⟨_, early | final⟩ | ⟨connection, _, _, step⟩ | ⟨action, actions, _, step⟩ | step :=
    task.step_cases nextTransferId managerOpen input
  · have early := early.early
    rw [h] at early
    cases early
  · have ending := final.ending
    rw [h] at ending
    cases ending
  · rw [step] at h ⊢
    cases h
    exact Or.inr ⟨rfl, connection, rfl⟩
  · rw [step, (task.act_ending actions action).1] at h
    cases h
  · rw [step] at h
    exact Or.inl h

end PlanningTask

namespace Runtime

section Fields

variable (s : Runtime) (index : Nat) (task : PlanningTask) (step : PlanningStep) (requests : List TransferManagerRequest)

@[simp] theorem request_planning : (s.request requests).1.planning = s.planning := by unfold request; split <;> rfl

@[simp] theorem request_guards : (s.request requests).1.planningCancellations = s.planningCancellations := by
  unfold request; split <;> rfl

@[simp] theorem request_nextPlanId : (s.request requests).1.nextPlanId = s.nextPlanId := by unfold request; split <;> rfl

@[simp] theorem request_nextTransferId : (s.request requests).1.nextTransferId = s.nextTransferId := by
  unfold request; split <;> rfl

@[simp] theorem request_managerOpen : (s.request requests).1.managerOpen = s.managerOpen := by
  unfold request; split <;> rfl

@[simp] theorem request_transfers : (s.request requests).1.transfers = s.transfers := by unfold request; split <;> rfl

theorem request_requests :
    (s.request requests).1.requests = s.requests ++ if s.managerOpen then requests else [] := by
  unfold request
  split <;> simp

theorem request_outputs : (s.request requests).2 = (if s.managerOpen then requests else []).map .requested := by
  unfold request
  split <;> simp

@[simp] theorem advance_planning : (s.advance index task step).1.planning =
    s.planning.set index { task with stage := step.stage } := by simp [advance]

@[simp] theorem advance_guards : (s.advance index task step).1.planningCancellations =
    if step.takesGuard then s.planningCancellations.erase task.rootJob.id else s.planningCancellations := by
  simp [advance]

@[simp] theorem advance_nextPlanId : (s.advance index task step).1.nextPlanId = s.nextPlanId := by simp [advance]

theorem advance_nextTransferId : s.nextTransferId ≤ (s.advance index task step).1.nextTransferId := by
  simp only [advance, request_nextTransferId]
  split <;> omega

@[simp] theorem advance_managerOpen : (s.advance index task step).1.managerOpen = s.managerOpen := by simp [advance]

@[simp] theorem advance_transfers : (s.advance index task step).1.transfers = s.transfers := by simp [advance]

theorem advance_requests : (s.advance index task step).1.requests =
    s.requests ++ if s.managerOpen then step.sends else [] := by
  simp only [advance, request_requests]

theorem advance_outputs : (s.advance index task step).2 =
    step.emits.map .emitted ++ (if s.managerOpen then step.sends else []).map .requested := by
  simp only [advance, request_outputs]

end Fields

def Plain : TransferManagerRequest → Prop
  | .cancel .. | .retry .. => True
  | _ => False

inductive Moves (s : Runtime) (op : RuntimeOp) (s' : Runtime) (outputs : List RuntimeOutput) : Prop
  | stays (planning : s'.planning = s.planning) (guards : s'.planningCancellations = s.planningCancellations)
      (plans : s'.nextPlanId = s.nextPlanId) (ids : s'.nextTransferId = s.nextTransferId)
      (requests : s'.requests = s.requests) (isOpen : s'.managerOpen = s.managerOpen)
      (transfers : s'.transfers = s.transfers) (none_ : outputs = [])
  | starts (before : Runtime) (same : ∃ pendingCommands, before = { s with pendingCommands })
      (command : StartTransferCommand) (now : Timestamp) (hasConnection : Bool)
      (step : s' = (before.startTransfer command now hasConnection).1)
      (out : outputs = (before.startTransfer command now hasConnection).2)
  | cancels (transferId : TransferId) (held : transferId ∈ s.planningCancellations)
      (step : s' = { s with planning := s.planning.map (fun task =>
        if task.rootJob.id = transferId then { task with cancel := true } else task) }) (none_ : outputs = [])
  | asks (request : TransferManagerRequest) (plain : Plain request) (step : s' = (s.request [request]).1)
      (out : outputs = (s.request [request]).2)
  | plans (index : Nat) (task : PlanningTask) (input : PlanningInput) (is : op = .plan index input)
      (get : s.planning[index]? = some task)
      (step : s' = (s.advance index task (task.step ⟨s.nextTransferId⟩ s.managerOpen input)).1)
      (out : outputs = (s.advance index task (task.step ⟨s.nextTransferId⟩ s.managerOpen input)).2)
  | delivers (request : TransferManagerRequest) (requests : List TransferManagerRequest)
      (connected : Option ConnectionId) (head : s.requests = request :: requests) (ready : s.transfers.phase = .ready)
      (step : s' = { s with requests, transfers := s.transfers.receive (request.resolve connected) })
      (out : outputs = [.handled request])
  | transfers (op : TransferOp) (other : ∀ request, op ≠ .receive request)
      (step : s' = { s with transfers := TransferSystem.machine.next s.transfers op })
      (out : outputs = (TransferSystem.machine.out s.transfers op).map TransferOutput.toRuntime)
  | stops (step : s' = s.stopManager) (none_ : outputs = [])

variable {s : Runtime}

theorem moves_refl (op : RuntimeOp) : Moves s op s [] := .stays rfl rfl rfl rfl rfl rfl rfl rfl

theorem next_moves (s : Runtime) (op : RuntimeOp) : Moves s op (machine.next s op) (machine.out s op) := by
  cases op with
  | startTransfer command now hasConnection => exact .starts s ⟨_, rfl⟩ command now hasConnection rfl rfl
  | restartTransfer now hasConnection =>
    show Moves s _ (s.restartTransfer now hasConnection).1 (s.restartTransfer now hasConnection).2
    unfold restartTransfer
    split
    · exact moves_refl _
    · rename_i command pendingCommands _
      exact .starts { s with pendingCommands } ⟨_, rfl⟩ command now hasConnection rfl rfl
  | cancelTransfer transferId planId =>
    show Moves s _ (s.cancelTransfer transferId planId).1 (s.cancelTransfer transferId planId).2
    unfold cancelTransfer
    split
    · rename_i held
      exact .cancels transferId held rfl rfl
    · exact .asks (.cancel transferId planId) trivial rfl rfl
  | retryTransfer transferId =>
    show Moves s _ (s.retryTransfer transferId).1 (s.retryTransfer transferId).2
    unfold retryTransfer
    split
    · exact .stays rfl rfl rfl rfl rfl rfl rfl rfl
    · exact .asks (.retry transferId none) trivial rfl rfl
  | plan index input =>
    show Moves s _ (s.plan index input).1 (s.plan index input).2
    unfold plan
    split
    · exact moves_refl _
    · rename_i task get
      exact .plans index task input rfl get rfl rfl
  | deliver connected =>
    show Moves s _ (s.deliver connected).1 (s.deliver connected).2
    unfold deliver
    split
    · exact moves_refl _
    · rename_i request requests head
      split
      · rename_i able
        exact .delivers request requests connected head able.2 rfl rfl
      · exact moves_refl _
  | transfer op =>
    show Moves s _ (s.transfer op).1 (s.transfer op).2
    unfold transfer
    split
    · rename_i runs
      refine .transfers op ?_ rfl rfl
      rintro request rfl
      cases runs
    · exact moves_refl _
  | stopManager => exact .stops rfl rfl

end Runtime

end MacSftp
