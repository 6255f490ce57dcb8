import MacSftp.Manager.Homes
import MacSftp.Runtime.Steps

namespace MacSftp

open Lib

namespace Runtime

theorem nodup_concat_of_bound {κ : Type} (raw : κ → Nat) {ids : List κ} (nodup : ids.Nodup) {id : κ}
    (bound : ∀ old ∈ ids, raw old < raw id) : (ids ++ [id]).Nodup := by
  refine List.nodup_append.mpr ⟨nodup, List.nodup_singleton _, ?_⟩
  intro old member new isNew same
  cases List.mem_singleton.mp isNew
  exact absurd (same ▸ bound old member) (Nat.lt_irrefl _)

theorem map_set_stage {α : Type} (f : PlanningTask → α) (keep : ∀ task stage, f { task with stage } = f task)
    {planning : List PlanningTask} {index : Nat} {task : PlanningTask} (get : planning[index]? = some task)
    (stage : PlanningStage) : (planning.set index { task with stage }).map f = planning.map f := by
  obtain ⟨hlt, rfl⟩ := List.getElem?_eq_some_iff.mp get
  rw [List.map_set, keep, ← List.getElem_map f (h := by simpa using hlt), List.set_getElem_self]

theorem map_map_cancel {α : Type} (f : PlanningTask → α) (keep : ∀ task cancel, f { task with cancel } = f task)
    (planning : List PlanningTask) (transferId : TransferId) :
    (planning.map (fun task => if task.rootJob.id = transferId then { task with cancel := true } else task)).map f =
      planning.map f := by
  rw [List.map_map]
  apply List.map_congr_left
  intro task _
  rw [Function.comp_apply]
  split
  · exact keep task true
  · rfl

/-- The planning tasks have ids of their own, and a task holds its guard until its end. -/
structure Planned (s : Runtime) : Prop where
  plans : (s.planning.map (fun task => task.planId)).Nodup
  planBound : ∀ planId ∈ s.planning.map (fun task => task.planId), planId.raw < s.nextPlanId
  roots : (s.planning.map (fun task => task.rootJob.id)).Nodup
  rootBound : ∀ root ∈ s.planning.map (fun task => task.rootJob.id), root.raw < s.nextTransferId
  guards : ∀ task ∈ s.planning, task.rootJob.id ∈ s.planningCancellations ↔ task.stage.isEnding = false

variable {s : Runtime}

namespace Planned

theorem congr {s' : Runtime} (h : Planned s) (planning : s'.planning = s.planning)
    (guards : s'.planningCancellations = s.planningCancellations) (plans : s'.nextPlanId = s.nextPlanId)
    (ids : s'.nextTransferId = s.nextTransferId) : Planned s' := by
  obtain ⟨a, b, c, d, e⟩ := h
  constructor <;> simpa only [planning, guards, plans, ids]

theorem startTransfer (h : Planned s) (command : StartTransferCommand) (now : Timestamp) (hasConnection : Bool) :
    Planned (s.startTransfer command now hasConnection).1 where
  plans := by
    simp only [Runtime.startTransfer, List.map_append]
    exact nodup_concat_of_bound TransferPlanId.raw h.plans h.planBound
  planBound planId member := by
    simp only [Runtime.startTransfer, List.map_append, List.map_cons, List.map_nil, List.mem_append,
      List.mem_singleton] at member ⊢
    obtain old | rfl := member
    · exact Nat.lt_succ_of_lt (h.planBound planId old)
    · exact Nat.lt_succ_self _
  roots := by
    simp only [Runtime.startTransfer, List.map_append]
    exact nodup_concat_of_bound TransferId.raw h.roots h.rootBound
  rootBound root member := by
    simp only [Runtime.startTransfer, List.map_append, List.map_cons, List.map_nil, List.mem_append,
      List.mem_singleton] at member ⊢
    obtain old | rfl := member
    · exact Nat.lt_succ_of_lt (h.rootBound root old)
    · exact Nat.lt_succ_self _
  guards task member := by
    simp only [Runtime.startTransfer, List.mem_append, List.mem_singleton, Finset.mem_insert] at member ⊢
    obtain old | rfl := member
    · have bound := h.rootBound task.rootJob.id (List.mem_map_of_mem old)
      have differ : task.rootJob.id ≠ ⟨s.nextTransferId⟩ := fun same => absurd (same ▸ bound) (Nat.lt_irrefl _)
      simpa [differ] using h.guards task old
    · simp [newPlan, PlanningStage.isEnding]

theorem cancels (h : Planned s) (transferId : TransferId) :
    Planned { s with planning := s.planning.map (fun task =>
      if task.rootJob.id = transferId then { task with cancel := true } else task) } := by
  have plans := map_map_cancel (fun task => task.planId) (fun _ _ => rfl) s.planning transferId
  have roots := map_map_cancel (fun task => task.rootJob.id) (fun _ _ => rfl) s.planning transferId
  refine ⟨plans ▸ h.plans, plans ▸ h.planBound, roots ▸ h.roots, roots ▸ h.rootBound, ?_⟩
  intro task member
  obtain ⟨old, there, rfl⟩ := List.mem_map.mp member
  have same := h.guards old there
  split
  · exact same
  · exact same

theorem advance (h : Planned s) {index : Nat} {task : PlanningTask} (get : s.planning[index]? = some task)
    (managerOpen : Bool) (input : PlanningInput) :
    Planned (s.advance index task (task.step ⟨s.nextTransferId⟩ managerOpen input)).1 := by
  have more := s.advance_nextTransferId index task (task.step ⟨s.nextTransferId⟩ managerOpen input)
  have plans := map_set_stage (fun task => task.planId) (fun _ _ => rfl) get
  have roots := map_set_stage (fun task => task.rootJob.id) (fun _ _ => rfl) get
  obtain ⟨takes, stays⟩ := task.step_guard ⟨s.nextTransferId⟩ managerOpen input
  constructor
  · rw [advance_planning, plans]
    exact h.plans
  · rw [advance_planning, plans, advance_nextPlanId]
    exact h.planBound
  · rw [advance_planning, roots]
    exact h.roots
  · rw [advance_planning, roots]
    exact fun root member => Nat.lt_of_lt_of_le (h.rootBound root member) more
  · rw [advance_planning, advance_guards]
    intro other member
    have held := h.guards task (List.mem_of_getElem? get)
    obtain ⟨i, there⟩ := List.mem_iff_getElem?.mp member
    by_cases same : index = i
    · subst same
      rw [List.getElem?_set_self (List.getElem?_eq_some_iff.mp get).1] at there
      cases there
      show task.rootJob.id ∈ _ ↔ _
      rw [takes]
      cases ending : task.stage.isEnding with
      | true => simpa [ending, stays ending] using held
      | false =>
        cases ended : (task.step ⟨s.nextTransferId⟩ managerOpen input).stage.isEnding with
        | true => simp
        | false => simpa [ending] using held
    · rw [List.getElem?_set_ne same] at there
      have kept := h.guards other (List.mem_of_getElem? there)
      have apart : other.rootJob.id ≠ task.rootJob.id :=
        fun equal => same (key_index_unique (fun task => task.rootJob.id) h.roots get there equal.symm)
      split
      · rw [Finset.mem_erase, ← kept]
        exact and_iff_right apart
      · exact kept

end Planned

theorem next_planned (s : Runtime) (op : RuntimeOp) (h : Planned s) : Planned (machine.next s op) := by
  generalize machine.out s op = outputs, machine.next s op = s', s.next_moves op = moves
  cases moves with
  | stays planning guards plans ids => exact h.congr planning guards plans ids
  | starts before same command now hasConnection step =>
    obtain ⟨pendingCommands, rfl⟩ := same
    rw [step]
    have h' : Planned { s with pendingCommands } := h.congr rfl rfl rfl rfl
    exact h'.startTransfer command now hasConnection
  | cancels transferId _ step =>
    rw [step]
    exact h.cancels transferId
  | asks request _ step =>
    rw [step]
    exact h.congr (by simp) (by simp) (by simp) (by simp)
  | plans index task input _ get step =>
    rw [step]
    exact h.advance get s.managerOpen input
  | delivers request requests connected _ _ step =>
    rw [step]
    exact h.congr rfl rfl rfl rfl
  | transfers op _ step =>
    rw [step]
    exact h.congr rfl rfl rfl rfl
  | stops step =>
    rw [step]
    exact h.congr rfl rfl rfl rfl

def Closed (s : Runtime) (planId : TransferPlanId) : Prop :=
  ∃ task ∈ s.planning, task.planId = planId ∧ task.stage.isEnding = true

theorem Closed.congr {s' : Runtime} {planId : TransferPlanId} (h : s.Closed planId) (planning : s'.planning = s.planning) :
    s'.Closed planId := by
  unfold Closed
  rw [planning]
  exact h

theorem Closed.advance {planId : TransferPlanId} (h : s.Closed planId) {index : Nat} {task : PlanningTask}
    (get : s.planning[index]? = some task) (managerOpen : Bool) (input : PlanningInput) :
    (s.advance index task (task.step ⟨s.nextTransferId⟩ managerOpen input)).1.Closed planId := by
  obtain ⟨other, member, rfl, ending⟩ := h
  obtain ⟨i, there⟩ := List.mem_iff_getElem?.mp member
  have hlt := (List.getElem?_eq_some_iff.mp get).1
  unfold Closed
  rw [advance_planning]
  by_cases same : index = i
  · subst same
    rw [get] at there
    cases there
    exact ⟨_, List.mem_set hlt _, rfl, (task.step_guard _ managerOpen input).2 ending⟩
  · refine ⟨other, List.mem_of_getElem? (i := i) ?_, rfl, ending⟩
    rw [List.getElem?_set_ne same]
    exact there

theorem next_closed {planId : TransferPlanId} (op : RuntimeOp) (h : s.Closed planId) :
    (machine.next s op).Closed planId := by
  generalize machine.out s op = outputs, machine.next s op = s', s.next_moves op = moves
  cases moves with
  | stays planning => exact h.congr planning
  | starts before same command now hasConnection step =>
    obtain ⟨pendingCommands, rfl⟩ := same
    obtain ⟨task, member, is⟩ := h
    rw [step]
    exact ⟨task, List.mem_append_left _ member, is⟩
  | cancels transferId _ step =>
    obtain ⟨task, member, id, ending⟩ := h
    rw [step]
    refine ⟨_, List.mem_map_of_mem member, ?_⟩
    split <;> exact ⟨id, ending⟩
  | asks request _ step =>
    rw [step]
    exact h.congr (by simp)
  | plans index task input _ get step =>
    rw [step]
    exact h.advance get s.managerOpen input
  | delivers request requests connected _ _ step =>
    rw [step]
    exact h.congr rfl
  | transfers op _ step =>
    rw [step]
    exact h.congr rfl
  | stops step =>
    rw [step]
    exact h.congr rfl

theorem Closed.not_enqueuing {planId : TransferPlanId} (h : s.Closed planId) (planned : Planned s) {task : PlanningTask}
    (member : task ∈ s.planning) (id : task.planId = planId) : task.stage.isEnding = true := by
  obtain ⟨other, there, is, ending⟩ := h
  rw [key_unique (fun task => task.planId) planned.plans member there (id.trans is.symm)]
  exact ending

/-- A plan is not enqueued any more once its cancel is on its way to the manager. -/
structure Orderly (s : Runtime) : Prop where
  closed : ∀ planId, .cancelPlan planId ∈ s.requests → s.Closed planId
  order : s.requests.Pairwise (fun first later =>
    ∀ planId, first = .cancelPlan planId → ∀ connection jobs, later ≠ .enqueue connection planId jobs)

theorem Orderly.push {s' : Runtime} (h : Orderly s) (keep : ∀ planId, s.Closed planId → s'.Closed planId)
    {request : TransferManagerRequest} (requests : s'.requests = s.requests ++ [request])
    (cancel : ∀ planId, request = .cancelPlan planId → s'.Closed planId)
    (enqueue : ∀ connection planId jobs, request = .enqueue connection planId jobs → ¬ s.Closed planId) : Orderly s' where
  closed planId member := by
    rw [requests] at member
    obtain old | new := List.mem_append.mp member
    · exact keep planId (h.closed planId old)
    · exact cancel planId (List.mem_singleton.mp new).symm
  order := by
    rw [requests]
    refine List.pairwise_append.mpr ⟨h.order, List.pairwise_singleton _ _, ?_⟩
    rintro first member later isLater planId rfl connection jobs rfl
    exact enqueue connection planId jobs (List.mem_singleton.mp isLater).symm (h.closed planId member)

theorem Orderly.keep {s' : Runtime} (h : Orderly s) (keep : ∀ planId, s.Closed planId → s'.Closed planId)
    (requests : List.Sublist s'.requests s.requests) : Orderly s' where
  closed planId member := keep planId (h.closed planId (requests.subset member))
  order := h.order.sublist requests

theorem Orderly.pushes {s' : Runtime} (h : Orderly s) (keep : ∀ planId, s.Closed planId → s'.Closed planId)
    {managerOpen : Bool} {request : TransferManagerRequest}
    (requests : s'.requests = s.requests ++ if managerOpen then [request] else [])
    (cancel : ∀ planId, request = .cancelPlan planId → s'.Closed planId)
    (enqueue : ∀ connection planId jobs, request = .enqueue connection planId jobs → ¬ s.Closed planId) : Orderly s' := by
  cases managerOpen with
  | true => exact h.push keep requests cancel enqueue
  | false => exact h.keep keep (by rw [requests]; simp)

theorem next_orderly (s : Runtime) (op : RuntimeOp) (h : Planned s ∧ Orderly s) :
    Planned (machine.next s op) ∧ Orderly (machine.next s op) := by
  refine ⟨next_planned s op h.1, ?_⟩
  obtain ⟨planned, orderly⟩ := h
  have keep : ∀ planId, s.Closed planId → (machine.next s op).Closed planId := fun planId => next_closed op
  revert keep
  generalize machine.out s op = outputs, machine.next s op = s', s.next_moves op = moves
  intro keep
  cases moves with
  | stays _ _ _ _ requests => exact orderly.keep keep (by rw [requests])
  | starts before same command now hasConnection step =>
    obtain ⟨pendingCommands, rfl⟩ := same
    apply orderly.keep keep
    rw [step]
    exact List.Sublist.refl _
  | cancels transferId _ step =>
    apply orderly.keep keep
    rw [step]
  | asks request plain step =>
    have requests := s.request_requests [request]
    rw [← step] at requests
    apply orderly.pushes keep requests
    · rintro planId rfl
      cases plain
    · rintro connection planId jobs rfl
      cases plain
  | plans index task input _ get step =>
    have requests := s.advance_requests index task (task.step ⟨s.nextTransferId⟩ s.managerOpen input)
    rw [← step] at requests
    have member := List.mem_of_getElem? get
    obtain none_ | ⟨connection, jobs, stage, sends⟩ | ⟨ending, sends | sends⟩ :=
      task.step_sends ⟨s.nextTransferId⟩ s.managerOpen input
    · rw [none_] at requests
      exact orderly.keep keep (by rw [requests]; simp)
    · rw [sends] at requests
      refine orderly.pushes keep requests (by simp) ?_
      rintro _ planId _ ⟨⟩ closed
      have ending := closed.not_enqueuing planned member rfl
      rw [stage] at ending
      cases ending
    · rw [sends] at requests
      exact orderly.pushes keep requests (by simp) (by simp)
    · rw [sends] at requests
      refine orderly.pushes keep requests ?_ (by simp)
      rintro planId ⟨⟩
      exact keep _ ⟨task, member, rfl, ending⟩
  | delivers request requests connected head _ step =>
    apply orderly.keep keep
    rw [step, head]
    exact List.sublist_cons_self _ _
  | transfers op _ step =>
    apply orderly.keep keep
    rw [step]
  | stops step =>
    apply orderly.keep keep
    rw [step]
    exact List.Sublist.refl _

theorem reachable_orderly (ops : List RuntimeOp) : Planned (machine.run {} ops) ∧ Orderly (machine.run {} ops) := by
  refine machine.run_invariant next_orderly ⟨?_, ?_⟩ ops <;> constructor <;> simp

def Occurs (log : List (RuntimeOp × List RuntimeOutput)) (output : RuntimeOutput) : Prop :=
  ∃ entry ∈ log, output ∈ entry.2

instance (log : List (RuntimeOp × List RuntimeOutput)) (output : RuntimeOutput) : Decidable (Occurs log output) :=
  inferInstanceAs (Decidable (∃ entry ∈ log, output ∈ entry.2))

def HandedOver (log : List (RuntimeOp × List RuntimeOutput)) (planId : TransferPlanId) : Prop :=
  ∃ connection jobs, Occurs log (.requested (.enqueue connection planId jobs))

def StartedBy (log : List (RuntimeOp × List RuntimeOutput)) (planId : TransferPlanId) (transferId : TransferId) : Prop :=
  ∃ task : TransferTask, Occurs log (.started task) ∧ task.planId = planId ∧ task.job.id = transferId

section Log

variable {past later : List (RuntimeOp × List RuntimeOutput)} {op : RuntimeOp} {outputs : List RuntimeOutput}

theorem occurs_append {output : RuntimeOutput} :
    Occurs (past ++ later) output ↔ Occurs past output ∨ Occurs later output := by
  simp only [Occurs, List.mem_append, or_and_right, exists_or]

theorem occurs_cons {entry : RuntimeOp × List RuntimeOutput} {output : RuntimeOutput} :
    Occurs (entry :: past) output ↔ output ∈ entry.2 ∨ Occurs past output := by
  simp [Occurs]

theorem occurs_concat {output : RuntimeOutput} :
    Occurs (past ++ [(op, outputs)]) output ↔ Occurs past output ∨ output ∈ outputs := by
  rw [occurs_append]
  simp [Occurs]

theorem HandedOver.append {planId : TransferPlanId} (h : HandedOver past planId)
    (later : List (RuntimeOp × List RuntimeOutput)) : HandedOver (past ++ later) planId := by
  obtain ⟨connection, jobs, there⟩ := h
  exact ⟨connection, jobs, occurs_append.mpr (Or.inl there)⟩

theorem handedOver_concat {planId : TransferPlanId} (h : HandedOver (past ++ [(op, outputs)]) planId) :
    HandedOver past planId ∨ ∃ connection jobs, .requested (.enqueue connection planId jobs) ∈ outputs := by
  obtain ⟨connection, jobs, there⟩ := h
  obtain old | new := occurs_concat.mp there
  · exact Or.inl ⟨connection, jobs, old⟩
  · exact Or.inr ⟨connection, jobs, new⟩

theorem StartedBy.append {planId : TransferPlanId} {transferId : TransferId} (h : StartedBy past planId transferId)
    (later : List (RuntimeOp × List RuntimeOutput)) : StartedBy (past ++ later) planId transferId := by
  obtain ⟨task, there, is⟩ := h
  exact ⟨task, occurs_append.mpr (Or.inl there), is⟩

theorem startedBy_concat {planId : TransferPlanId} {transferId : TransferId}
    (h : StartedBy (past ++ [(op, outputs)]) planId transferId) : StartedBy past planId transferId ∨
      ∃ task : TransferTask, .started task ∈ outputs ∧ task.planId = planId ∧ task.job.id = transferId := by
  obtain ⟨task, there, is⟩ := h
  obtain old | new := occurs_concat.mp there
  · exact Or.inl ⟨task, old, is⟩
  · exact Or.inr ⟨task, new, is⟩

end Log

/-- What a run has done so far: only plans that were handed over have jobs at the manager, and only
jobs that were started run or can be retried. -/
structure Accounted (past : List (RuntimeOp × List RuntimeOutput)) (s : Runtime) : Prop where
  queued : ∀ connection planId jobs, .enqueue connection planId jobs ∈ s.requests → HandedOver past planId
  handed : TransferManager.Homed (fun planId _ => HandedOver past planId) (fun planId _ => HandedOver past planId)
    s.transfers.manager s.transfers.tasks
  ran : TransferManager.Homed (fun _ _ => True) (StartedBy past) s.transfers.manager s.transfers.tasks
  started : ∀ planId transferId, StartedBy past planId transferId → HandedOver past planId
  accepted : ∀ task ∈ s.planning, ∀ jobs, task.stage = .enqueued jobs true → HandedOver past task.planId

theorem next_enqueue {connection : ConnectionId} {planId : TransferPlanId} {jobs : List TransferJob} (op : RuntimeOp)
    (member : .enqueue connection planId jobs ∈ (machine.next s op).requests) :
    .enqueue connection planId jobs ∈ s.requests ∨
      .requested (.enqueue connection planId jobs) ∈ machine.out s op ∧
        ∃ task ∈ s.planning, task.planId = planId ∧ task.stage.isEnding = false := by
  revert member
  generalize machine.out s op = outputs, machine.next s op = s', s.next_moves op = moves
  intro member
  cases moves with
  | stays _ _ _ _ requests => exact Or.inl (requests ▸ member)
  | starts before same command now hasConnection step =>
    obtain ⟨pendingCommands, rfl⟩ := same
    rw [step] at member
    exact Or.inl member
  | cancels _ _ step | transfers _ _ step | stops step =>
    rw [step] at member
    exact Or.inl member
  | asks request plain step =>
    rw [step, request_requests] at member
    refine (List.mem_append.mp member).imp id (fun new => ?_)
    split at new
    · cases List.mem_singleton.mp new
      cases plain
    · cases new
  | plans index task input _ get step out =>
    rw [step, advance_requests] at member
    refine (List.mem_append.mp member).imp id (fun new => ⟨?_, task, List.mem_of_getElem? get, ?_⟩)
    · rw [out, advance_outputs]
      exact List.mem_append_right _ (List.mem_map_of_mem new)
    · split at new
      · obtain none_ | ⟨_, _, stage, sends⟩ | ⟨_, sends | sends⟩ := task.step_sends ⟨s.nextTransferId⟩ s.managerOpen input
        · rw [none_] at new
          cases new
        · rw [sends] at new
          cases List.mem_singleton.mp new
          exact ⟨rfl, by rw [stage]; rfl⟩
        · rw [sends] at new
          cases List.mem_singleton.mp new
        · rw [sends] at new
          cases List.mem_singleton.mp new
      · cases new
  | delivers request requests connected head _ step =>
    rw [step] at member
    rw [head]
    exact Or.inl (List.mem_cons_of_mem _ member)

/-- Only the planning task of a plan sends its enqueue, and only from the stage before it. -/
theorem requested_enqueue {connection : ConnectionId} {planId : TransferPlanId} {jobs : List TransferJob} (op : RuntimeOp)
    (there : .requested (.enqueue connection planId jobs) ∈ machine.out s op) :
    ∃ (index : Nat) (task : PlanningTask), s.planning[index]? = some task ∧ task.planId = planId ∧
      task.stage = .enqueuing connection jobs ∧
      ∃ accepted, (machine.next s op).planning[index]? = some { task with stage := .enqueued jobs accepted } := by
  revert there
  generalize machine.out s op = outputs, machine.next s op = s', s.next_moves op = moves
  intro there
  cases moves with
  | stays _ _ _ _ _ _ _ none_ | cancels _ _ _ none_ | stops _ none_ =>
    rw [none_] at there
    cases there
  | starts before same command now hasConnection step out =>
    rw [out] at there
    simp [startTransfer] at there
  | asks request plain step out =>
    rw [out, request_outputs] at there
    split at there
    · cases List.mem_singleton.mp there
      cases plain
    · cases there
  | plans index task input is get step out =>
    rw [out, advance_outputs] at there
    have sent : .enqueue connection planId jobs ∈ (task.step ⟨s.nextTransferId⟩ s.managerOpen input).sends := by
      split at there
      · simpa using there
      · simp at there
    obtain ⟨_, early | final⟩ | ⟨connection', jobs', stage, now⟩ | ⟨action, actions, _, now⟩ | now :=
      task.step_cases ⟨s.nextTransferId⟩ s.managerOpen input
    · rw [early.silent] at sent
      cases sent
    · rw [final.silent] at sent
      cases sent
    · rw [now] at sent
      cases List.mem_singleton.mp sent
      refine ⟨index, task, get, rfl, stage, s.managerOpen, ?_⟩
      rw [step, advance_planning, now, List.getElem?_set_self (List.getElem?_eq_some_iff.mp get).1]
    · rw [now] at sent
      cases action <;> simp [PlanningTask.act] at sent
    · rw [now] at sent
      cases sent
  | delivers request requests connected _ _ _ out =>
    rw [out] at there
    simp at there
  | transfers op _ _ out =>
    rw [out] at there
    obtain ⟨output, _, is⟩ := List.mem_map.mp there
    cases output <;> cases is

theorem resolve_enqueue {request : TransferManagerRequest} {connected : Option ConnectionId} {connection : ConnectionId}
    {planId : TransferPlanId} {jobs : List TransferJob}
    (h : request.resolve connected = .enqueue connection planId jobs) : request = .enqueue connection planId jobs := by
  cases request <;> simp_all [TransferManagerRequest.resolve]

theorem next_transfers (s : Runtime) (op : RuntimeOp) :
    ((machine.next s op).transfers.manager.pending = s.transfers.manager.pending ∧
      (machine.next s op).transfers.manager.retryRoutes = s.transfers.manager.retryRoutes ∧
      (machine.next s op).transfers.tasks = s.transfers.tasks ∧ ∀ task, .started task ∉ machine.out s op) ∨
    ∃ op', (machine.next s op).transfers = TransferSystem.machine.next s.transfers op' ∧
      (∀ connection planId jobs, op' = .receive (.enqueue connection planId jobs) →
        .enqueue connection planId jobs ∈ s.requests) ∧
      ∀ task, .started task ∈ machine.out s op ↔ .started task ∈ TransferSystem.machine.out s.transfers op' := by
  generalize machine.out s op = outputs, machine.next s op = s', s.next_moves op = moves
  cases moves with
  | stays _ _ _ _ _ _ transfers none_ =>
    subst none_
    rw [transfers]
    exact Or.inl ⟨rfl, rfl, rfl, by simp⟩
  | starts before same command now hasConnection step out =>
    obtain ⟨pendingCommands, rfl⟩ := same
    subst step out
    exact Or.inl ⟨rfl, rfl, rfl, by simp [startTransfer]⟩
  | cancels _ _ step none_ | stops step none_ =>
    subst step none_
    exact Or.inl ⟨rfl, rfl, rfl, by simp⟩
  | asks request _ step out =>
    subst step out
    exact Or.inl ⟨by simp, by simp, by simp, by simp [request_outputs]⟩
  | plans index task input _ _ step out =>
    subst step out
    exact Or.inl ⟨by simp, by simp, by simp, by simp [advance_outputs]⟩
  | delivers request requests connected head _ step out =>
    subst step out
    refine Or.inr ⟨.receive (request.resolve connected), rfl, ?_, ?_⟩
    · intro connection planId jobs is
      rw [head, resolve_enqueue (TransferOp.receive.inj is)]
      exact List.mem_cons_self
    · exact fun task => ⟨fun new => by simp at new, fun new => by cases new⟩
  | transfers op' other step out =>
    subst step out
    refine Or.inr ⟨op', rfl, fun connection planId jobs is => absurd is (other _), ?_⟩
    intro task
    constructor
    · intro new
      obtain ⟨output, there, is⟩ := List.mem_map.mp new
      cases output with
      | sent event => cases is
      | started started =>
        cases is
        exact there
    · exact fun there => List.mem_map.mpr ⟨_, there, rfl⟩

section Homes

variable {queued ran : TransferPlanId → TransferId → Prop}

theorem next_homed (op : RuntimeOp) (h : TransferManager.Homed queued ran s.transfers.manager s.transfers.tasks)
    (again : ∀ planId transferId, ran planId transferId → queued planId transferId)
    (starts : ∀ task : TransferTask, .started task ∈ machine.out s op → ran task.planId task.job.id)
    (own : ∀ connection planId jobs, .enqueue connection planId jobs ∈ s.requests → ∀ job ∈ jobs, queued planId job.id) :
    TransferManager.Homed queued ran (machine.next s op).transfers.manager (machine.next s op).transfers.tasks := by
  obtain ⟨pending, routes, tasks, _⟩ | ⟨op', transfers, enqueues, same⟩ := s.next_transfers op
  · rw [tasks]
    exact h.congr pending routes
  · rw [transfers]
    refine TransferSystem.next_homed h again op' (fun task started => starts task ((same task).mpr started)) ?_
    exact fun connection planId jobs is => own connection planId jobs (enqueues connection planId jobs is)

theorem started_homed {op : RuntimeOp} (h : TransferManager.Homed queued ran s.transfers.manager s.transfers.tasks)
    {task : TransferTask} (started : .started task ∈ machine.out s op) : queued task.planId task.job.id := by
  obtain ⟨_, _, _, quiet⟩ | ⟨op', _, _, same⟩ := s.next_transfers op
  · exact absurd started (quiet task)
  · exact TransferSystem.started_homed h ((same task).mp started)

end Homes

theorem next_accepted {task : PlanningTask} {jobs : List TransferJob} (op : RuntimeOp)
    (member : task ∈ (machine.next s op).planning) (accepted : task.stage = .enqueued jobs true) :
    (∃ before ∈ s.planning, before.planId = task.planId ∧ before.stage = .enqueued jobs true) ∨
      ∃ connection, .requested (.enqueue connection task.planId jobs) ∈ machine.out s op := by
  revert member
  generalize machine.out s op = outputs, machine.next s op = s', s.next_moves op = moves
  intro member
  cases moves with
  | stays planning => exact Or.inl ⟨task, planning ▸ member, rfl, accepted⟩
  | starts before same command now hasConnection step =>
    obtain ⟨pendingCommands, rfl⟩ := same
    rw [step] at member
    obtain old | new := List.mem_append.mp member
    · exact Or.inl ⟨task, old, rfl, accepted⟩
    · cases List.mem_singleton.mp new
      cases accepted
  | cancels transferId _ step =>
    rw [step] at member
    obtain ⟨before, there, rfl⟩ := List.mem_map.mp member
    refine Or.inl ⟨before, there, ?_⟩
    split at accepted
    · rename_i own
      rw [if_pos own]
      exact ⟨rfl, accepted⟩
    · rename_i other
      rw [if_neg other]
      exact ⟨rfl, accepted⟩
  | asks request _ step =>
    rw [step, request_planning] at member
    exact Or.inl ⟨task, member, rfl, accepted⟩
  | plans index before input _ get step out =>
    rw [step, advance_planning] at member
    obtain old | rfl := List.mem_or_eq_of_mem_set member
    · exact Or.inl ⟨task, old, rfl, accepted⟩
    · obtain same | ⟨isOpen, connection, sends⟩ := before.step_accepted _ _ _ accepted
      · exact Or.inl ⟨before, List.mem_of_getElem? get, rfl, same⟩
      · refine Or.inr ⟨connection, ?_⟩
        rw [out, advance_outputs, isOpen, if_pos rfl]
        rw [isOpen] at sends
        rw [sends]
        exact List.mem_append_right _ (List.mem_singleton.mpr rfl)
  | delivers _ _ _ _ _ step | transfers _ _ step | stops step =>
    rw [step] at member
    exact Or.inl ⟨task, member, rfl, accepted⟩

theorem next_early {task : PlanningTask} (op : RuntimeOp) (member : task ∈ (machine.next s op).planning)
    (early : task.stage.isEarly = true) :
    (∃ before ∈ s.planning, before.planId = task.planId ∧ before.stage.isEarly = true) ∨
      task.planId.raw = s.nextPlanId := by
  revert member
  generalize machine.out s op = outputs, machine.next s op = s', s.next_moves op = moves
  intro member
  cases moves with
  | stays planning => exact Or.inl ⟨task, planning ▸ member, rfl, early⟩
  | starts before same command now hasConnection step =>
    obtain ⟨pendingCommands, rfl⟩ := same
    rw [step] at member
    obtain old | new := List.mem_append.mp member
    · exact Or.inl ⟨task, old, rfl, early⟩
    · cases List.mem_singleton.mp new
      exact Or.inr rfl
  | cancels transferId _ step =>
    rw [step] at member
    obtain ⟨before, there, rfl⟩ := List.mem_map.mp member
    refine Or.inl ⟨before, there, ?_⟩
    split at early
    · rename_i own
      rw [if_pos own]
      exact ⟨rfl, early⟩
    · rename_i other
      rw [if_neg other]
      exact ⟨rfl, early⟩
  | asks request _ step =>
    rw [step, request_planning] at member
    exact Or.inl ⟨task, member, rfl, early⟩
  | plans index before input _ get step =>
    rw [step, advance_planning] at member
    obtain old | rfl := List.mem_or_eq_of_mem_set member
    · exact Or.inl ⟨task, old, rfl, early⟩
    · exact Or.inl ⟨before, List.mem_of_getElem? get, rfl, before.step_early _ _ _ early⟩
  | delivers _ _ _ _ _ step | transfers _ _ step | stops step =>
    rw [step] at member
    exact Or.inl ⟨task, member, rfl, early⟩

theorem next_nextPlanId (s : Runtime) (op : RuntimeOp) : s.nextPlanId ≤ (machine.next s op).nextPlanId := by
  generalize machine.out s op = outputs, machine.next s op = s', s.next_moves op = moves
  cases moves with
  | stays _ _ plans => exact plans.ge
  | starts before same command now hasConnection step =>
    obtain ⟨pendingCommands, rfl⟩ := same
    rw [step]
    exact Nat.le_succ _
  | cancels _ _ step | delivers _ _ _ _ _ step | transfers _ _ step => rw [step]
  | stops step =>
    rw [step]
    exact Nat.le_refl _
  | asks request _ step => rw [step, request_nextPlanId]
  | plans index task input _ _ step => rw [step, advance_nextPlanId]

/-- A plan that is handed over has been sent by its own planning task. -/
structure SentByOwn (past : List (RuntimeOp × List RuntimeOutput)) (s : Runtime) : Prop where
  bound : ∀ planId, HandedOver past planId → planId.raw < s.nextPlanId
  late : ∀ task ∈ s.planning, task.stage.isEarly = true → ¬ HandedOver past task.planId

theorem next_sentByOwn (past : List (RuntimeOp × List RuntimeOutput)) (s : Runtime) (op : RuntimeOp)
    (h : Planned s ∧ SentByOwn past s) :
    Planned (machine.next s op) ∧ SentByOwn (past ++ [(op, machine.out s op)]) (machine.next s op) := by
  obtain ⟨planned, sent⟩ := h
  have planned' := next_planned s op planned
  refine ⟨planned', ?_, ?_⟩
  · intro planId handed
    refine Nat.lt_of_lt_of_le ?_ (s.next_nextPlanId op)
    obtain old | ⟨_, _, new⟩ := handedOver_concat handed
    · exact sent.bound planId old
    · obtain ⟨_, task, get, rfl, _⟩ := requested_enqueue op new
      exact planned.planBound _ (List.mem_map_of_mem (List.mem_of_getElem? get))
  · intro task member early handed
    obtain old | ⟨_, _, new⟩ := handedOver_concat handed
    · obtain ⟨before, there, same, was⟩ | fresh := next_early op member early
      · exact sent.late before there was (same ▸ old)
      · exact absurd (sent.bound _ old) (by rw [fresh]; exact Nat.lt_irrefl _)
    · obtain ⟨_, own, _, id, _, _, now⟩ := requested_enqueue op new
      obtain rfl := key_unique (fun task => task.planId) planned'.plans member (List.mem_of_getElem? now) id.symm
      cases early

theorem reachable_sentByOwn (ops : List RuntimeOp) : SentByOwn (machine.log {} ops) (machine.run {} ops) := by
  have start : Planned {} ∧ SentByOwn [] {} := by
    refine ⟨by constructor <;> simp, ?_, by simp⟩
    rintro planId ⟨_, _, entry, member, _⟩
    cases member
  exact (machine.log_invariant next_sentByOwn start ops).2

theorem next_accounted (past : List (RuntimeOp × List RuntimeOutput)) (s : Runtime) (op : RuntimeOp)
    (h : Accounted past s) : Accounted (past ++ [(op, machine.out s op)]) (machine.next s op) := by
  have more : ∀ planId, HandedOver past planId → HandedOver (past ++ [(op, machine.out s op)]) planId :=
    fun planId handed => handed.append _
  have begins : ∀ task : TransferTask, .started task ∈ machine.out s op → HandedOver past task.planId :=
    fun task started => started_homed h.handed started
  refine ⟨?_, ?_, ?_, ?_, ?_⟩
  · intro connection planId jobs member
    obtain old | ⟨new, _⟩ := next_enqueue op member
    · exact more planId (h.queued connection planId jobs old)
    · exact ⟨connection, jobs, occurs_concat.mpr (Or.inr new)⟩
  · refine next_homed op (h.handed.mono ?_ ?_) (fun _ _ handed => handed) ?_ ?_
    · exact fun planId _ => more planId
    · exact fun planId _ => more planId
    · exact fun task started => more _ (begins task started)
    · exact fun connection planId jobs member _ _ => more planId (h.queued connection planId jobs member)
  · refine next_homed op (h.ran.mono (fun _ _ _ => trivial) ?_) (fun _ _ _ => trivial) ?_ ?_
    · exact fun planId transferId ran => ran.append _
    · exact fun task started => ⟨task, occurs_concat.mpr (Or.inr started), rfl, rfl⟩
    · exact fun _ _ _ _ _ _ => trivial
  · intro planId transferId started
    obtain old | ⟨task, new, rfl, rfl⟩ := startedBy_concat started
    · exact more planId (h.started planId transferId old)
    · exact more _ (begins task new)
  · intro task member jobs accepted
    obtain ⟨before, there, id, same⟩ | ⟨connection, new⟩ := next_accepted op member accepted
    · rw [← id]
      exact more _ (h.accepted before there jobs same)
    · exact ⟨connection, jobs, occurs_concat.mpr (Or.inr new)⟩

theorem accounted (ops : List RuntimeOp) : Accounted (machine.log {} ops) (machine.run {} ops) := by
  refine machine.log_invariant next_accounted ⟨by simp, .empty, .empty, ?_, by simp⟩ ops
  rintro planId transferId ⟨task, ⟨entry, member, _⟩, _⟩
  cases member

end Runtime

end MacSftp
