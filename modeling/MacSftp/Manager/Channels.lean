import MacSftp.Manager.Steps
import MacSftp.Transfer.PlanOutcome

namespace MacSftp

open Lib

namespace TransferManager

variable (m : TransferManager) (connection : ConnectionId)

def onConnection (sessions : List TransferSessionSlot) : Nat :=
  sessions.countP (fun session => session.connection = connection)

def idleOn : Nat := Table.total (onConnection connection) m.idleSessions

theorem cleanupPlanIfIdle_idleOn (planId : TransferPlanId) :
    (m.cleanupPlanIfIdle planId).idleOn connection ≤ m.idleOn connection := by
  unfold cleanupPlanIfIdle
  split
  · exact Table.total_erase_le _ _ _
  · exact Nat.le_refl _

theorem cancelPlan_idleOn (planId : TransferPlanId) :
    (m.cancelPlan planId).1.idleOn connection ≤ m.idleOn connection := by
  unfold cancelPlan
  dsimp only
  split
  · exact Nat.le_refl _
  · exact cleanupPlanIfIdle_idleOn _ _ _

theorem enqueue_idleOn (target : ConnectionId) (planId : TransferPlanId) (jobs : List TransferJob) (recordRoot : Bool) :
    (m.enqueue target planId jobs recordRoot).1.idleOn connection ≤ m.idleOn connection := by
  unfold enqueue
  split
  · exact Nat.le_refl _
  · have queued : ((queueJobs target planId (m.adopt planId jobs recordRoot) jobs).1.forgetCancellationsForPlan
        planId).idleOn connection = m.idleOn connection := by
      rw [queueJobs_frame, adopt_frame]
      rfl
    dsimp only
    split
    · exact (cleanupPlanIfIdle_idleOn _ _ _).trans queued.le
    · exact queued.le

theorem cancel_idleOn (transferId : TransferId) (planId : Option TransferPlanId) :
    (m.cancel transferId planId).1.idleOn connection ≤ m.idleOn connection := by
  obtain ⟨plan, _, step⟩ | ⟨position, queued, _, _, step⟩ | ⟨_, step⟩ | ⟨_, _, _, step⟩ :=
    m.cancel_cases transferId planId
  · rw [step]
    exact cancelPlan_idleOn _ _ _
  · rw [step]
    exact cleanupPlanIfIdle_idleOn _ _ _
  · rw [step]
    exact Nat.le_refl _
  · rw [step]
    exact Nat.le_refl _

theorem retry_idleOn (transferId : TransferId) (connected : Option ConnectionId) :
    (m.retry transferId connected).1.idleOn connection ≤ m.idleOn connection := by
  unfold retry
  cases m.retryRoutes.lookup transferId with
  | none => exact Nat.le_refl _
  | some route =>
    dsimp only
    rw [takePendingCancel_frame]
    cases connected with
    | none => exact Nat.le_refl _
    | some target => exact enqueue_idleOn _ _ _ _ _ _

theorem handleRequest_idleOn (request : TransferManagerRequest) :
    (m.handleRequest request).1.idleOn connection ≤ m.idleOn connection := by
  cases request with
  | enqueue target planId jobs => exact enqueue_idleOn _ _ _ _ _ _
  | cancel transferId planId => exact cancel_idleOn _ _ _ _
  | cancelPlan planId => exact cancelPlan_idleOn _ _ _
  | forgetPlan planId => exact Nat.le_refl _
  | retry transferId connected => exact retry_idleOn _ _ _ _

def slotOn (session : TransferSessionSlot) : Nat := if session.connection = connection then 1 else 0

theorem onConnection_concat (sessions : List TransferSessionSlot) (session : TransferSessionSlot) :
    onConnection connection (sessions ++ [session]) = onConnection connection sessions + slotOn connection session := by
  simp [onConnection, slotOn, List.countP_append]

theorem total_lookup {t : Table TransferPlanId (List TransferSessionSlot)} (planId : TransferPlanId) :
    Table.total (onConnection connection) t = onConnection connection ((t.lookup planId).getD []) +
      Table.total (onConnection connection) (t.erase planId) := by
  cases h : t.lookup planId with
  | none =>
    rw [Table.erase_of_lookup_none h]
    exact (Nat.zero_add _).symm
  | some sessions => exact Table.total_erase _ h

theorem returnIdleSession_idleOn (planId : TransferPlanId) (session : TransferSessionSlot) :
    (m.returnIdleSession planId session).idleOn connection ≤ m.idleOn connection + slotOn connection session := by
  have before := total_lookup connection (t := m.idleSessions) planId
  simp only [returnIdleSession, idleOn, Table.total_insert]
  split
  · rw [onConnection_concat]
    omega
  · omega

theorem handleCompleted_idleOn (completed : CompletedTransfer) :
    (m.handleCompleted completed).idleOn connection ≤
      m.idleOn connection + (completed.reusableSession.map (slotOn connection)).getD 0 := by
  unfold handleCompleted
  cases m.running.lookup completed.transferId with
  | none =>
    cases completed.retryRoute <;> exact Nat.le_add_right _ _
  | some running =>
    cases completed.reusableSession with
    | none =>
      refine (cleanupPlanIfIdle_idleOn _ _ _).trans ?_
      cases completed.retryRoute <;> exact Nat.le_refl _
    | some session =>
      refine (cleanupPlanIfIdle_idleOn _ _ _).trans ?_
      refine (returnIdleSession_idleOn _ _ _ _).trans ?_
      cases completed.retryRoute <;> exact Nat.le_refl _

theorem takeSession_total (idle : Table TransferPlanId (List TransferSessionSlot)) (planId : TransferPlanId)
    (direction : TransferDirection) :
    Table.total (onConnection connection) (takeSession idle planId direction).2 +
      ((takeSession idle planId direction).1.map (slotOn connection)).getD 0 =
        Table.total (onConnection connection) idle := by
  unfold takeSession
  cases present : idle.lookup planId with
  | none => rfl
  | some sessions =>
    cases found : sessions.find? (fun session => session.direction = direction) with
    | none => simp only [found]; rfl
    | some session =>
      have before := Table.total_erase (onConnection connection) present
      have split_ : onConnection connection sessions = slotOn connection session +
          onConnection connection (sessions.eraseP (fun session => session.direction = direction)) := by
        simpa [onConnection, slotOn] using countP_of_find? (fun session => session.connection = connection) _ found
      simp only [found, Option.map_some, Option.getD_some]
      split
      · rename_i empty
        rw [empty] at split_
        rw [before, split_]
        simp only [onConnection, List.countP_nil]
        omega
      · rw [Table.total_insert, before, split_]
        omega

end TransferManager

def TransferTask.holdsOn (connection : ConnectionId) (task : TransferTask) : Bool :=
  task.holdsSession && task.session.connection = connection

def TaskStage.hasChannel : TaskStage → Bool
  | running | reported _ => true
  | released _ => false

def TransferTask.countsOn (connection : ConnectionId) (task : TransferTask) : Bool :=
  task.stage.hasChannel && task.connection = connection

namespace TransferManager

variable (m : TransferManager) (connection : ConnectionId)

theorem isEligible_channels {activeChannels : ConnectionId → Nat} {queued : QueuedTransfer}
    (eligible : m.isEligible activeChannels queued = true) :
    activeChannels queued.connection < maxChannelsPerConnection := by
  by_contra full
  have reached : activeChannels queued.connection ≥ maxChannelsPerConnection := Nat.le_of_not_lt full
  simp [isEligible, reached] at eligible

theorem launch_held (queued : QueuedTransfer) :
    (m.launch queued).2.idleOn connection + (if (m.launch queued).1.holdsOn connection then 1 else 0) =
      m.idleOn connection + if (m.takeIdleSession queued.planId queued.job.direction).1 = none ∧
        queued.connection = connection then 1 else 0 := by
  have taken := takeSession_total connection m.idleSessions queued.planId queued.job.direction
  have idle : (m.launch queued).2.idleSessions =
    (takeSession m.idleSessions queued.planId queued.job.direction).2 := rfl
  have session : (m.launch queued).1.session =
    (takeSession m.idleSessions queued.planId queued.job.direction).1.getD
      ⟨queued.connection, queued.job.direction⟩ := rfl
  have fresh : (m.launch queued).1.holdsSession = true := rfl
  simp only [idleOn, idle, TransferTask.holdsOn, fresh, session, takeIdleSession, Bool.true_and, decide_eq_true_eq]
  rw [← taken]
  obtain found | ⟨slot, found⟩ := Option.eq_none_or_eq_some (takeSession m.idleSessions queued.planId queued.job.direction).1
  · simp [found]
  · simp [found, slotOn]

end TransferManager

namespace TransferSystem

open TransferManager

variable (s : TransferSystem) (connection : ConnectionId)

/-- The transfer sessions open on the connection: those of running jobs, those on their way back to
the manager and the idle ones. -/
def heldOn : Nat := s.tasks.countP (TransferTask.holdsOn connection) + s.manager.idleOn connection

/-- The open sessions whose jobs `active_channels` counts for the connection. -/
def seenOn : Nat := s.tasks.countP (fun task => task.holdsOn connection && task.countsOn connection)

/-- The open sessions that it does not count: those on their way back to the manager, the idle ones, and those that a job
of another connection has taken over. -/
def unseenOn : Nat :=
  s.tasks.countP (fun task => task.holdsOn connection && !task.countsOn connection) + s.manager.idleOn connection

theorem heldOn_split : s.heldOn connection = s.seenOn connection + s.unseenOn connection := by
  have split_ := List.countP_eq_countP_filter_add s.tasks (TransferTask.holdsOn connection) (TransferTask.countsOn connection)
  simp only [List.countP_filter] at split_
  simp only [heldOn, seenOn, unseenOn, split_]
  omega

/-- The next turn of the start loop opens a session of its own on the connection. -/
def OpensOn : Prop :=
  s.phase = .busy [] ∧ ∃ queued ∈ (s.manager.pick s.activeChannels).map (fun picked => picked.1),
    (s.manager.takeIdleSession queued.planId queued.job.direction).1 = none ∧ queued.connection = connection

instance : Decidable (s.OpensOn connection) := inferInstanceAs (Decidable (_ ∧ _))

theorem startNext_heldOn :
    s.startNext.1.heldOn connection = s.heldOn connection + if s.OpensOn connection then 1 else 0 := by
  obtain ⟨position, queued, busy, picked, _, _, _, step⟩ | ⟨⟨phase, step⟩, idle⟩ := s.startNext_cases
  · have held := launch_held (s.manager.withoutPending position queued) connection queued
    have same : (s.manager.withoutPending position queued).idleOn connection = s.manager.idleOn connection := rfl
    have opens : s.OpensOn connection ↔ (s.manager.takeIdleSession queued.planId queued.job.direction).1 = none ∧
        queued.connection = connection := by
      simp [OpensOn, busy, picked]
    have idle : ((s.manager.withoutPending position queued).takeIdleSession queued.planId queued.job.direction).1 =
      (s.manager.takeIdleSession queued.planId queued.job.direction).1 := rfl
    rw [same, idle] at held
    rw [step]
    simp only [launched, heldOn, List.countP_append, List.countP_singleton, opens]
    omega
  · have closed : ¬ s.OpensOn connection := by
      rintro ⟨busy, queued, picked, _⟩
      simp [idle busy] at picked
    rw [step, if_neg closed]
    rfl

variable {s connection}

theorem withTask_heldOn {index : Nat} {task new : TransferTask} (get : s.tasks[index]? = some task)
    (keeps : new.holdsOn connection = true → task.holdsOn connection = true) :
    (s.withTask index new).heldOn connection ≤ s.heldOn connection := by
  have before := countP_of_getElem? (TransferTask.holdsOn connection) get
  have after := countP_set_of_getElem? (TransferTask.holdsOn connection) get new
  simp only [heldOn, withTask, before, after]
  split_ifs with hn ho
  · omega
  · exact absurd (keeps hn) ho
  · omega
  · omega

theorem report_heldOn (index : Nat) (result : TransferResult) :
    (s.report index result).1.heldOn connection ≤ s.heldOn connection := by
  unfold report
  cases get : s.tasks[index]? with
  | none => exact Nat.le_refl _
  | some task =>
    dsimp only
    split
    · rename_i running
      apply withTask_heldOn get
      simp only [TransferTask.holdsOn, TransferTask.holdsSession, running.1, Bool.true_and, Bool.and_eq_true]
      exact And.right
    · exact Nat.le_refl _

theorem release_heldOn (index : Nat) : (s.release index).heldOn connection ≤ s.heldOn connection := by
  unfold release
  cases get : s.tasks[index]? with
  | none => exact Nat.le_refl _
  | some task =>
    dsimp only
    split
    · rename_i result reported
      refine withTask_heldOn get (?_ : TransferTask.holdsOn connection { task with stage := .released result } = true → _)
      cases result with
      | openFailed error =>
        simp [TransferTask.holdsOn, TransferTask.holdsSession, TransferResult.outcome, TransferJobOutcome.reusable]
      | finished => simp [TransferTask.holdsOn, TransferTask.holdsSession, reported]
      | stopped error duringConflict => simp [TransferTask.holdsOn, TransferTask.holdsSession, reported]
    · exact Nat.le_refl _

theorem complete_heldOn (index : Nat) : (s.complete index).heldOn connection ≤ s.heldOn connection := by
  unfold complete
  split
  · rename_i task _ get
    split
    · rename_i result released
      have returned := handleCompleted_idleOn s.manager connection (task.completedWith result)
      have held : ((task.completedWith result).reusableSession.map (slotOn connection)).getD 0 =
          if task.holdsOn connection then 1 else 0 := by
        unfold TransferTask.completedWith TransferTask.holdsOn TransferTask.holdsSession
        cases reusable : (result.outcome task.job.direction).reusable <;> simp [released, reusable, slotOn]
      have gone := countP_of_getElem? (TransferTask.holdsOn connection) get
      simp only [heldOn, gone]
      omega
    · exact Nat.le_refl _
  · exact Nat.le_refl _

theorem setPolicy_heldOn (index : Nat) (policy : ConflictPolicy) :
    (s.setPolicy index policy).heldOn connection = s.heldOn connection := by
  unfold setPolicy
  cases s.tasks[index]? with
  | none => rfl
  | some task =>
    dsimp only
    split <;> rfl

theorem receive_heldOn (request : TransferManagerRequest) :
    (s.receive request).heldOn connection ≤ s.heldOn connection := by
  unfold receive
  split
  · exact Nat.add_le_add_left (handleRequest_idleOn _ _ _) _
  · exact Nat.le_refl _

theorem send_heldOn : s.send.1.heldOn connection = s.heldOn connection := by
  unfold send
  split <;> rfl

def ChannelsCounted (s : TransferSystem) : Prop :=
  ∀ connection, s.activeChannels connection = s.tasks.countP (TransferTask.countsOn connection)

theorem ChannelsCounted.congr {s' : TransferSystem} (h : s.ChannelsCounted) (tasks : s'.tasks = s.tasks)
    (channels : s'.activeChannels = s.activeChannels) : s'.ChannelsCounted := by
  unfold ChannelsCounted
  rw [tasks, channels]
  exact h

theorem ChannelsCounted.seen (h : s.ChannelsCounted) (connection : ConnectionId) :
    s.seenOn connection ≤ s.activeChannels connection := by
  rw [h connection]
  exact List.countP_mono_left fun task _ both => (Bool.and_eq_true_iff.mp both).2

theorem startNext_counted (h : s.ChannelsCounted) : s.startNext.1.ChannelsCounted := by
  obtain ⟨position, queued, _, _, _, _, _, step⟩ | ⟨⟨phase, step⟩, _⟩ := s.startNext_cases
  · intro connection
    have one : ((s.manager.withoutPending position queued).launch queued).1.countsOn connection =
        decide (queued.connection = connection) := rfl
    rw [step]
    simp only [launched, List.countP_append, List.countP_singleton, one, decide_eq_true_eq, ← h connection]
    by_cases own : queued.connection = connection
    · subst own
      simp
    · rw [Function.update_of_ne (Ne.symm own), if_neg own, Nat.add_zero]
  · rw [step]
    exact h

theorem report_counted (h : s.ChannelsCounted) (index : Nat) (result : TransferResult) :
    (s.report index result).1.ChannelsCounted := by
  unfold report
  cases get : s.tasks[index]? with
  | none => exact h
  | some task =>
    dsimp only
    split
    · rename_i running
      intro connection
      have same : TransferTask.countsOn connection { task with stage := .reported result } = task.countsOn connection := by
        simp [TransferTask.countsOn, TaskStage.hasChannel, running.1]
      have before := countP_of_getElem? (TransferTask.countsOn connection) get
      have after := countP_set_of_getElem? (TransferTask.countsOn connection) get { task with stage := .reported result }
      rw [same, ← before] at after
      exact (h connection).trans after.symm
    · exact h

theorem release_counted (h : s.ChannelsCounted) (index : Nat) : (s.release index).ChannelsCounted := by
  unfold release
  cases get : s.tasks[index]? with
  | none => exact h
  | some task =>
    dsimp only
    split
    · rename_i result reported
      intro connection
      have counts : task.countsOn connection = decide (task.connection = connection) := by
        simp [TransferTask.countsOn, TaskStage.hasChannel, reported]
      have gone : TransferTask.countsOn connection { task with stage := .released result } = false := rfl
      have before := countP_of_getElem? (TransferTask.countsOn connection) get
      have after := countP_set_of_getElem? (TransferTask.countsOn connection) get { task with stage := .released result }
      rw [counts, ← h connection] at before
      rw [gone] at after
      simp only [withTask, after]
      by_cases own : task.connection = connection
      · subst own
        simp [before]
      · simpa [own, Function.update_of_ne (Ne.symm own)] using before
    · exact h

theorem complete_counted (h : s.ChannelsCounted) (index : Nat) : (s.complete index).ChannelsCounted := by
  unfold complete
  split
  · rename_i task _ get
    split
    · rename_i result released
      intro connection
      have before := countP_of_getElem? (TransferTask.countsOn connection) get
      have gone : task.countsOn connection = false := by simp [TransferTask.countsOn, TaskStage.hasChannel, released]
      rw [gone] at before
      simpa [before] using h connection
    · exact h
  · exact h

theorem next_counted (s : TransferSystem) (op : TransferOp) (h : s.ChannelsCounted) :
    (machine.next s op).ChannelsCounted := by
  cases op with
  | receive request =>
    show (s.receive request).ChannelsCounted
    unfold receive
    split <;> exact h.congr rfl rfl
  | send =>
    show s.send.1.ChannelsCounted
    unfold send
    split <;> exact h.congr rfl rfl
  | startNext => exact startNext_counted h
  | report index result => exact report_counted h index result
  | release index => exact release_counted h index
  | complete index => exact complete_counted h index
  | setPolicy index policy =>
    show (s.setPolicy index policy).ChannelsCounted
    unfold setPolicy
    cases s.tasks[index]? with
    | none => exact h
    | some task =>
      dsimp only
      split <;> exact h.congr rfl rfl

theorem OpensOn.channels (opens : s.OpensOn connection) : s.activeChannels connection < maxChannelsPerConnection := by
  obtain ⟨_, queued, picked, _, rfl⟩ := opens
  obtain ⟨⟨queued', m⟩, pick, rfl⟩ := Option.map_eq_some_iff.mp picked
  obtain ⟨_, _, _, eligible, _⟩ := pick_some pick
  exact isEligible_channels s.manager eligible

/-- A job that opens a session of its own finds, besides the sessions that `is_eligible` counts, few enough others. -/
def UnseenLeaveRoom (s : TransferSystem) (op : TransferOp) : Prop :=
  op = .startNext → ∀ connection, s.OpensOn connection →
    s.unseenOn connection ≤ maxChannelsPerConnection - 1 - s.seenOn connection

def WithinBudget (s : TransferSystem) : Prop := ∀ connection, s.heldOn connection ≤ maxChannelsPerConnection

/-- The check of `is_eligible` keeps the counted sessions below the bound; the others have to fit beside them. -/
theorem opens_within_iff (counted : s.ChannelsCounted) (opens : s.OpensOn connection) :
    s.heldOn connection + 1 ≤ maxChannelsPerConnection ↔
      s.unseenOn connection ≤ maxChannelsPerConnection - 1 - s.seenOn connection := by
  have seen := counted.seen connection
  have checked := opens.channels
  rw [heldOn_split]
  omega

theorem withinBudget_next (s : TransferSystem) (op : TransferOp) (counted : s.ChannelsCounted) (held : s.WithinBudget) :
    (machine.next s op).WithinBudget ↔ UnseenLeaveRoom s op := by
  have kept : (∀ connection, (machine.next s op).heldOn connection ≤ s.heldOn connection) →
      op ≠ .startNext → ((machine.next s op).WithinBudget ↔ UnseenLeaveRoom s op) := by
    intro less other
    exact ⟨fun _ start => absurd start other, fun _ connection => (less connection).trans (held connection)⟩
  cases op with
  | receive request => exact kept (fun _ => receive_heldOn request) (by simp)
  | send => exact kept (fun _ => send_heldOn.le) (by simp)
  | report index result => exact kept (fun _ => report_heldOn index result) (by simp)
  | release index => exact kept (fun _ => release_heldOn index) (by simp)
  | complete index => exact kept (fun _ => complete_heldOn index) (by simp)
  | setPolicy index policy => exact kept (fun _ => (setPolicy_heldOn index policy).le) (by simp)
  | startNext =>
    have after : ∀ connection, (machine.next s .startNext).heldOn connection =
      s.heldOn connection + if s.OpensOn connection then 1 else 0 := s.startNext_heldOn
    constructor
    · intro within _ connection opens
      have bound := within connection
      rw [after, if_pos opens] at bound
      exact (opens_within_iff counted opens).mp bound
    · intro room connection
      rw [after]
      split
      · rename_i opens
        exact (opens_within_iff counted opens).mpr (room rfl connection opens)
      · exact held connection

theorem channel_budget_iff (ops : List TransferOp) :
    (∀ k, (machine.run {} (ops.take k)).WithinBudget) ↔ machine.Admissible UnseenLeaveRoom {} ops :=
  machine.invariant_iff_admissible (V := ChannelsCounted) (fun s op _ counted => next_counted s op counted)
    (fun s op _ counted held => withinBudget_next s op counted held) (fun _ => rfl) (fun _ => Nat.zero_le _)

/-- Seven of the eight jobs of plan 1 leave their session to the plan, then plan 2 starts two jobs. -/
def idleSessionsRun : List TransferOp :=
  [.receive (.enqueue ⟨1⟩ ⟨1⟩ ((List.range 8).map TransferStore.sampleJob))] ++ List.replicate 9 .startNext ++
    (List.replicate 7 [.report 0 .finished, .release 0, .complete 0, .startNext]).flatten ++
    [.receive (.enqueue ⟨1⟩ ⟨2⟩ [TransferStore.sampleJob 8, TransferStore.sampleJob 9]), .startNext, .startNext]

theorem idle_sessions_exceed_budget :
    (machine.run {} idleSessionsRun).heldOn ⟨1⟩ = 10 ∧
      ¬ ∀ k, (machine.run {} (idleSessionsRun.take k)).WithinBudget := by
  have ten : (machine.run {} idleSessionsRun).heldOn ⟨1⟩ = 10 := by decide +kernel
  refine ⟨ten, ?_⟩
  intro within
  have bound := within idleSessionsRun.length ⟨1⟩
  rw [List.take_length, ten] at bound
  exact absurd bound (by decide)

end TransferSystem

end MacSftp
