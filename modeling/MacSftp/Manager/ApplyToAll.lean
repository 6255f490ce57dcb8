import MacSftp.Jobs.Server
import MacSftp.Manager.DecisionSteps

namespace MacSftp

open Lib Program

/-- The last thing a job does when it applies a decision to its whole plan. -/
def JobOp.AppliesToAll : JobOp → Prop
  | .resolveWaitersForPlan .. | .setPlanPolicy _ (.renameAll _) => True
  | _ => False

/-- What a job does when it applies a decision to its whole plan. -/
def JobOp.TellsPlan : JobOp → Prop
  | .resolveWaitersForPlan .. | .setPlanPolicy .. => True
  | _ => False

theorem JobOp.AppliesToAll.tells {op : JobOp} (applies : op.AppliesToAll) : op.TellsPlan := by
  cases op with
  | resolveWaitersForPlan | setPlanPolicy => trivial
  | _ => exact applies.elim

namespace Conflicts

variable {s s' : Conflicts} {own : Option ConflictRequestId} {job : ConflictJob} {planId : TransferPlanId}

def Waits (s : Conflicts) (job : ConflictJob) : Prop := ∃ id next, job.rest = .ask (.decision id) next ∧ s.sent id = none

/-- The job will not prompt any more, and its decision has been sent if it still needs one. -/
def Past (s : Conflicts) (job : ConflictJob) : Prop :=
  match job.phase with
  | .checking | .numbered _ | .registered _ => False
  | .prompted id => s.sent id ≠ none
  | .decided _ | .spreading | .settled => True

/-- The job has prompted by now, and does not wait for what a rename does not send. -/
def InTime (s : Conflicts) (op : JobOp) (job : ConflictJob) : Prop :=
  match job.phase, op with
  | .checking, _ | .numbered _, _ | .registered _, _ => False
  | .prompted _, .resolveWaitersForPlan .. => True
  | .prompted id, _ => s.sent id ≠ none
  | .decided _, _ | .spreading, _ | .settled, _ => True

/-- A decision is applied to a plan when its other running jobs are in time for it. -/
def Timely (s : Conflicts) : ConflictMove → Prop
  | .ask transferId _ => ∀ job op next, s.running transferId = some job → job.rest = .ask op next → op.AppliesToAll →
      ∀ other late, other ≠ transferId → s.running other = some late → late.planId = job.planId → s.InTime op late
  | _ => True

structure SettledPlan (s : Conflicts) (planId : TransferPlanId) : Prop where
  policy : s.AsksNoMore planId
  jobs : ∀ transferId job, s.running transferId = some job → job.planId = planId → s.Past job

theorem Past.later (past : s.Past job) (later : Later own s s') : s'.Past job := by
  unfold Past at past ⊢
  split at past
  all_goals first | exact past | exact later.sent _ past

theorem of_settled {job : TransferJob} (asks : s.AsksNoMore planId) : ConflictPhase.of (s.started job planId) = .settled := by
  obtain ⟨policy, set, known⟩ := asks
  have policy : (s.started job planId).conflictPolicy = policy := by rw [started, set, Option.getD_some]
  rw [ConflictPhase.of, if_neg (policy ▸ known)]

theorem past_served {transferId : TransferId} {phase : ConflictPhase} {op : JobOp} {given answer : op.Answer}
    {rest : JobM TransferJob}
    (rest' : JobM TransferJob) (past : s.Past ⟨planId, phase, rest⟩) (may : (conflictProtocol planId).may phase op)
    (served : s.serve transferId op given = some (answer, s')) :
    s'.Past ⟨planId, (conflictProtocol planId).after phase op answer, rest'⟩ ∧ ∀ prompt,
      op ≠ .emit (.transfer (.conflict prompt)) := by
  have later := serve_later may served
  cases op with
  | nextRequestId =>
    obtain rfl := may
    exact past.elim
  | registerWaiter id plan =>
    obtain ⟨rfl, _⟩ := may
    exact past.elim
  | emit event =>
    cases event with
    | transfer event =>
      cases event with
      | conflict prompt =>
        obtain ⟨rfl, _⟩ := may
        exact past.elim
      | _ => exact may.elim
    | _ => exact may.elim
  | decision id | removeWaiter id | resolveWaitersForPlan plan decision => exact ⟨trivial, fun _ never => by cases never⟩
  | setPlanPolicy plan policy =>
    cases policy with
    | ask => exact absurd rfl may.2.2
    | overwriteAll | skipAll | renameAll strategy => exact ⟨trivial, fun _ never => by cases never⟩
  | stat path | lstat path | symlinkMetadata path => exact ⟨Past.later past later, fun _ never => by cases never⟩
  | _ => exact may.elim

theorem settled_step (kept : s.Kept) (settled : s.SettledPlan planId) (move : ConflictMove) :
    (s.step move).1.SettledPlan planId ∧ ∀ prompt, (s.step move).2 ≠ some (planId, .emit (.transfer (.conflict prompt))) := by
  have moved := step_moved s move
  revert moved
  generalize (s.step move).1 = s'
  generalize (s.step move).2 = out
  intro moved
  cases moved with
  | still _ later running =>
    refine ⟨⟨later.policies planId settled.policy, fun t job here plan => ?_⟩, fun _ never => by cases never⟩
    rw [running] at here
    exact (settled.jobs t job here plan).later later
  | began job plan free =>
    refine ⟨⟨settled.policy, fun t other here same => ?_⟩, fun _ never => by cases never⟩
    by_cases own : t = job.id
    · subst own
      rw [setJob_self] at here
      cases here
      subst same
      simp only [Past, of_settled settled.policy]
    · rw [setJob_other s _ own] at here
      exact settled.jobs t other here same
  | wentOn transferId =>
    refine ⟨⟨settled.policy, fun t other here same => ?_⟩, fun _ never => by cases never⟩
    by_cases own : t = transferId
    · subst own
      rw [setJob_self] at here
      cases here
    · rw [setJob_other s _ own] at here
      exact settled.jobs t other here same
  | @asked transferId answers plan phase op next answer s' here served =>
    have mine := kept.jobs transferId _ here
    have later := serve_later mine.keeps.1 served
    have running := serve_running served
    constructor
    · refine ⟨later.policies planId settled.policy, fun t other there same => ?_⟩
      by_cases own : t = transferId
      · subst own
        rw [setJob_self] at there
        cases there
        subst same
        exact (past_served (next answer) (settled.jobs t _ here rfl) mine.keeps.1 served).1
      · rw [setJob_other s' _ own, running] at there
        have past : s'.Past other := Past.later (settled.jobs t other there same) later
        exact past
    · intro prompt out
      obtain ⟨rfl, rfl⟩ := Prod.mk.inj (Option.some.inj out)
      exact (past_served (next answer) (settled.jobs transferId _ here rfl) mine.keeps.1 served).2 prompt rfl

/-- Nothing of another plan has changed. -/
structure LeavesOthers (planId : TransferPlanId) (s s' : Conflicts) : Prop where
  policies : ∀ plan, plan ≠ planId → s'.planPolicies plan = s.planPolicies plan
  waiters : ∀ id plan, plan ≠ planId → s.waiters id = some plan → s'.waiters id = some plan ∧ s'.sent id = s.sent id
  running : ∀ transferId job, s.running transferId = some job → job.planId ≠ planId → s'.running transferId = some job

theorem past_woken {plan : TransferPlanId} {decision : ConflictDecision} (kept : s.JobKept job)
    (inTime : s.InTime (.resolveWaitersForPlan plan decision) job) : (s.resolveWaitersForPlan job.planId decision).Past job := by
  cases here : job.phase with
  | prompted id =>
    rw [Past, here]
    rcases kept.waits id (Or.inr here) with waiting | sent
    · simp only [resolveWaitersForPlan, if_pos waiting]
      simp
    · have later : Later none s (s.resolveWaitersForPlan job.planId decision) := resolveWaiters_later s job.planId decision
      exact later.sent id sent
  | decided | spreading | settled =>
    rw [Past, here]
    trivial
  | checking | numbered | registered =>
    simp only [InTime, here] at inTime

theorem past_renamed {plan : TransferPlanId} {policy : ConflictPolicy} (inTime : s.InTime (.setPlanPolicy plan policy) job) :
    s.Past job := by
  cases here : job.phase with
  | prompted id =>
    simp only [InTime, here] at inTime
    rw [Past, here]
    exact inTime
  | decided | spreading | settled =>
    rw [Past, here]
    trivial
  | checking | numbered | registered =>
    simp only [InTime, here] at inTime

theorem settled_applied {transferId : TransferId} {mine : ConflictJob} (policy : s.AsksNoMore planId) (past : s.Past mine)
    (others : ∀ t job, t ≠ transferId → s.running t = some job → job.planId = planId → s.Past job) :
    (s.setJob transferId (some mine)).SettledPlan planId where
  policy := policy
  jobs t job here same := by
    by_cases own : t = transferId
    · subst own
      rw [setJob_self] at here
      cases here
      exact past
    · rw [setJob_other s _ own] at here
      exact others t job own here same

theorem leavesOthers_setJob {transferId : TransferId} {mine after : ConflictJob} (left : LeavesOthers planId s s')
    (here : s.running transferId = some mine) (own : mine.planId = planId) :
    LeavesOthers planId s (s'.setJob transferId (some after)) where
  policies := left.policies
  waiters := left.waiters
  running t job there apart := by
    have other : t ≠ transferId := by
      rintro rfl
      rw [here] at there
      cases there
      exact apart own
    rw [setJob_other s' _ other]
    exact left.running t job there apart

theorem setPlanPolicy_leaves (s : Conflicts) (planId : TransferPlanId) (policy : ConflictPolicy) :
    LeavesOthers planId s { s with planPolicies := Function.update s.planPolicies planId (some policy) } where
  policies _ apart := Function.update_of_ne apart ..
  waiters _ _ _ waiting := ⟨waiting, rfl⟩
  running _ _ there _ := there

theorem resolveWaiters_leaves (s : Conflicts) (planId : TransferPlanId) (decision : ConflictDecision) :
    LeavesOthers planId s (s.resolveWaitersForPlan planId decision) where
  policies _ _ := rfl
  waiters id plan apart waiting := by
    have foreign : s.waiters id ≠ some planId := by
      rw [waiting]
      simpa using apart
    exact ⟨(if_neg foreign).trans waiting, if_neg foreign⟩
  running _ _ there _ := there

theorem told_leaves (kept : s.Kept) {transferId : TransferId} {answers : (op : JobOp) → op.Answer} {op : JobOp}
    (out : (s.step (.ask transferId answers)).2 = some (planId, op)) (tells : op.TellsPlan) :
    LeavesOthers planId s (s.step (.ask transferId answers)).1 := by
  have moved := step_moved s (.ask transferId answers)
  rw [out] at moved
  generalize (s.step (.ask transferId answers)).1 = s' at moved ⊢
  cases moved with
  | @asked _ _ _ phase _ next answer s' here served =>
    have may := (kept.jobs transferId _ here).keeps.1
    cases op with
    | resolveWaitersForPlan plan decision =>
      obtain ⟨-, rfl⟩ := may
      cases served
      exact leavesOthers_setJob (resolveWaiters_leaves s plan decision) here rfl
    | setPlanPolicy plan policy =>
      obtain ⟨-, rfl, -⟩ := may
      cases served
      exact leavesOthers_setJob (setPlanPolicy_leaves s plan policy) here rfl
    | _ => exact tells.elim

theorem applied_settles (kept : s.Kept) {transferId : TransferId} {answers : (op : JobOp) → op.Answer} {op : JobOp}
    (timely : s.Timely (.ask transferId answers)) (out : (s.step (.ask transferId answers)).2 = some (planId, op))
    (applies : op.AppliesToAll) :
    (s.step (.ask transferId answers)).1.SettledPlan planId := by
  have moved := step_moved s (.ask transferId answers)
  rw [out] at moved
  generalize (s.step (.ask transferId answers)).1 = s' at moved ⊢
  cases moved with
  | @asked _ _ _ phase _ next answer s' here served =>
    have mine := kept.jobs transferId _ here
    have may := mine.keeps.1
    have inTime := timely _ op next here rfl applies
    cases op with
    | resolveWaitersForPlan plan decision =>
      obtain ⟨rfl, rfl⟩ := may
      cases served
      refine settled_applied (mine.spreads rfl) trivial fun t job own there same => ?_
      subst same
      exact past_woken (kept.jobs t job there) (inTime t job own there rfl)
    | setPlanPolicy plan policy =>
      obtain ⟨rfl, rfl, asks⟩ := may
      cases served
      cases policy with
      | renameAll strategy =>
        refine settled_applied ⟨_, Function.update_self .., asks⟩ trivial fun t job own there same => ?_
        have past : s.Past job := past_renamed (inTime t job own there same)
        exact past
      | _ => exact applies.elim
    | _ => exact applies.elim

/-- No step of applying a decision to its whole plan changes anything of another plan, and once it has been applied, no job of
the plan prompts any more, and none waits. -/
def ApplySettles (moves : List ConflictMove) : Prop :=
  ∀ before move after planId op, moves = before ++ move :: after →
    ((machine.run {} before).step move).2 = some (planId, op) →
      (op.TellsPlan → LeavesOthers planId (machine.run {} before) ((machine.run {} before).step move).1) ∧
        (op.AppliesToAll →
          (∀ later ∈ machine.log ((machine.run {} before).step move).1 after, ∀ prompt,
            later.2 ≠ some (planId, .emit (.transfer (.conflict prompt)))) ∧
          ∀ transferId job, (machine.run {} moves).running transferId = some job → job.planId = planId →
            ¬(machine.run {} moves).Waits job)

theorem past_waits (kept : s.JobKept job) (past : s.Past job) : ¬s.Waits job := by
  rintro ⟨id, next, rest, unsent⟩
  have keeps := kept.keeps
  rw [rest] at keeps
  have phase : job.phase = .prompted id := keeps.1
  rw [Past, phase] at past
  exact past unsent

theorem kept_run (moves : List ConflictMove) : (machine.run {} moves).Kept := by
  have initially : Kept {} := ⟨fun _ _ never => (by cases never), fun _ _ _ _ _ never => (by cases never)⟩
  exact machine.run_invariant (I := Kept) (fun _ move kept => kept_step kept move) initially moves

/-- In every run whose decisions for whole plans are applied in time, they settle their plans. -/
theorem timely_applies_settle (moves : List ConflictMove) (timely : machine.Admissible Timely {} moves) : ApplySettles moves := by
  rintro before move after planId op rfl out
  have kept := kept_run before
  -- only a job's own operation can be one of these
  have asked : op.TellsPlan → ∃ transferId answers, move = .ask transferId answers := by
    intro tells
    cases move with
    | ask transferId answers => exact ⟨transferId, answers, rfl⟩
    | goOn transferId =>
      simp only [step] at out
      split at out <;> cases out
    | _ => cases out
  refine ⟨fun tells => ?_, fun applies => ?_⟩
  · obtain ⟨transferId, answers, rfl⟩ := asked tells
    exact told_leaves kept out tells
  have inTime := (machine.admissible_iff_split.mp timely) before move after rfl
  have settled : ((machine.run {} before).step move).1.SettledPlan planId := by
    obtain ⟨transferId, answers, rfl⟩ := asked applies.tells
    exact applied_settles kept inTime out applies
  have through := machine.log_invariant (I := fun past s => s.Kept ∧ s.SettledPlan planId ∧ ∀ later ∈ past, ∀ prompt,
      later.2 ≠ some (planId, .emit (.transfer (.conflict prompt))))
    (fun past s move held => ?_) ⟨kept_step kept move, settled, fun _ never => absurd never List.not_mem_nil⟩ after
  · obtain ⟨kept', settled', silent⟩ := through
    refine ⟨silent, fun transferId job here same => ?_⟩
    rw [machine.run_append] at here ⊢
    exact past_waits (kept'.jobs transferId job here) (settled'.jobs transferId job here same)
  · obtain ⟨kept, settled, silent⟩ := held
    obtain ⟨settled, quiet⟩ := settled_step kept settled move
    refine ⟨kept_step kept move, settled, fun later mem => ?_⟩
    rcases List.mem_append.mp mem with old | new
    · exact silent later old
    · obtain rfl := List.mem_singleton.mp new
      exact quiet

theorem running_started {moves : List ConflictMove} {transferId : TransferId}
    (here : (machine.run s moves).running transferId ≠ none) :
    s.running transferId ≠ none ∨ ∃ job planId, .start job planId ∈ moves ∧ job.id = transferId := by
  induction moves generalizing s with
  | nil => exact Or.inl here
  | cons move moves ih =>
    rcases ih here with before | ⟨job, planId, mem, named⟩
    · have moved := step_moved s move
      change (s.step move).1.running transferId ≠ none at before
      revert moved before
      generalize (s.step move).1 = s'
      generalize (s.step move).2 = out
      intro moved before
      cases moved with
      | still _ _ running => exact Or.inl (running ▸ before)
      | began job planId _ =>
        by_cases own : transferId = job.id
        · exact Or.inr ⟨job, planId, List.mem_cons_self, own.symm⟩
        · rw [setJob_other s _ own] at before
          exact Or.inl before
      | wentOn other =>
        by_cases own : transferId = other
        · subst own
          exact absurd (setJob_self s transferId none) before
        · rw [setJob_other s _ own] at before
          exact Or.inl before
      | @asked other answers planId phase op next answer s' running served =>
        by_cases own : transferId = other
        · subst own
          exact Or.inl (by simp [running])
        · rw [setJob_other s' _ own, serve_running served] at before
          exact Or.inl before
    · exact Or.inr ⟨job, planId, List.mem_cons_of_mem _ mem, named⟩

/-- Two files that are there at both ends. -/
def namesakes : JobWorld where
  files _ path :=
    if ["/a/one".toList, "/a/two".toList, "/b/one".toList, "/b/two".toList].contains path then some (.file []) else none

def uploadNamed (n : Nat) (name : String) : TransferJob :=
  ⟨⟨n⟩, .upload, .local ⟨("/a/" ++ name).toList⟩, .remote ⟨("/b/" ++ name).toList⟩, .queued, {}, .ask, [], ⟨0⟩⟩

def asks (n : Nat) : ConflictMove := .ask ⟨n⟩ fun op => (Server.serve {} op namesakes).1

/-- Two jobs of a plan have prompted. -/
def bothPrompt : List ConflictMove :=
  [.enqueue ⟨1⟩ .ask, .start (uploadNamed 1 "one") ⟨1⟩, .start (uploadNamed 2 "two") ⟨1⟩] ++ List.replicate 6 (asks 1) ++
    List.replicate 6 (asks 2)

/-- The first is told to overwrite everything. -/
def overwritten : List ConflictMove := bothPrompt ++ [.resolve ⟨1⟩ (.overwrite true)] ++ List.replicate 3 (asks 1)

def renamed : List ConflictMove := bothPrompt ++ [.resolve ⟨1⟩ (.rename "other" true)] ++ List.replicate 3 (asks 1)

/-- No job is about to apply a decision to its plan. -/
def calm (s : Conflicts) : ConflictMove → Bool
  | .ask transferId _ =>
    match s.running transferId with
    | some ⟨_, _, .ask (.resolveWaitersForPlan ..) _⟩ | some ⟨_, _, .ask (.setPlanPolicy _ (.renameAll _)) _⟩ => false
    | _ => true
  | _ => true

theorem timely_calm {move : ConflictMove} (still : s.calm move = true) : s.Timely move := by
  cases move with
  | ask transferId answers =>
    rintro ⟨planId, phase, _⟩ op next here rfl applies
    simp only [calm, here] at still
    unfold JobOp.AppliesToAll at applies
    split at applies
    · cases still
    · cases still
    · exact applies.elim
  | _ => trivial

theorem overwritten_settles :
    ((machine.run {} overwritten).step (asks 1)).2 = some (⟨1⟩, .resolveWaitersForPlan ⟨1⟩ (.overwrite false)) ∧
      ApplySettles (overwritten ++ [asks 1]) := by
  refine ⟨rfl, timely_applies_settle _ ((machine.admissible_append _ _ _).mpr ⟨?_, ?_, trivial⟩)⟩
  · have still : machine.Admissible (fun s move => s.calm move = true) {} overwritten := by decide +kernel
    exact machine.admissible_mono (fun _ _ => timely_calm) still
  · intro job op next here rest applies other late apart there plan
    have first : ∃ rest, (machine.run {} overwritten).running ⟨1⟩ =
        some ⟨⟨1⟩, .spreading, .ask (.resolveWaitersForPlan ⟨1⟩ (.overwrite false)) rest⟩ := ⟨_, rfl⟩
    have second : ∃ rest, (machine.run {} overwritten).running ⟨2⟩ = some ⟨⟨1⟩, .prompted ⟨2⟩, rest⟩ := ⟨_, rfl⟩
    obtain ⟨_, first⟩ := first
    obtain ⟨_, second⟩ := second
    rw [first] at here
    cases here
    cases rest
    rcases running_started (by rw [there]; simp) with never | ⟨started, planId, mem, rfl⟩
    · exact absurd rfl never
    · simp only [overwritten, bothPrompt, asks, List.mem_append, List.mem_cons, List.mem_replicate,
        List.not_mem_nil, or_false] at mem
      rcases mem with ((((never | same | same) | ⟨_, never⟩) | ⟨_, never⟩) | never) | ⟨_, never⟩
      · cases never
      · cases same
        exact absurd rfl apart
      · cases same
        obtain rfl := Option.some.inj (second.symm.trans there)
        trivial
      all_goals cases never

theorem rename_leaves_waiting : ¬∀ moves, ApplySettles moves := by
  intro every
  obtain ⟨_, released⟩ := (every (renamed ++ [asks 1]) renamed (asks 1) [] ⟨1⟩
    (.setPlanPolicy ⟨1⟩ (.renameAll (.explicitName "other"))) rfl rfl).2 trivial
  exact released ⟨2⟩ _ rfl rfl ⟨⟨2⟩, _, rfl, rfl⟩

end Conflicts

end MacSftp
