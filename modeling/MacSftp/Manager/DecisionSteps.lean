import MacSftp.Manager.Decisions

namespace MacSftp

open Lib Program

namespace Conflicts

def AsksNoMore (s : Conflicts) (planId : TransferPlanId) : Prop := ∃ policy, s.planPolicies planId = some policy ∧ policy ≠ .ask

/-- What is true of a running job. -/
structure JobKept (s : Conflicts) (job : ConflictJob) : Prop where
  keeps : Keeps (conflictProtocol job.planId) (fun _ _ => True) job.phase job.rest
  bound : ∀ id, job.phase.request = some id → id.raw < s.nextId
  waits : ∀ id, job.phase = .registered id ∨ job.phase = .prompted id → s.waiters id = some job.planId ∨ s.sent id ≠ none
  spreads : job.phase = .spreading → s.AsksNoMore job.planId

structure Kept (s : Conflicts) : Prop where
  jobs : ∀ transferId job, s.running transferId = some job → s.JobKept job
  apart : ∀ t u a b id, s.running t = some a → s.running u = some b → a.phase.request = some id → b.phase.request = some id → t = u

/-- What the table may come to while the job with the request `own` moves. -/
structure Later (own : Option ConflictRequestId) (s s' : Conflicts) : Prop where
  nextId : s.nextId ≤ s'.nextId
  sent : ∀ id, s.sent id ≠ none → s'.sent id ≠ none
  waiters : ∀ id planId, own ≠ some id → s.waiters id = some planId → s'.waiters id = some planId ∨ s'.sent id ≠ none
  policies : ∀ planId, s.AsksNoMore planId → s'.AsksNoMore planId

variable {s s' : Conflicts} {own : Option ConflictRequestId} {job : ConflictJob} {planId : TransferPlanId}

theorem Later.refl (s : Conflicts) : Later own s s := ⟨Nat.le_refl _, fun _ h => h, fun _ _ _ h => Or.inl h, fun _ h => h⟩

theorem JobKept.later (kept : s.JobKept job) (later : Later own s s')
    (foreign : ∀ id, job.phase.request = some id → own ≠ some id) :
    s'.JobKept job where
  keeps := kept.keeps
  bound id named := Nat.lt_of_lt_of_le (kept.bound id named) later.nextId
  waits id phase := by
    rcases kept.waits id phase with waiting | sent
    · refine later.waiters id job.planId (foreign id ?_) waiting
      rcases phase with phase | phase <;> rw [phase] <;> rfl
    · exact Or.inr (later.sent id sent)
  spreads phase := later.policies job.planId (kept.spreads phase)

section Serve

variable {phase : ConflictPhase} {transferId : TransferId} {op : JobOp} {given answer : op.Answer}

theorem resolveWaiters_later (s : Conflicts) (planId : TransferPlanId) (decision : ConflictDecision) :
    Later own s (s.resolveWaitersForPlan planId decision) where
  nextId := Nat.le_refl _
  sent id sent := by
    simp only [resolveWaitersForPlan]
    split
    · simp
    · exact sent
  waiters id plan _ waiting := by
    simp only [resolveWaitersForPlan]
    by_cases woken : s.waiters id = some planId
    · rw [if_pos woken, if_pos woken]
      exact Or.inr (by simp)
    · rw [if_neg woken]
      exact Or.inl waiting
  policies plan h := h

theorem setPlanPolicy_later (s : Conflicts) (planId : TransferPlanId) {policy : ConflictPolicy} (asks : policy ≠ .ask) :
    Later own s { s with planPolicies := Function.update s.planPolicies planId (some policy) } where
  nextId := Nat.le_refl _
  sent _ sent := sent
  waiters _ _ _ waiting := Or.inl waiting
  policies plan h := by
    by_cases same : plan = planId
    · subst same
      exact ⟨policy, Function.update_self .., asks⟩
    · obtain ⟨old, set, asks⟩ := h
      exact ⟨old, (Function.update_of_ne same ..).trans set, asks⟩

theorem waiters_later (s : Conflicts) (id : ConflictRequestId) (waiter : Option TransferPlanId) :
    Later (some id) s { s with waiters := Function.update s.waiters id waiter } where
  nextId := Nat.le_refl _
  sent _ sent := sent
  waiters other plan apart waiting := by
    refine Or.inl ((Function.update_of_ne ?_ ..).trans waiting)
    rintro rfl
    exact apart rfl
  policies _ h := h

theorem serve_running (served : s.serve transferId op given = some (answer, s')) : s'.running = s.running := by
  cases op with
  | decision id =>
    simp only [serve] at served
    split at served
    · cases served
      rfl
    · split at served <;> cases served
      rfl
  | _ =>
    cases served
    rfl

/-- What a job does to the table leaves the others what they need. -/
theorem serve_later (may : (conflictProtocol planId).may phase op) (served : s.serve transferId op given = some (answer, s')) :
    Later phase.request s s' := by
  cases op with
  | nextRequestId =>
    cases served
    exact ⟨Nat.le_succ _, fun _ h => h, fun _ _ _ h => Or.inl h, fun _ h => h⟩
  | registerWaiter id plan =>
    obtain ⟨rfl, rfl⟩ := may
    cases served
    exact waiters_later s id _
  | decision id =>
    simp only [serve] at served
    split at served
    · cases served
      exact .refl s
    · split at served <;> cases served
      exact .refl s
  | removeWaiter id =>
    obtain rfl := may
    cases served
    exact waiters_later s id _
  | setPlanPolicy plan policy =>
    obtain ⟨rfl, rfl, asks⟩ := may
    cases served
    exact setPlanPolicy_later s plan asks
  | resolveWaitersForPlan plan decision =>
    cases served
    exact resolveWaiters_later s plan decision
  | _ =>
    cases served
    exact .refl s

theorem jobKept_free {rest : JobM TransferJob} (keeps : Keeps (conflictProtocol planId) (fun _ _ => True) phase rest)
    (free : phase.request = none) (spreads : phase = .spreading → s.AsksNoMore planId) : s.JobKept ⟨planId, phase, rest⟩ where
  keeps := keeps
  bound id named := by
    rw [free] at named
    cases named
  waits id phase := by
    rcases phase with rfl | rfl <;> cases free
  spreads := spreads

/-- The job that has been served is as it should be after it. -/
theorem serve_own {next : op.Answer → JobM TransferJob} (kept : s.JobKept ⟨planId, phase, .ask op next⟩)
    (served : s.serve transferId op given = some (answer, s')) :
    s'.JobKept ⟨planId, (conflictProtocol planId).after phase op answer, next answer⟩ ∧
      ∀ id, ((conflictProtocol planId).after phase op answer).request = some id → phase.request = some id ∨ id.raw = s.nextId := by
  obtain ⟨may, keeps⟩ := kept.keeps
  have later := serve_later may served
  have keeps := keeps answer
  cases op with
  | nextRequestId =>
    cases served
    refine ⟨⟨keeps, ?_, ?_, ?_⟩, ?_⟩
    · rintro _ ⟨⟩
      exact Nat.lt_succ_self _
    · rintro _ (never | never) <;> cases never
    · rintro ⟨⟩
    · rintro _ ⟨⟩
      exact Or.inr rfl
  | registerWaiter id plan =>
    obtain ⟨rfl, rfl⟩ := may
    cases served
    refine ⟨⟨keeps, fun _ named => kept.bound _ named, ?_, ?_⟩, fun _ named => Or.inl named⟩
    · rintro _ (⟨⟨⟩⟩ | never)
      · exact Or.inl (Function.update_self ..)
      · cases never
    · rintro ⟨⟩
  | emit event =>
    cases event with
    | transfer event =>
      cases event with
      | conflict prompt =>
        obtain ⟨rfl, _⟩ := may
        cases served
        cases given with
        | false => exact ⟨jobKept_free keeps rfl (by rintro ⟨⟩), fun _ never => by cases never⟩
        | true =>
          refine ⟨⟨keeps, fun _ named => kept.bound _ named, ?_, ?_⟩, fun _ named => Or.inl named⟩
          · rintro id (never | same)
            · cases never
            · cases same
              exact kept.waits _ (Or.inl rfl)
          · rintro ⟨⟩
      | _ => exact may.elim
    | _ => exact may.elim
  | decision id =>
    obtain rfl := may
    refine ⟨⟨keeps, fun _ named => Nat.lt_of_lt_of_le (kept.bound _ named) later.nextId, ?_, ?_⟩, fun _ named => Or.inl named⟩
    · rintro _ (never | never) <;> cases never
    · rintro ⟨⟩
  | removeWaiter id =>
    exact ⟨jobKept_free keeps rfl (by rintro ⟨⟩), fun _ never => by cases never⟩
  | setPlanPolicy plan policy =>
    obtain ⟨rfl, rfl, asks⟩ := may
    cases served
    have set : AsksNoMore { s with planPolicies := Function.update s.planPolicies plan (some policy) } plan :=
      ⟨policy, Function.update_self .., asks⟩
    cases policy with
    | ask => exact absurd rfl asks
    | overwriteAll | skipAll | renameAll strategy => exact ⟨jobKept_free keeps rfl fun _ => set, fun _ never => by cases never⟩
  | resolveWaitersForPlan plan decision =>
    exact ⟨jobKept_free keeps rfl (by rintro ⟨⟩), fun _ never => by cases never⟩
  | stat path | lstat path | symlinkMetadata path =>
    cases served
    exact ⟨⟨keeps, kept.bound, kept.waits, kept.spreads⟩, fun _ named => Or.inl named⟩
  | _ => exact may.elim

end Serve

/-- The job as it starts, under the policy that its plan has by then. -/
def started (s : Conflicts) (job : TransferJob) (planId : TransferPlanId) : TransferJob :=
  { job with conflictPolicy := (s.planPolicies planId).getD job.conflictPolicy }

/-- What a step can do. -/
inductive Moved (s : Conflicts) : ConflictMove → Conflicts → Option (TransferPlanId × JobOp) → Prop
  | still (move : ConflictMove) {s' : Conflicts} : Later none s s' → s'.running = s.running → Moved s move s' none
  | began (job : TransferJob) (planId : TransferPlanId) : s.running job.id = none →
      Moved s (.start job planId)
        (s.setJob job.id (some ⟨planId, .of (s.started job planId), resolveTransferConflict (s.started job planId) planId⟩)) none
  | wentOn (transferId : TransferId) : Moved s (.goOn transferId) (s.setJob transferId none) none
  | asked {transferId : TransferId} {answers : (op : JobOp) →
      op.Answer} {planId : TransferPlanId} {phase : ConflictPhase} {op : JobOp}
      {next : op.Answer → JobM TransferJob} {answer : op.Answer} {s' : Conflicts} :
      s.running transferId = some ⟨planId, phase, .ask op next⟩ → s.serve transferId op (answers op) = some (answer, s') →
      Moved s (.ask transferId answers)
        (s'.setJob transferId (some ⟨planId, (conflictProtocol planId).after phase op answer, next answer⟩)) (some (planId, op))

theorem enqueue_later (s : Conflicts) (planId : TransferPlanId) (policy : ConflictPolicy) :
    Later none s { s with planPolicies := Function.update s.planPolicies planId (some ((s.planPolicies planId).getD policy)) } where
  nextId := Nat.le_refl _
  sent _ sent := sent
  waiters _ _ _ waiting := Or.inl waiting
  policies plan h := by
    obtain ⟨old, set, asks⟩ := h
    refine ⟨old, ?_, asks⟩
    by_cases same : plan = planId
    · subst same
      rw [set]
      exact Function.update_self ..
    · exact (Function.update_of_ne same ..).trans set

theorem resolve_later (s : Conflicts) (requestId : ConflictRequestId) (decision : ConflictDecision) :
    Later none s (s.resolve requestId decision) ∧ (s.resolve requestId decision).running = s.running := by
  unfold resolve
  split
  · refine ⟨⟨Nat.le_refl _, fun id sent => ?_, fun id plan _ waiting => ?_, fun _ h => h⟩, rfl⟩
    · by_cases same : id = requestId
      · subst same
        simp
      · exact (Function.update_of_ne same ..).trans_ne sent
    · by_cases same : id = requestId
      · subst same
        simp
      · exact Or.inl ((Function.update_of_ne same ..).trans waiting)
  · exact ⟨.refl s, rfl⟩

theorem step_moved (s : Conflicts) (move : ConflictMove) : Moved s move (s.step move).1 (s.step move).2 := by
  cases move with
  | enqueue planId policy => exact .still _ (enqueue_later s planId policy) rfl
  | start job planId =>
    simp only [step, start]
    split
    · exact .still _ (.refl s) rfl
    · exact .began job planId ‹_›
  | ask transferId answers =>
    simp only [step, askNext]
    split
    · split
      · exact .asked ‹_› ‹_›
      · exact .still _ (.refl s) rfl
    · exact .still _ (.refl s) rfl
  | goOn transferId =>
    simp only [step]
    split
    · exact .wentOn transferId
    · exact .still _ (.refl s) rfl
  | resolve requestId decision =>
    obtain ⟨later, running⟩ := resolve_later s requestId decision
    exact .still _ later running
  | cancel transferId => exact .still _ ⟨Nat.le_refl _, fun _ h => h, fun _ _ _ h => Or.inl h, fun _ h => h⟩ rfl

theorem setJob_self (s : Conflicts) (transferId : TransferId) (job : Option ConflictJob) :
    (s.setJob transferId job).running transferId = job := Function.update_self ..

theorem setJob_other (s : Conflicts) {transferId other : TransferId} (job : Option ConflictJob) (apart : other ≠ transferId) :
    (s.setJob transferId job).running other = s.running other := Function.update_of_ne apart ..

theorem JobKept.setJob (kept : s.JobKept job) (transferId : TransferId) (other : Option ConflictJob) :
    (s.setJob transferId other).JobKept job := ⟨kept.keeps, kept.bound, kept.waits, kept.spreads⟩

/-- A job has been put in place of what ran under its id, and the others are as they should be. -/
theorem kept_setJob {transferId : TransferId} {job : ConflictJob} (own : s.JobKept job)
    (others : ∀ other job, other ≠ transferId → s.running other = some job → s.JobKept job)
    (alone : ∀ other late id, other ≠ transferId → s.running other = some late → late.phase.request = some id →
      job.phase.request ≠ some id)
    (apart : ∀ t u a b id, t ≠ transferId → u ≠ transferId → s.running t = some a → s.running u = some b →
      a.phase.request = some id → b.phase.request = some id → t = u) : (s.setJob transferId (some job)).Kept where
  jobs other late running := by
    by_cases same : other = transferId
    · subst same
      rw [setJob_self] at running
      cases running
      exact own.setJob _ _
    · rw [setJob_other s _ same] at running
      exact (others other late same running).setJob _ _
  apart t u a b id ht hu ha hb := by
    by_cases first : t = transferId
    · by_cases second : u = transferId
      · rw [first, second]
      · subst first
        rw [setJob_self] at ht
        rw [setJob_other s _ second] at hu
        cases ht
        exact absurd ha (alone u b id second hu hb)
    · rw [setJob_other s _ first] at ht
      by_cases second : u = transferId
      · subst second
        rw [setJob_self] at hu
        cases hu
        exact absurd hb (alone t a id first ht ha)
      · rw [setJob_other s _ second] at hu
        exact apart t u a b id first second ht hu ha hb

theorem kept_step (kept : s.Kept) (move : ConflictMove) : (s.step move).1.Kept := by
  have moved := step_moved s move
  revert moved
  generalize (s.step move).1 = s'
  generalize (s.step move).2 = out
  intro moved
  cases moved with
  | still _ later running =>
    refine ⟨fun t job here => ?_, fun t u a b id ht hu => ?_⟩
    · rw [running] at here
      exact (kept.jobs t job here).later later fun _ _ never => by cases never
    · rw [running] at ht hu
      exact kept.apart t u a b id ht hu
  | began job planId free =>
    have fresh : (ConflictPhase.of (s.started job planId)).request = none ∧
      ConflictPhase.of (s.started job planId) ≠ .spreading := by
      unfold ConflictPhase.of
      split <;> exact ⟨rfl, by simp⟩
    refine kept_setJob (jobKept_free (keeps_resolveTransferConflict _) fresh.1 fun never => absurd never fresh.2)
      (fun other late _ => kept.jobs other late) (fun _ _ _ _ _ _ => ?_) fun t u a b id _ _ => kept.apart t u a b id
    rw [fresh.1]
    simp
  | wentOn transferId =>
    refine ⟨fun t job here => ?_, fun t u a b id ht hu => ?_⟩
    · by_cases same : t = transferId
      · subst same
        rw [setJob_self] at here
        cases here
      · rw [setJob_other s _ same] at here
        exact (kept.jobs t job here).setJob _ _
    · have stays : ∀ {t job}, (s.setJob transferId none).running t = some job → s.running t = some job := by
        intro t job here
        by_cases same : t = transferId
        · subst same
          rw [setJob_self] at here
          cases here
        · rwa [setJob_other s _ same] at here
      exact kept.apart t u a b id (stays ht) (stays hu)
  | @asked transferId answers planId phase op next answer s' here served =>
    have mine := kept.jobs transferId _ here
    have later := serve_later mine.keeps.1 served
    have running := serve_running served
    obtain ⟨own, requests⟩ := serve_own mine served
    have foreign : ∀ other late id, other ≠ transferId → s.running other = some late → late.phase.request = some id →
        phase.request ≠ some id :=
      fun other late id apart there named same => apart (kept.apart other transferId late _ id there here named same)
    refine kept_setJob own (fun other late apart there => ?_) (fun other late id apart there named =>
      ?_) fun t u a b id _ _ ht hu => ?_
    · rw [running] at there
      exact (kept.jobs other late there).later later fun id named => foreign other late id apart there named
    · rw [running] at there
      intro same
      rcases requests id same with old | fresh
      · exact foreign other late id apart there named old
      · exact absurd ((kept.jobs other late there).bound id named) (by omega)
    · rw [running] at ht hu
      exact kept.apart t u a b id ht hu

end Conflicts

end MacSftp
