import MacSftp.Connect.Answers

namespace MacSftp

open Lib

def AttemptStage.reported : AttemptStage → Bool
  | .settled (.error failure) _ => failure.reported
  | _ => false

theorem AttemptStage.failure_reported {stage : AttemptStage} {error : Option UserFacingError} {failure : ConnectFailure}
    (failing : stage.failure error = some failure) : failure.reported = false ∧ stage.reported = false := by
  unfold AttemptStage.failure at failing
  split at failing <;> cases failing <;> exact ⟨rfl, rfl⟩

namespace ConnectSystem

/-- The connect has started the attempt it is on. -/
def isOwn (s : ConnectSystem) (connect : Connect) : Bool :=
  (s.attempts connect.attempt).any fun attempt => attempt.scope = connect.scope

def reportedTo (s : ConnectSystem) (connect : Connect) : Bool :=
  (s.attempts connect.attempt).any fun attempt => attempt.scope = connect.scope && attempt.stage.reported

/-- How many terminal events there have been in the scope of a connect that is not over. -/
def Counted (past : List (ConnectOp × List ConnectOutput)) (s : ConnectSystem) (connect : Connect) : Prop :=
  match connect.stage with
  | .waiting => answers past connect.scope = if s.reportedTo connect then 1 else 0
  | .delivered (.error failure) => answers past connect.scope = if failure.reported && s.isOwn connect then 1 else 0
  | .delivered (.ok _) | .opening _ => answers past connect.scope = 0
  | _ => True

structure AllCounted (past : List (ConnectOp × List ConnectOutput)) (s : ConnectSystem) : Prop where
  silent : ∀ scope, (∀ number connect, s.connects number = some connect → connect.scope ≠ scope) → answers past scope = 0
  counted : ∀ number connect, s.connects number = some connect → Counted past s connect

section Step

variable {s s' : ConnectSystem} {op : ConnectOp} {outputs : List ConnectOutput} (takes : Takes s op s' outputs)

include takes

theorem told_known (valid : s.Scoped) {number : Nat} {connect after : Connect} (old : s.connects number = some connect)
    (known : s'.connects number = some after) (stays : after.stage = connect.stage) :
    told connect.scope outputs = 0 ∨ told connect.scope outputs = 1 ∧ ∃ reason attempt, op = .authFailed connect.attempt reason ∧
      s.attempts connect.attempt = some attempt ∧ attempt.scope = connect.scope ∧ attempt.stage = .running ∧
      s'.attempts connect.attempt = some { attempt with stage := .settled (.error (.authFailed reason)) false } := by
  rcases told_cases takes connect.scope with nothing | ⟨one, tells⟩
  · exact .inl nothing
  · have moved : ∀ other rival, s.connects other = some rival → rival.scope = connect.scope →
        s'.connects other = some { rival with stage := .ended rival.cancelled } → connect.stage = .ended rival.cancelled := by
      intro other rival found own ended
      obtain rfl := valid.distinct other number rival connect found old own
      rw [known] at ended
      rw [← stays, Option.some.inj ended]
    cases tells with
    | reported attempt maker reason found running own settled =>
      obtain ⟨initiator, first, earlier, mine, on⟩ := valid.initiated attempt maker found
      obtain rfl := valid.distinct initiator number first connect earlier old (mine.trans own)
      obtain rfl := Option.some.inj (old.symm.trans earlier)
      subst on
      exact .inr ⟨one, reason, maker, rfl, found, own, running, settled⟩
    | failed other rival failure found stage own ended =>
      have finished := moved other rival found own ended
      obtain rfl := valid.distinct other number rival connect found old own
      obtain rfl := Option.some.inj (old.symm.trans found)
      rw [stage] at finished
      cases finished
    | notOpened other rival shared error found stage own ended =>
      have finished := moved other rival found own ended
      obtain rfl := valid.distinct other number rival connect found old own
      obtain rfl := Option.some.inj (old.symm.trans found)
      rw [stage] at finished
      cases finished

theorem told_heard (valid : s.Scoped) {number : Nat} {connect after : Connect} (old : s.connects number = some connect)
    (known : s'.connects number = some after) (stays : after.stage = connect.stage) (answered : connect.stage ≠ .waiting)
    (uncancelled : connect.stage ≠ .ended true) : told connect.scope outputs = 0 := by
  rcases told_known takes valid old known stays with nothing | ⟨-, reason, attempt, -, found, own, running, -⟩
  · exact nothing
  · have finished := valid.heard number connect attempt old found own answered uncancelled
    rw [running] at finished
    cases finished

theorem isOwn_kept (fresh : s.FreshScope op) (valid : s.Scoped) {number : Nat} {connect : Connect}
    (old : s.connects number = some connect) : s'.isOwn connect = s.isOwn connect := by
  apply Bool.eq_iff_iff.mpr
  simp only [isOwn, Option.any_eq_true, decide_eq_true_eq]
  constructor
  · rintro ⟨after, on, own⟩
    exact own_before takes fresh old on own
  · rintro ⟨before, on, own⟩
    have move := attempt_move takes connect.attempt
    generalize s'.attempts connect.attempt = moved at move
    cases move with
    | same => exact ⟨before, on, own⟩
    | started _ _ _ _ at_counter =>
      rw [at_counter, valid.attempts _ le_rfl] at on
      cases on
    | staged found here stage advances =>
      obtain rfl := Option.some.inj (on.symm.trans here)
      exact ⟨_, rfl, own⟩

theorem told_authFailed {number : Nat} {reason : UserFacingError} (reports : op = .authFailed number reason)
    {before after : Attempt} (old : s.attempts number = some before) (known : s'.attempts number = some after)
    (moved : after.stage ≠ before.stage) : told before.scope outputs = 1 := by
  subst reports
  cases takes with
  | idle =>
    rw [old] at known
    exact absurd (congrArg Attempt.stage (Option.some.inj known).symm) moved
  | restaged other attempt found _ _ _ restages =>
    cases restages with
    | authFailed _ running =>
      obtain rfl := Option.some.inj (old.symm.trans found)
      simp [told, ConnectOutput.terminal, ConnectionEvent.terminal]
  | proceeded _ _ _ _ _ _ proceeds => cases proceeds

theorem sent_delivers {number : Nat} {connect : Connect} (known : s'.connects number = some connect)
    (sends : op = .send connect.attempt) {before after : Attempt} (old : s.attempts connect.attempt = some before)
    (on : s'.attempts connect.attempt = some after) (moved : after.stage ≠ before.stage) : connect.stage ≠ .waiting := by
  generalize target : connect.attempt = attempt at *
  subst sends
  cases takes with
  | idle =>
    rw [old] at on
    exact absurd (congrArg Attempt.stage (Option.some.inj on).symm) moved
  | restaged _ _ _ _ _ _ restages => cases restages
  | proceeded _ _ _ _ _ _ proceeds => cases proceeds
  | sent _ found _ result completed stage =>
    intro waiting
    simp only [send, withStage] at known
    obtain ⟨earlier, -, same⟩ := Option.map_eq_some_iff.mp known
    unfold Connect.receive at same
    split_ifs at same with waits
    · subst same
      cases waiting
    · subst same
      simp [Connect.waitsOn, target, waiting] at waits

omit takes in
theorem reported_advances {number : Nat} {before : Attempt} {stage : AttemptStage} (advances : Advances s number before op stage)
    (silent : ∀ reason, op ≠ .authFailed number reason) (unsent : op ≠ .send number) : stage.reported = before.stage.reported := by
  cases advances with
  | restaged op stage outputs restages =>
    cases restages with
    | heeded _ decision stage =>
      rw [stage]
      split_ifs <;> rfl
    | mismatched details stage => rw [stage]; rfl
    | authFailed reason => exact absurd rfl (silent reason)
    | failed error failure failing =>
      obtain ⟨new, old⟩ := AttemptStage.failure_reported failing
      exact new.trans old.symm
  | sent => exact absurd rfl unsent
  | aborted stage => cases stage : before.stage <;> simp_all [AttemptStage.unsettled, AttemptStage.reported]
  | decided _ _ _ stage | prompted _ _ _ _ _ stage | timedOut _ stage | finished _ stage => rw [stage]; rfl
  | succeeded stage => rw [stage]; rfl

theorem reportedTo_kept (fresh : s.FreshScope op) (valid : s.Scoped) {number : Nat} {connect after : Connect}
    (old : s.connects number = some connect) (known : s'.connects number = some after) (on : after.attempt = connect.attempt)
    (waiting : after.stage = .waiting) (silent : told connect.scope outputs = 0) :
    s'.reportedTo connect = s.reportedTo connect := by
  have before_of : ∀ attempt, s'.attempts connect.attempt = some attempt → attempt.scope = connect.scope →
      ∃ before, s.attempts connect.attempt = some before ∧ before.scope = connect.scope ∧
        attempt.stage.reported = before.stage.reported := by
    intro attempt here own
    obtain ⟨before, there, mine⟩ := own_before takes fresh old here own
    refine ⟨before, there, mine, ?_⟩
    by_cases moved : attempt.stage = before.stage
    · rw [moved]
    · rcases attempt_known takes here with ⟨found, same, -, kept | advances⟩ | ⟨fresh, -⟩
      · obtain rfl := Option.some.inj (there.symm.trans same)
        exact absurd kept moved
      · obtain rfl := Option.some.inj (there.symm.trans same)
        apply reported_advances advances
        · rintro reason reports
          have one := told_authFailed takes reports there here moved
          rw [mine, silent] at one
          cases one
        · intro sends
          rw [← on] at sends there here
          exact sent_delivers takes known sends there here moved waiting
      · rw [fresh, valid.attempts _ le_rfl] at there
        cases there
  have own := isOwn_kept takes fresh valid old
  unfold isOwn at own
  unfold reportedTo
  cases here : s'.attempts connect.attempt with
  | none =>
    rw [here] at own
    cases there : s.attempts connect.attempt with
    | none => rfl
    | some before =>
      have other : before.scope ≠ connect.scope := by simpa [there] using own.symm
      simp [other]
  | some attempt =>
    by_cases mine : attempt.scope = connect.scope
    · obtain ⟨before, there, same, reported⟩ := before_of attempt here mine
      simp [there, same, mine, reported]
    · rw [here] at own
      cases there : s.attempts connect.attempt with
      | none => simp [mine]
      | some before =>
        have other : before.scope ≠ connect.scope := by simpa [there, mine] using own.symm
        simp [other, mine]

theorem silent_kept (valid : s.Scoped) {past : List (ConnectOp × List ConnectOutput)} (all : AllCounted past s)
    {scope : RemoteEventScope} (free : ∀ number connect, s'.connects number = some connect → connect.scope ≠ scope) :
    answers (past ++ [(op, outputs)]) scope = 0 := by
  have before : ∀ number connect, s.connects number = some connect → connect.scope ≠ scope := by
    intro number connect old own
    obtain ⟨after, known, same, -⟩ := connect_stays takes old (valid.connects _ le_rfl)
    exact free number after known (same.trans own)
  have nothing : told scope outputs = 0 := by
    rcases told_cases takes scope with nothing | ⟨-, tells⟩
    · exact nothing
    · cases tells with
      | reported attempt maker reason found running own =>
        obtain ⟨initiator, first, earlier, mine, -⟩ := valid.initiated attempt maker found
        exact absurd (mine.trans own) (before initiator first earlier)
      | failed number connect failure found stage own => exact absurd own (before number connect found)
      | notOpened number connect shared error found stage own => exact absurd own (before number connect found)
  rw [answers_concat, all.silent scope before, nothing]

theorem counted_stays (fresh : s.FreshScope op) (valid : s.Scoped) {past : List (ConnectOp × List ConnectOutput)} {number : Nat}
    {connect after : Connect} (old : s.connects number = some connect) (known : s'.connects number = some after)
    (scope : after.scope = connect.scope) (on : after.attempt = connect.attempt) (stays : after.stage = connect.stage)
    (counted : Counted past s connect) : Counted (past ++ [(op, outputs)]) s' after := by
  have same : s'.isOwn after = s.isOwn connect := by
    have kept := isOwn_kept takes fresh valid old
    simpa [isOwn, scope, on] using kept
  unfold Counted at counted ⊢
  rw [scope, stays, same, answers_concat]
  cases stage : connect.stage with
  | waiting =>
    rw [stage] at counted stays
    have report : s'.reportedTo after = s'.reportedTo connect := by simp [reportedTo, scope, on]
    rcases told_known takes valid old known (stays.trans stage.symm) with nothing |
      ⟨one, reason, attempt, -, here, own, running, settled⟩
    · have kept := reportedTo_kept takes fresh valid old known on stays nothing
      simpa [report, kept, nothing] using counted
    · have before : s.reportedTo connect = false := by simp [reportedTo, here, running, AttemptStage.reported]
      have now : s'.reportedTo connect = true := by
        simp [reportedTo, settled, own, AttemptStage.reported, ConnectFailure.reported]
      simpa [report, before, now, one] using counted
  | delivered result =>
    have nothing := told_heard takes valid old known stays (by simp [stage]) (by simp [stage])
    cases result <;> simpa [stage, nothing] using counted
  | opening shared =>
    have nothing := told_heard takes valid old known stays (by simp [stage]) (by simp [stage])
    simpa [stage, nothing] using counted
  | session | sessionOver | ended => trivial

theorem counted_spawned (fresh : s.FreshScope op) (valid : s.Scoped) {past : List (ConnectOp × List ConnectOutput)}
    (all : AllCounted past s) {expired : Bool} (joins : op = .join expired) {command : ConnectTab}
    (dispatching : s.dispatching = some command) {attempt : Nat} {stage : ConnectStage}
    (finds : Finds s command expired attempt stage) :
    Counted (past ++ [(op, outputs)]) s' ⟨command.scope, command.key, attempt, stage, false, false⟩ := by
  subst joins
  have none : answers past command.scope = 0 := by
    apply all.silent
    intro number connect old
    exact fresh command dispatching number connect old
  have nothing : told command.scope outputs = 0 := by
    rcases told_cases takes command.scope with nothing | ⟨-, tells⟩
    · exact nothing
    · cases tells
  have unreported : s'.reportedTo ⟨command.scope, command.key, attempt, .waiting, false, false⟩ = false := by
    simp only [reportedTo]
    cases here : s'.attempts attempt with
    | none => rfl
    | some after =>
      rcases attempt_known takes here with ⟨before, old, shape, -⟩ | ⟨-, _, _, -, -, rfl⟩
      · obtain ⟨initiator, first, earlier, mine, -⟩ := valid.initiated attempt before old
        have scope : after.scope = before.scope := by rw [shape]
        have other : after.scope ≠ command.scope := by
          rw [scope, ← mine]
          exact fresh command dispatching initiator first earlier
        simp [other]
      · simp [AttemptStage.reported]
  unfold Counted
  rw [answers_concat, none, nothing]
  cases finds with
  | joined | started => simp [unreported]
  | reused => rfl

theorem counted_received (fresh : s.FreshScope op) (valid : s.Scoped) {past : List (ConnectOp × List ConnectOutput)} {number : Nat}
    {connect : Connect} (old : s.connects number = some connect) (waiting : connect.stage = .waiting) {attempt : Attempt}
    (on : s.attempts connect.attempt = some attempt) {result : Except ConnectFailure Unit} {completed : Bool}
    (settled : attempt.stage = .settled result completed) (sends : op = .send connect.attempt) (counted : Counted past s connect) :
    Counted (past ++ [(op, outputs)]) s' { connect with stage := .delivered (result.map fun _ => connect.attempt) } := by
  have nothing : told connect.scope outputs = 0 := by
    rcases told_cases takes connect.scope with nothing | ⟨-, tells⟩
    · exact nothing
    · subst sends
      cases tells
  have before : answers past connect.scope = if s.reportedTo connect then 1 else 0 := by simpa [Counted, waiting] using counted
  have own : s'.isOwn connect = s.isOwn connect := isOwn_kept takes fresh valid old
  unfold Counted
  cases result with
  | ok =>
    have unreported : s.reportedTo connect = false := by simp [reportedTo, on, settled, AttemptStage.reported]
    simp [Except.map, answers_concat, nothing, before, unreported]
  | error failure =>
    have reported : s.reportedTo connect = (failure.reported && s.isOwn connect) := by
      simp [reportedTo, isOwn, on, settled, AttemptStage.reported, Bool.and_comm]
    have same : s'.isOwn { connect with stage := .delivered (.error failure) } = s.isOwn connect := own
    simp [Except.map, answers_concat, nothing, before, reported, same]

theorem counted_proceeded (fresh : s.FreshScope op) (valid : s.Scoped) {past : List (ConnectOp × List ConnectOutput)} {number : Nat}
    {connect next : Connect} (old : s.connects number = some connect) (known : s'.connects number = some next)
    (proceeds : Proceeds s number connect op next outputs) (counted : Counted past s connect) :
    Counted (past ++ [(op, outputs)]) s' next := by
  cases proceeds with
  | cancelled => exact counted_stays takes fresh valid old known rfl rfl rfl counted
  | answered shared stage =>
    have none : answers past connect.scope = 0 := by simpa [Counted, stage] using counted
    simpa [Counted, answers_concat, told] using none
  | failed | closed | opened | notOpened | sessionEnded | quit => trivial

theorem allCounted_kept (fresh : s.FreshScope op) (valid : s.Scoped) {past : List (ConnectOp × List ConnectOutput)}
    (all : AllCounted past s) : AllCounted (past ++ [(op, outputs)]) s' where
  silent _ := silent_kept takes valid all
  counted number connect known := by
    have move := connect_move takes number
    rw [known] at move
    generalize after : some connect = moved at move
    cases move with
    | same => exact counted_stays takes fresh valid after.symm known rfl rfl rfl (all.counted number connect after.symm)
    | retired before old =>
      obtain rfl := Option.some.inj after
      exact counted_stays takes fresh valid old known rfl rfl rfl (all.counted number before old)
    | spawned expired command dispatching joins _ attempt stage finds =>
      obtain rfl := Option.some.inj after
      exact counted_spawned takes fresh valid all joins dispatching finds
    | received attempt before old waiting on result completed settled sends =>
      obtain rfl := Option.some.inj after
      exact counted_received takes fresh valid old waiting on settled sends (all.counted number before old)
    | proceeded before old next proceeds =>
      obtain rfl := Option.some.inj after
      exact counted_proceeded takes fresh valid old known proceeds (all.counted number before old)

theorem ended_kept (valid : s.Scoped) {number : Nat} {connect : Connect} (old : s.connects number = some connect)
    (ended : connect.stage = .ended false) :
    told connect.scope outputs = 0 ∧
      ∃ after, s'.connects number = some after ∧ after.scope = connect.scope ∧ after.stage = .ended false := by
  have kept : ∃ after, s'.connects number = some after ∧ after.scope = connect.scope ∧ after.stage = .ended false := by
    have move := connect_move takes number
    generalize s'.connects number = moved at move
    cases move with
    | same => exact ⟨connect, old, rfl, ended⟩
    | retired before found =>
      obtain rfl := Option.some.inj (old.symm.trans found)
      exact ⟨_, rfl, rfl, ended⟩
    | spawned _ _ _ _ at_counter =>
      rw [at_counter, valid.connects _ le_rfl] at old
      cases old
    | received _ before found waiting =>
      obtain rfl := Option.some.inj (old.symm.trans found)
      rw [ended] at waiting
      cases waiting
    | proceeded before found next proceeds =>
      obtain rfl := Option.some.inj (old.symm.trans found)
      cases proceeds with
      | cancelled => exact ⟨_, rfl, rfl, ended⟩
      | answered _ stage | failed _ stage | closed _ stage | opened _ stage | notOpened _ _ stage | sessionEnded _ stage =>
        rw [ended] at stage
        cases stage
      | quit _ stage => simp [ended] at stage
  obtain ⟨after, known, scope, stage⟩ := kept
  exact ⟨told_heard takes valid old known (stage.trans ended.symm) (by simp [ended]) (by simp [ended]), after, known, scope, stage⟩

end Step

/-- Every connect that has ended on its own account has been told so once. -/
def Answered (past : List (ConnectOp × List ConnectOutput)) (s : ConnectSystem) : Prop :=
  ∀ number connect, s.connects number = some connect → connect.stage = .ended false → answers past connect.scope = 1

/-- A connect that was not cancelled does not find its channel closed without a message, nor a failed
authentication that was reported to the connect that had started the attempt. -/
def Reaches (s : ConnectSystem) : ConnectOp → Prop
  | .wake number => ∀ connect, s.connects number = some connect → connect.cancelled = false →
      (connect.stage = .waiting → ∀ attempt, s.attempts connect.attempt = some attempt → attempt.stage ≠ .ended) ∧
      ∀ reason, connect.stage = .delivered (.error (.authFailed reason)) → s.isOwn connect = true
  | _ => True

theorem reported_cases {failure : ConnectFailure} (reported : failure.reported = true) :
    ∃ reason, failure = .authFailed reason := by
  cases failure with
  | authFailed reason => exact ⟨reason, rfl⟩
  | _ => cases reported

theorem answered_after {s s' : ConnectSystem} {op : ConnectOp} {outputs : List ConnectOutput} (takes : Takes s op s' outputs)
    (valid : s.Scoped) {past : List (ConnectOp × List ConnectOutput)} (all : AllCounted past s) (answered : Answered past s)
    (reaches : s.Reaches op) : Answered (past ++ [(op, outputs)]) s' := by
  intro number connect known ended
  have stays : ∀ before, s.connects number = some before → connect.scope = before.scope → before.stage = .ended false →
      answers (past ++ [(op, outputs)]) connect.scope = 1 := by
    intro before old scope stage
    rw [answers_concat, scope, answered number before old stage, (ended_kept takes valid old stage).1]
  have move := connect_move takes number
  rw [known] at move
  generalize after : some connect = moved at move
  cases move with
  | same => exact stays connect after.symm rfl ended
  | retired before old =>
    obtain rfl := Option.some.inj after
    exact stays before old rfl ended
  | spawned _ _ _ _ _ _ _ finds =>
    obtain rfl := Option.some.inj after
    cases finds <;> cases ended
  | received =>
    obtain rfl := Option.some.inj after
    cases ended
  | proceeded before old next proceeds =>
    obtain rfl := Option.some.inj after
    have counted := all.counted number before old
    rw [answers_concat]
    cases proceeds with
    | cancelled => exact (answers_concat past _ [] before.scope).symm.trans (stays before old rfl ended)
    | failed failure stage =>
      have uncancelled : before.cancelled = false := by simpa using ended
      have reached := (reaches before old uncancelled).2
      rw [told_failure]
      simp only [Counted, stage] at counted
      cases reported : failure.reported with
      | false => simp [counted, reported]
      | true =>
        obtain ⟨reason, rfl⟩ := reported_cases reported
        simp [counted, reported, reached reason stage]
    | closed attempt stage on gone =>
      have uncancelled : before.cancelled = false := by simpa using ended
      exact absurd gone ((reaches before old uncancelled).1 stage attempt on)
    | notOpened shared error stage =>
      simp only [Counted, stage] at counted
      simp [counted, told, ConnectOutput.terminal, ConnectionEvent.terminal]
    | answered | opened | sessionEnded | quit => cases ended

theorem answered_before {s s' : ConnectSystem} {op : ConnectOp} {outputs : List ConnectOutput} (takes : Takes s op s' outputs)
    (valid : s.Scoped) {past : List (ConnectOp × List ConnectOutput)} (answered : Answered (past ++ [(op, outputs)]) s') :
    Answered past s := by
  intro number connect old ended
  obtain ⟨nothing, after, known, scope, stage⟩ := ended_kept takes valid old ended
  have once := answered number after known stage
  rw [answers_concat, scope, nothing] at once
  exact once

theorem unanswered_wake {s : ConnectSystem} {past : List (ConnectOp × List ConnectOutput)} (all : AllCounted past s) {number : Nat}
    {connect : Connect} (old : s.connects number = some connect) (uncancelled : connect.cancelled = false)
    (answered : Answered (past ++ [(.wake number, machine.out s (.wake number))]) (machine.next s (.wake number))) :
    (connect.stage = .waiting → ∀ attempt, s.attempts connect.attempt = some attempt → attempt.stage ≠ .ended) ∧
      ∀ reason, connect.stage = .delivered (.error (.authFailed reason)) → s.isOwn connect = true := by
  have counted := all.counted number connect old
  constructor
  · intro stage attempt on gone
    have step : s.step (.wake number) = (s.withConnect number { connect with stage := .ended false }, []) := by
      simp [step, old, proceed, stage, on, gone, uncancelled]
    have once := answered number { connect with stage := .ended false }
      (by simp [Machine.next, machine, step, withConnect]) rfl
    have unreported : s.reportedTo connect = false := by simp [reportedTo, on, gone, AttemptStage.reported]
    simp only [Counted, stage, unreported] at counted
    rw [answers_concat] at once
    simp [Machine.out, machine, step, told, counted] at once
  · intro reason stage
    have step : s.step (.wake number) = (s.withConnect number { connect with stage := .ended false }, []) := by
      simp [step, old, proceed, stage, uncancelled, connectionFailureEvent]
    have once := answered number { connect with stage := .ended false }
      (by simp [Machine.next, machine, step, withConnect]) rfl
    simp only [Counted, stage, ConnectFailure.reported, Bool.true_and] at counted
    rw [answers_concat] at once
    by_contra other
    simp [Machine.out, machine, step, told, counted, other] at once

theorem answered_step {s : ConnectSystem} {past : List (ConnectOp × List ConnectOutput)} (valid : s.Scoped)
    (all : AllCounted past s)
    (op : ConnectOp) :
    Answered (past ++ [(op, machine.out s op)]) (machine.next s op) ↔ Answered past s ∧ s.Reaches op := by
  have takes := step_takes s op
  constructor
  · intro answered
    refine ⟨answered_before takes valid answered, ?_⟩
    cases op with
    | wake number =>
      intro connect old uncancelled
      exact unanswered_wake all old uncancelled answered
    | _ => trivial
  · rintro ⟨answered, reaches⟩
    exact answered_after takes valid all answered reaches

theorem scoped_run (ops : List ConnectOp) (fresh : machine.Admissible FreshScope {} ops) :
    (machine.run {} ops).Scoped ∧ AllCounted (machine.log {} ops) (machine.run {} ops) := by
  refine machine.admissible_log_invariant (I := fun past s => Scoped s ∧ AllCounted past s) ?_ ?_ ops fresh
  · rintro past s op fresh ⟨valid, all⟩
    have takes := step_takes s op
    exact ⟨scoped_kept takes fresh valid, allCounted_kept takes fresh valid all⟩
  · exact ⟨scoped_start, ⟨fun _ _ => rfl, fun _ _ known => by cases known⟩⟩

/-- Every connect that ends on its own account is told so once, in its own scope, exactly if none is left
without a message. -/
theorem answered_iff (ops : List ConnectOp) (fresh : machine.Admissible FreshScope {} ops) :
    Answered (machine.log {} ops) (machine.run {} ops) ↔ machine.Admissible Reaches {} ops := by
  induction ops using List.reverseRecOn with
  | nil => exact iff_of_true (fun _ _ known => by cases known) trivial
  | append_singleton ops op ih =>
    have before := ((machine.admissible_append _ ops [op]).mp fresh).1
    obtain ⟨valid, all⟩ := scoped_run ops before
    have last : machine.Admissible Reaches (machine.run {} ops) [op] ↔ (machine.run {} ops).Reaches op :=
      iff_of_eq (and_true _)
    rw [machine.log_concat, machine.run_concat, answered_step valid all op, ih before, machine.admissible_append, last]

/-- `FreshScope` on a state that can be looked through. -/
def scopeUnused (s : ConnectSystem) (scope : RemoteEventScope) : Bool :=
  (List.range s.nextConnect).all fun number => (s.connects number).all fun connect => connect.scope ≠ scope

theorem freshScope_join {s : ConnectSystem} (known : s.PoolKnown) {expired : Bool} {command : ConnectTab}
    (dispatching : s.dispatching = some command) (unused : s.scopeUnused command.scope = true) : s.FreshScope (.join expired) := by
  intro other same number connect old
  obtain rfl := Option.some.inj (dispatching.symm.trans same)
  have within : number < s.nextConnect := by
    by_contra above
    rw [known.connects number (by omega)] at old
    cases old
  simpa [old] using List.all_eq_true.mp unused number (List.mem_range.mpr within)

theorem poolKnown_run (ops : List ConnectOp) : (machine.run {} ops).PoolKnown :=
  machine.run_invariant (fun s op known => poolKnown_kept (step_takes s op) known) poolKnown_start ops

/-- Two tabs share an attempt. -/
def sharedAttempt : List ConnectOp :=
  [.connectTab (savedConnect 1 1), .join false, .connectTab (savedConnect 2 2), .join false]

theorem sharedAttempt_fresh : machine.Admissible FreshScope {} sharedAttempt := by
  refine ⟨trivial, ?_, trivial, ?_, trivial⟩
  · exact freshScope_join (poolKnown_run [.connectTab (savedConnect 1 1)]) rfl (by decide +kernel)
  · exact freshScope_join (poolKnown_run [.connectTab (savedConnect 1 1), .join false, .connectTab (savedConnect 2 2)]) rfl
      (by decide +kernel)

theorem reaches_delivered {s : ConnectSystem} {number : Nat} {connect : Connect} {failure : ConnectFailure}
    (known : s.connects number = some connect) (stage : connect.stage = .delivered (.error failure))
    (unreported : failure.reported = false) : s.Reaches (.wake number) := by
  intro other same _
  obtain rfl := Option.some.inj (known.symm.trans same)
  rw [stage]
  constructor
  · intro waiting
    cases waiting
  · rintro reason failed
    cases failed
    cases unreported

theorem shared_mismatch_answered :
    let ops := sharedAttempt ++ [.mismatch 1 ⟨"host", 22, none, "key"⟩, .fail 1 none, .send 1, .wake 0, .wake 1]
    Answered (machine.log {} ops) (machine.run {} ops) := by
  refine (answered_iff _ ?_).mpr ?_
  · exact (machine.admissible_append ..).mpr ⟨sharedAttempt_fresh, trivial, trivial, trivial, trivial, trivial, trivial⟩
  · refine (machine.admissible_append ..).mpr ⟨⟨trivial, trivial, trivial, trivial, trivial⟩, trivial, trivial,
      trivial, ?_, ?_, trivial⟩
    · exact reaches_delivered rfl rfl rfl
    · exact reaches_delivered rfl rfl rfl

theorem shared_authFailed_unanswered :
    let ops := sharedAttempt ++ [.authFailed 1 ⟨.authFailed, "", "", none, false⟩, .send 1, .wake 0, .wake 1]
    machine.Admissible FreshScope {} ops ∧ ¬ Answered (machine.log {} ops) (machine.run {} ops) := by
  refine ⟨(machine.admissible_append ..).mpr ⟨sharedAttempt_fresh, trivial, trivial, trivial, trivial, trivial⟩, ?_⟩
  intro answered
  have once := answered 1 _ rfl rfl
  revert once
  decide +kernel

end ConnectSystem

end MacSftp
