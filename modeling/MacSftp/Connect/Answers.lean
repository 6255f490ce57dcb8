import MacSftp.Connect.HandOut

namespace MacSftp

open Lib

def ConnectOutput.terminal (scope : RemoteEventScope) : ConnectOutput → Bool
  | .emitted event => event.terminal scope
  | _ => false

/-- The handshake reports a failed authentication itself, in the scope that started it. -/
def ConnectFailure.reported : ConnectFailure → Bool
  | .authFailed _ => true
  | _ => false

def AttemptStage.over : AttemptStage → Bool
  | .sent _ | .ended => true
  | _ => false

namespace ConnectSystem

/-- How many terminal events the outputs hold for a scope. -/
def told (scope : RemoteEventScope) (outputs : List ConnectOutput) : Nat := outputs.countP (ConnectOutput.terminal scope)

def answers (past : List (ConnectOp × List ConnectOutput)) (scope : RemoteEventScope) : Nat :=
  told scope (past.flatMap Prod.snd)

theorem answers_concat (past : List (ConnectOp × List ConnectOutput)) (op : ConnectOp) (outputs : List ConnectOutput)
    (scope : RemoteEventScope) : answers (past ++ [(op, outputs)]) scope = answers past scope + told scope outputs := by
  simp [answers, told, List.flatMap_append, List.countP_append]

/-- The steps that tell a scope how its connect ended. -/
inductive Tells (s s' : ConnectSystem) (scope : RemoteEventScope) : ConnectOp → Prop
  | reported (number : Nat) (attempt : Attempt) (reason : UserFacingError) (known : s.attempts number = some attempt)
      (running : attempt.stage = .running) (own : attempt.scope = scope)
      (after : s'.attempts number = some { attempt with stage := .settled (.error (.authFailed reason)) false }) :
      Tells s s' scope (.authFailed number reason)
  | failed (number : Nat) (connect : Connect) (failure : ConnectFailure) (known : s.connects number = some connect)
      (stage : connect.stage = .delivered (.error failure)) (own : connect.scope = scope)
      (after : s'.connects number = some { connect with stage := .ended connect.cancelled }) : Tells s s' scope (.wake number)
  | notOpened (number : Nat) (connect : Connect) (shared : Nat) (error : UserFacingError)
      (known : s.connects number = some connect) (stage : connect.stage = .opening shared) (own : connect.scope = scope)
      (after : s'.connects number = some { connect with stage := .ended connect.cancelled }) :
      Tells s s' scope (.openChannel number (some error))

theorem told_failure (scope own : RemoteEventScope) (failure : ConnectFailure) :
    told scope ((connectionFailureEvent own failure).map .emitted).toList =
      if own = scope ∧ failure.reported = false then 1 else 0 := by
  cases failure <;>
    simp [told, connectionFailureEvent, ConnectOutput.terminal, ConnectionEvent.terminal, ConnectFailure.reported, eq_comm,
      List.countP_cons]

section Told

variable {s s' : ConnectSystem} {op : ConnectOp} {outputs : List ConnectOutput} (takes : Takes s op s' outputs)

include takes

theorem told_cases (scope : RemoteEventScope) : told scope outputs = 0 ∨ told scope outputs = 1 ∧ Tells s s' scope op := by
  cases takes with
  | join expired command =>
    left
    unfold join
    split <;> rfl
  | prompted => exact .inl rfl
  | restaged number attempt known op stage outputs restages =>
    cases restages with
    | heeded | mismatched | failed => exact .inl rfl
    | authFailed reason running =>
      by_cases own : attempt.scope = scope
      · right
        exact ⟨by simp [told, ConnectOutput.terminal, ConnectionEvent.terminal, own],
          .reported number attempt reason known running own (Function.update_self ..)⟩
      · left
        simp [told, ConnectOutput.terminal, ConnectionEvent.terminal, own]
  | sent number attempt =>
    left
    unfold send
    split_ifs
    · apply List.countP_eq_zero.mpr
      intro output mem
      obtain ⟨waiter, -, rfl⟩ := List.mem_map.mp mem
      simp [ConnectOutput.terminal]
    · rfl
  | proceeded number connect known op next outputs proceeds =>
    cases proceeds with
    | cancelled | answered | closed | opened | sessionEnded | quit => exact .inl rfl
    | failed failure stage =>
      rw [told_failure]
      split_ifs with tells
      · exact .inr ⟨rfl, .failed number connect failure known stage tells.1 (Function.update_self ..)⟩
      · exact .inl rfl
    | notOpened shared error stage =>
      by_cases own : connect.scope = scope
      · right
        exact ⟨by simp [told, ConnectOutput.terminal, ConnectionEvent.terminal, own],
          .notOpened number connect shared error known stage own (Function.update_self ..)⟩
      · left
        simp [told, ConnectOutput.terminal, ConnectionEvent.terminal, own]
  | _ => exact .inl rfl

end Told

/-- `AppResources::next_session_id` has given the tab's new connect a session of its own. -/
def FreshScope (s : ConnectSystem) : ConnectOp → Prop
  | .join _ => ∀ command, s.dispatching = some command → ∀ number connect, s.connects number = some connect →
      connect.scope ≠ command.scope
  | _ => True

/-- Each scope is of one connect, which started the attempt that has the scope and hears from it. -/
structure Scoped (s : ConnectSystem) : Prop extends PoolKnown s where
  distinct : ∀ number other connect rival, s.connects number = some connect → s.connects other = some rival →
    connect.scope = rival.scope → number = other
  initiated : ∀ number attempt, s.attempts number = some attempt →
    ∃ initiator connect, s.connects initiator = some connect ∧ connect.scope = attempt.scope ∧ connect.attempt = number
  heard : ∀ number connect attempt, s.connects number = some connect → s.attempts connect.attempt = some attempt →
    attempt.scope = connect.scope → connect.stage ≠ .waiting → connect.stage ≠ .ended true → attempt.stage.over = true

section Scoped

variable {s s' : ConnectSystem} {op : ConnectOp} {outputs : List ConnectOutput} (takes : Takes s op s' outputs)

include takes

theorem over_kept {number : Nat} {before after : Attempt} (old : s.attempts number = some before)
    (known : s'.attempts number = some after) (finished : before.stage.over = true) (fresh : s.attempts s.nextAttempt = none) :
    after.stage.over = true := by
  rcases attempt_known takes known with ⟨_, found, -, kept | advances⟩ | ⟨rfl, -⟩
  · obtain rfl := Option.some.inj (old.symm.trans found)
    rwa [kept]
  · obtain rfl := Option.some.inj (old.symm.trans found)
    generalize after.stage = stage at advances ⊢
    cases advances with
    | sent | finished | aborted => rfl
    | restaged op stage outputs restages =>
      cases restages with
      | failed error failure failing => cases stage : before.stage <;> simp [stage, AttemptStage.over,
          AttemptStage.failure] at finished failing
      | heeded _ _ stage | mismatched _ stage | authFailed _ stage => simp [stage, AttemptStage.over] at finished
    | decided _ _ _ stage | prompted _ _ _ _ _ stage | timedOut _ stage | succeeded stage =>
      simp [stage, AttemptStage.over] at finished
  · rw [fresh] at old
    cases old

/-- A receiver gets its message as the attempt sends it. -/
theorem received_over {number : Nat} {before after : Connect} (sends : op = .send before.attempt)
    (old : s.connects number = some before) (known : s'.connects number = some after) (moved : after.stage ≠ before.stage)
    {attempt : Attempt} (on : s'.attempts before.attempt = some attempt) : attempt.stage.over = true := by
  subst sends
  cases takes with
  | idle =>
    rw [old] at known
    exact absurd (congrArg Connect.stage (Option.some.inj known).symm) moved
  | restaged _ _ _ _ _ _ restages => cases restages
  | proceeded _ _ _ _ _ _ proceeds => cases proceeds
  | sent _ found _ result completed stage =>
    simp only [send, withStage, Function.update_self] at on
    obtain rfl := Option.some.inj on
    rfl

theorem distinct_kept (fresh : s.FreshScope op) (valid : s.Scoped) {number other : Nat} {connect rival : Connect}
    (known : s'.connects number = some connect) (second : s'.connects other = some rival) (same : connect.scope = rival.scope) :
    number = other := by
  rcases connect_known takes known with ⟨before, old, scope, -⟩ | ⟨here, expired, command, _, _, rfl, dispatching, -, rfl⟩
  · rcases connect_known takes second with ⟨earlier, known, own, -⟩ | ⟨-, expired, command, _, _, rfl, dispatching, -, rfl⟩
    · exact valid.distinct number other before earlier old known (scope.symm.trans (same.trans own))
    · exact absurd (scope.symm.trans same) (fresh command dispatching number before old)
  · rcases connect_known takes second with ⟨earlier, known, own, -⟩ | ⟨there, -⟩
    · exact absurd (same.trans own).symm (fresh command dispatching other earlier known)
    · exact here.trans there.symm

theorem initiated_kept (valid : s.Scoped) {number : Nat} {attempt : Attempt} (known : s'.attempts number = some attempt) :
    ∃ initiator connect, s'.connects initiator = some connect ∧ connect.scope = attempt.scope ∧ connect.attempt = number := by
  rcases attempt_known takes known with ⟨before, old, shape, -⟩ | ⟨rfl, -⟩
  · obtain ⟨initiator, connect, found, own, on⟩ := valid.initiated number before old
    obtain ⟨after, now, scope, same⟩ := connect_stays takes found (valid.connects _ le_rfl)
    refine ⟨initiator, after, now, ?_, same.trans on⟩
    rw [scope, own, shape]
  · obtain ⟨connect, now, own, on⟩ := started_spawned takes known (valid.attempts _ le_rfl)
    exact ⟨s.nextConnect, connect, now, own, on⟩

/-- The attempt that has a connect's scope had it before. -/
theorem own_before (fresh : s.FreshScope op) {number : Nat} {connect : Connect} (old : s.connects number = some connect)
    {attempt : Nat} {after : Attempt} (on : s'.attempts attempt = some after) (own : after.scope = connect.scope) :
    ∃ before, s.attempts attempt = some before ∧ before.scope = connect.scope := by
  rcases attempt_known takes on with ⟨before, found, shape, -⟩ | ⟨-, expired, command, rfl, dispatching, rfl⟩
  · refine ⟨before, found, ?_⟩
    rw [← own, shape]
  · exact absurd own.symm (fresh command dispatching number connect old)

theorem heard_kept (fresh : s.FreshScope op) (valid : s.Scoped) {number : Nat} {connect : Connect} {attempt : Attempt}
    (known : s'.connects number = some connect) (on : s'.attempts connect.attempt = some attempt)
    (own : attempt.scope = connect.scope) (answered : connect.stage ≠ .waiting) (uncancelled : connect.stage ≠ .ended true) :
    attempt.stage.over = true := by
  have nextFree : s.attempts s.nextAttempt = none := valid.attempts _ le_rfl
  have stays : ∀ before : Connect, s.connects number = some before → connect.attempt = before.attempt →
      connect.scope = before.scope → before.stage ≠ .waiting → before.stage ≠ .ended true → attempt.stage.over = true := by
    intro before old same scope answered uncancelled
    rw [same] at on
    rw [scope] at own
    obtain ⟨earlier, found, mine⟩ := own_before takes fresh old on own
    have finished := valid.heard number before earlier old found mine answered uncancelled
    exact over_kept takes found on finished nextFree
  have move := connect_move takes number
  rw [known] at move
  generalize after : some connect = moved at move
  cases move with
  | same => exact stays connect after.symm rfl rfl answered uncancelled
  | retired before old =>
    obtain rfl := Option.some.inj after
    exact stays before old rfl rfl answered uncancelled
  | spawned expired command dispatching joins _ shared stage finds =>
    obtain rfl := Option.some.inj after
    cases finds with
    | joined | started => exact absurd rfl answered
    | reused _ entry live =>
      obtain ⟨maker, made, -⟩ := valid.owned command.key shared entry
      rcases attempt_known takes on with ⟨before, found, shape, -⟩ | ⟨rfl, -⟩
      · obtain ⟨initiator, first, earlier, mine, -⟩ := valid.initiated shared before found
        have scope : attempt.scope = before.scope := by rw [shape]
        subst joins
        exact absurd (mine.trans (scope.symm.trans own)) (fresh command dispatching initiator first earlier)
      · rw [nextFree] at made
        cases made
  | received _ before old waiting _ result completed settled sends =>
    obtain rfl := Option.some.inj after
    exact received_over takes sends old known (by simp [waiting]) on
  | proceeded before old next proceeds =>
    obtain rfl := Option.some.inj after
    cases proceeds with
    | cancelled => exact stays before old rfl rfl answered uncancelled
    | answered shared stage => exact stays before old rfl rfl (by simp [stage]) (by simp [stage])
    | failed failure stage => exact stays before old rfl rfl (by simp [stage]) (by simp [stage])
    | closed gone stage found ended => exact over_kept takes found on (by rw [ended]; rfl) nextFree
    | opened shared stage | sessionEnded shared stage => exact stays before old rfl rfl (by simp [stage]) (by simp [stage])
    | notOpened shared error stage => exact stays before old rfl rfl (by simp [stage]) (by simp [stage])
    | quit => exact absurd rfl uncancelled

theorem scoped_kept (fresh : s.FreshScope op) (valid : s.Scoped) : s'.Scoped where
  toPoolKnown := poolKnown_kept takes valid.toPoolKnown
  distinct _ _ _ _ := distinct_kept takes fresh valid
  initiated _ _ := initiated_kept takes valid
  heard _ _ _ := heard_kept takes fresh valid

end Scoped

theorem scoped_start : Scoped {} where
  toPoolKnown := poolKnown_start
  distinct _ _ _ _ known := by cases known
  initiated _ _ known := by cases known
  heard _ _ _ known := by cases known

end ConnectSystem

end MacSftp
