import MacSftp.Connect.Moves

namespace MacSftp

open Lib

namespace ConnectSystem

/-- What `get_or_connect` finds for the `ConnectTab` in hand, and where it puts the task that waits. -/
inductive Finds (s : ConnectSystem) (command : ConnectTab) (expired : Bool) : Nat → ConnectStage → Prop
  | joined (attempt : Nat) (known : s.pool command.key = some (.connecting attempt)) (young : expired = false) :
      Finds s command expired attempt .waiting
  | reused (shared : Nat) (known : s.pool command.key = some (.connected shared)) (live : s.lost shared = false) :
      Finds s command expired shared (.delivered (.ok shared))
  | started : Finds s command expired s.nextAttempt .waiting

/-- A command that disconnects the session of a tab. -/
def Disconnects (tabId : TabId) (op : ConnectOp) : Prop :=
  op = .closeTab tabId ∨ ∃ command, op = .connectTab command ∧ command.scope.tabId = tabId

/-- A connect after a step. -/
inductive ConnectMove (s : ConnectSystem) (op : ConnectOp) (outputs : List ConnectOutput) (number : Nat) : Option Connect → Prop
  | same : ConnectMove s op outputs number (s.connects number)
  | retired (connect : Connect) (known : s.connects number = some connect) (tabId : TabId) (own : s.sessions tabId = some number)
      (disconnects : Disconnects tabId op) : ConnectMove s op outputs number (some { connect with retiring := true })
  | spawned (expired : Bool) (command : ConnectTab) (dispatching : s.dispatching = some command) (joins : op = .join expired)
      (fresh : number = s.nextConnect) (attempt : Nat) (stage : ConnectStage) (finds : Finds s command expired attempt stage) :
      ConnectMove s op outputs number (some ⟨command.scope, command.key, attempt, stage, false, false⟩)
  | received (attempt : Attempt) (connect : Connect) (known : s.connects number = some connect) (waiting : connect.stage = .waiting)
      (on : s.attempts connect.attempt = some attempt) (result : Except ConnectFailure Unit) (completed : Bool)
      (settled : attempt.stage = .settled result completed) (sends : op = .send connect.attempt) :
      ConnectMove s op outputs number (some { connect with stage := .delivered (result.map fun _ => connect.attempt) })
  | proceeded (connect : Connect) (known : s.connects number = some connect) (next : Connect)
      (proceeds : Proceeds s number connect op next outputs) : ConnectMove s op outputs number (some next)

theorem retire_move {s : ConnectSystem} {op : ConnectOp} {outputs : List ConnectOutput} {tabId : TabId}
    (disconnects : Disconnects tabId op) (number : Nat) :
    ConnectMove s op outputs number ((s.retire tabId).connects number) := by
  unfold retire
  split
  · exact .same
  · rename_i other session
    by_cases same : number = other
    · subst same
      simp only [Function.update_self]
      cases known : s.connects number with
      | none =>
        have unmoved : ConnectMove s op outputs number (s.connects number) := .same
        rwa [known] at unmoved
      | some connect => exact .retired connect known tabId session disconnects
    · simp only [Function.update_of_ne same]
      exact .same

theorem spawn_move {s s' : ConnectSystem} {expired : Bool} {command : ConnectTab} (dispatching : s.dispatching = some command)
    {attempt : Nat} {stage : ConnectStage} (finds : Finds s command expired attempt stage)
    (counter : s'.nextConnect = s.nextConnect)
    (kept : s'.connects = s.connects) (outputs : List ConnectOutput) (number : Nat) :
    ConnectMove s (.join expired) outputs number ((s'.spawn command attempt stage).connects number) := by
  simp only [spawn, counter, kept]
  by_cases fresh : number = s.nextConnect
  · subst fresh
    rw [Function.update_self]
    exact .spawned expired command dispatching rfl rfl attempt stage finds
  · rw [Function.update_of_ne fresh]
    exact .same

theorem send_move {s : ConnectSystem} {attempt : Attempt} {other : Nat} (on : s.attempts other = some attempt)
    {result : Except ConnectFailure Unit} {completed : Bool} (settled : attempt.stage = .settled result completed)
    (outputs : List ConnectOutput) (number : Nat) :
    ConnectMove s (.send other) outputs number ((s.connects number).map (Connect.receive other result)) := by
  have unmoved : ConnectMove s (.send other) outputs number (s.connects number) := .same
  cases known : s.connects number with
  | none => rwa [known] at unmoved
  | some connect =>
    rw [known] at unmoved
    simp only [Option.map_some, Connect.receive]
    split_ifs with waits
    · obtain ⟨rfl, waiting⟩ : connect.attempt = other ∧ connect.stage = .waiting := by simpa [Connect.waitsOn] using waits
      exact .received attempt connect known waiting on result completed settled rfl
    · exact unmoved

theorem proceed_move {s : ConnectSystem} {op : ConnectOp} {other : Nat} {connect next : Connect} {outputs : List ConnectOutput}
    (known : s.connects other = some connect) (proceeds : Proceeds s other connect op next outputs) (number : Nat) :
    ConnectMove s op outputs number ((s.withConnect other next).connects number) := by
  simp only [withConnect]
  by_cases same : number = other
  · subst same
    rw [Function.update_self]
    exact .proceeded connect known next proceeds
  · rw [Function.update_of_ne same]
    exact .same

section Views

variable {s s' : ConnectSystem} {op : ConnectOp} {outputs : List ConnectOutput} (takes : Takes s op s' outputs)

include takes

theorem connect_move (number : Nat) : ConnectMove s op outputs number (s'.connects number) := by
  cases takes with
  | connectTab command => exact retire_move (.inr ⟨command, rfl, rfl⟩) number
  | closeTab tabId => exact retire_move (.inl rfl) number
  | accepted | rejected =>
    unfold resolve
    split <;> exact .same
  | join expired command dispatching =>
    have looked := getOrConnect_looked s.pool command.key s.lost expired s.nextAttempt
    unfold join
    generalize s.pool.getOrConnect command.key s.lost expired s.nextAttempt = found at looked ⊢
    obtain ⟨after, lookup⟩ := found
    cases looked with
    | joined attempt known young => exact spawn_move dispatching (.joined attempt known young) rfl rfl _ number
    | reused shared known live => exact spawn_move dispatching (.reused shared known live) rfl rfl _ number
    | started => exact spawn_move dispatching .started rfl rfl _ number
  | sent other attempt on result completed settled => exact send_move on settled _ number
  | proceeded other connect known op next outputs proceeds => exact proceed_move known proceeds number
  | _ => exact .same

theorem unknown_connect_kept (other : ∀ expired, op ≠ .join expired) {number : Nat} (unknown : s.connects number = none) :
    s'.connects number = none := by
  have move := connect_move takes number
  generalize s'.connects number = after at move
  cases move with
  | same => exact unknown
  | spawned expired _ _ joins => exact absurd joins (other expired)
  | retired connect known | received _ connect known | proceeded connect known =>
    rw [unknown] at known
    cases known

theorem nextConnect_moves :
    (s'.nextConnect = s.nextConnect ∧ ∀ number, s.connects number = none → s'.connects number = none) ∨
      s'.nextConnect = s.nextConnect + 1 := by
  have unknown := unknown_connect_kept takes
  cases takes with
  | idle op => exact .inl ⟨rfl, fun _ h => h⟩
  | connectTab | closeTab =>
    refine .inl ⟨?_, fun _ => unknown (by simp)⟩
    simp only [connectTab, closeTab, expire, retire]
    split <;> rfl
  | accepted | rejected =>
    refine .inl ⟨?_, fun _ => unknown (by simp)⟩
    unfold resolve
    split <;> rfl
  | join expired command =>
    right
    unfold join
    split <;> rfl
  | prompted | timedOut | succeeded | sent | finished | aborted | reaped | swept | removed | losing | watchedLost | foundIdle
  | watchedIdle | borrowed | gaveBack => exact .inl ⟨rfl, fun _ => unknown (by simp)⟩
  | restaged number attempt known op stage outputs restages =>
    cases restages <;> exact .inl ⟨rfl, fun _ => unknown (by simp)⟩
  | proceeded number connect known op next outputs proceeds =>
    cases proceeds <;> exact .inl ⟨rfl, fun _ => unknown (by simp)⟩

end Views

theorem attempt_known {s s' : ConnectSystem} {op : ConnectOp} {outputs : List ConnectOutput} (takes : Takes s op s' outputs)
    {number : Nat} {attempt : Attempt} (known : s'.attempts number = some attempt) :
    (∃ before, s.attempts number = some before ∧ attempt = { before with stage := attempt.stage } ∧
      (attempt.stage = before.stage ∨ Advances s number before op attempt.stage)) ∨
      number = s.nextAttempt ∧ ∃ expired command, op = .join expired ∧ s.dispatching = some command ∧
        attempt = ⟨command.key, command.scope, s.nextTrustId, s.nextTrustId + 1, .running⟩ := by
  have move := attempt_move takes number
  rw [known] at move
  generalize after : some attempt = moved at move
  cases move with
  | same => exact .inl ⟨attempt, after.symm, rfl, .inl rfl⟩
  | started expired command dispatching joins fresh =>
    exact .inr ⟨fresh, expired, command, joins, dispatching, Option.some.inj after⟩
  | staged before old stage advances =>
    obtain rfl := Option.some.inj after
    exact .inl ⟨before, old, rfl, .inr advances⟩

theorem attempts_fresh {s s' : ConnectSystem} {op : ConnectOp} {outputs : List ConnectOutput} (takes : Takes s op s' outputs)
    (fresh : ∀ number, s.nextAttempt ≤ number → s.attempts number = none) (number : Nat)
    (above : s'.nextAttempt ≤ number) : s'.attempts number = none := by
  rcases nextAttempt_moves takes with ⟨stays, -, unknown⟩ | ⟨moves, -⟩
  · exact unknown number (fresh number (by omega))
  · by_contra known
    obtain ⟨attempt, known⟩ := Option.ne_none_iff_exists'.mp known
    rcases attempt_known takes known with ⟨before, old, -⟩ | ⟨rfl, -⟩
    · rw [fresh number (by omega)] at old
      cases old
    · omega

theorem connects_fresh {s s' : ConnectSystem} {op : ConnectOp} {outputs : List ConnectOutput} (takes : Takes s op s' outputs)
    (fresh : ∀ number, s.nextConnect ≤ number → s.connects number = none) (number : Nat)
    (above : s'.nextConnect ≤ number) : s'.connects number = none := by
  rcases nextConnect_moves takes with ⟨stays, unknown⟩ | moves
  · exact unknown number (fresh number (by omega))
  · have before : s.connects number = none := fresh number (by omega)
    have move := connect_move takes number
    generalize s'.connects number = after at move
    cases move with
    | same => exact before
    | spawned => omega
    | retired connect known | received _ connect known | proceeded connect known =>
      rw [before] at known
      cases known

theorem connect_known {s s' : ConnectSystem} {op : ConnectOp} {outputs : List ConnectOutput} (takes : Takes s op s' outputs)
    {number : Nat} {connect : Connect} (known : s'.connects number = some connect) :
    (∃ before, s.connects number = some before ∧ connect.scope = before.scope ∧ connect.attempt = before.attempt) ∨
      number = s.nextConnect ∧ ∃ expired command attempt stage, op = .join expired ∧ s.dispatching = some command ∧
        Finds s command expired attempt stage ∧ connect = ⟨command.scope, command.key, attempt, stage, false, false⟩ := by
  have move := connect_move takes number
  rw [known] at move
  generalize after : some connect = moved at move
  cases move with
  | same => exact .inl ⟨connect, after.symm, rfl, rfl⟩
  | retired before old | received _ before old =>
    obtain rfl := Option.some.inj after
    exact .inl ⟨before, old, rfl, rfl⟩
  | spawned expired command dispatching joins fresh attempt stage finds =>
    exact .inr ⟨fresh, expired, command, attempt, stage, joins, dispatching, finds, Option.some.inj after⟩
  | proceeded before old next proceeds =>
    obtain rfl := Option.some.inj after
    refine .inl ⟨before, old, ?_⟩
    cases proceeds <;> exact ⟨rfl, rfl⟩

theorem connect_stays {s s' : ConnectSystem} {op : ConnectOp} {outputs : List ConnectOutput} (takes : Takes s op s' outputs)
    {number : Nat} {connect : Connect} (known : s.connects number = some connect) (fresh : s.connects s.nextConnect = none) :
    ∃ after, s'.connects number = some after ∧ after.scope = connect.scope ∧ after.attempt = connect.attempt := by
  have move := connect_move takes number
  generalize s'.connects number = moved at move
  cases move with
  | same => exact ⟨connect, known, rfl, rfl⟩
  | retired before old | received _ before old =>
    obtain rfl : connect = before := by simpa [known] using old
    exact ⟨_, rfl, rfl, rfl⟩
  | spawned _ _ _ _ at_counter =>
    rw [at_counter, fresh] at known
    cases known
  | proceeded before old next proceeds =>
    obtain rfl : connect = before := by simpa [known] using old
    refine ⟨next, rfl, ?_⟩
    cases proceeds <;> exact ⟨rfl, rfl⟩

theorem started_spawned {s s' : ConnectSystem} {op : ConnectOp} {outputs : List ConnectOutput} (takes : Takes s op s' outputs)
    {attempt : Attempt} (known : s'.attempts s.nextAttempt = some attempt) (fresh : s.attempts s.nextAttempt = none) :
    ∃ connect, s'.connects s.nextConnect = some connect ∧ connect.scope = attempt.scope ∧ connect.attempt = s.nextAttempt := by
  have unknown := unknown_kept takes
  cases takes with
  | idle =>
    rw [fresh] at known
    cases known
  | join expired command dispatching =>
    have looked := getOrConnect_looked s.pool command.key s.lost expired s.nextAttempt
    unfold join at known ⊢
    generalize s.pool.getOrConnect command.key s.lost expired s.nextAttempt = found at looked known ⊢
    obtain ⟨after, lookup⟩ := found
    cases looked with
    | joined | reused => exact absurd (fresh.symm.trans known) (by simp)
    | started =>
      have same : (⟨command.key, command.scope, s.nextTrustId, s.nextTrustId + 1, .running⟩ : Attempt) = attempt := by
        simpa [spawn, started] using known
      exact ⟨_, Function.update_self .., congrArg Attempt.scope same, rfl⟩
  | restaged number attempt known op stage outputs restages =>
    have gone := unknown (by cases restages <;> simp) fresh
    simp_all
  | proceeded number connect known op next outputs proceeds =>
    have gone := unknown (by cases proceeds <;> simp) fresh
    simp_all
  | _ =>
    have gone := unknown (by simp) fresh
    simp_all

theorem sessions_known {s s' : ConnectSystem} {op : ConnectOp} {outputs : List ConnectOutput} (takes : Takes s op s' outputs)
    {tabId : TabId} {number : Nat} (session : s'.sessions tabId = some number) :
    s.sessions tabId = some number ∨ ∃ connect, s'.connects number = some connect ∧ connect.scope.tabId = tabId := by
  have retired : ∀ other, (s.retire other).sessions tabId = some number → s.sessions tabId = some number := by
    intro other kept
    unfold retire at kept
    split at kept
    · exact kept
    · by_cases same : tabId = other
      · subst same
        simp at kept
      · exact (Function.update_of_ne same _ _).symm.trans kept
  have spawned : ∀ (after : ConnectSystem) command attempt stage, after.sessions = s.sessions →
      (after.spawn command attempt stage).sessions tabId = some number → s.sessions tabId = some number ∨
        ∃ connect, (after.spawn command attempt stage).connects number = some connect ∧ connect.scope.tabId = tabId := by
    intro after command attempt stage same session
    by_cases own : tabId = command.scope.tabId
    · subst own
      have here : after.nextConnect = number := by simpa [spawn] using session
      subst here
      exact .inr ⟨_, Function.update_self .., rfl⟩
    · left
      rw [← same]
      exact (Function.update_of_ne own _ _).symm.trans session
  cases takes with
  | connectTab command => exact .inl (retired _ session)
  | closeTab => exact .inl (retired _ session)
  | accepted | rejected =>
    left
    unfold resolve at session
    split at session <;> exact session
  | join expired command =>
    unfold join at session ⊢
    split at session
    all_goals exact spawned _ _ _ _ rfl session
  | _ => exact .inl session

end ConnectSystem

end MacSftp
