import MacSftp.Connect.Answered

namespace MacSftp

open Lib

/-- The attempt has been told no, or its task is about to find that out. -/
def AttemptStage.condemned : AttemptStage → Bool
  | .prompting _ (some decision) => decision ≠ .trustAndSave
  | .refused .userRejected => true
  | .settled (.error .trustRejected) _ => true
  | _ => false

namespace ConnectSystem

/-- Since the connect was spawned, its tab has been closed, disconnected or connected anew. -/
def Disconnected (ops : List ConnectOp) (number : Nat) (tabId : TabId) : Prop :=
  ∃ before op after, ops = before ++ op :: after ∧ (machine.run {} before).connects number ≠ none ∧
    (machine.run {} before).dispatching = none ∧ Disconnects tabId op

/-- The user has answered no to a prompt that the attempt was waiting on. -/
def UserRejected (ops : List ConnectOp) (number : Nat) : Prop :=
  ∃ before requestId after attempt, ops = before ++ .rejectHostKey requestId :: after ∧
    (machine.run {} before).dispatching = none ∧ (machine.run {} before).registry requestId ≠ none ∧
    (machine.run {} before).attempts number = some attempt ∧ attempt.stage = .prompting requestId none

/-- The command expires the request. -/
inductive Expires (s : ConnectSystem) (requestId : Nat) : ConnectOp → TabId → Prop
  | stale (command : ConnectTab) (entry : TrustRegistryEntry) (pending : s.registry requestId = some entry)
      (stale : staleEntry command.scope entry = true) : Expires s requestId (.connectTab command) command.scope.tabId
  | closed (tabId : TabId) (entry : TrustRegistryEntry) (pending : s.registry requestId = some entry)
      (own : entry.tabId = tabId) : Expires s requestId (.closeTab tabId) tabId

/-- A command expires a prompt only when every connect that waits on the prompt's attempt is of the command's
tab or has been disconnected before, and a connect joins no attempt that was told no, unless by the user. -/
def Considerate (ops : List ConnectOp) (op : ConnectOp) : Prop :=
  (∀ requestId tabId number attempt, Expires (machine.run {} ops) requestId op tabId → (machine.run {} ops).dispatching = none →
    (machine.run {} ops).attempts number = some attempt → attempt.stage = .prompting requestId none →
    ∀ waiter connect, (machine.run {} ops).connects waiter = some connect → connect.waitsOn number = true →
      connect.scope.tabId = tabId ∨ connect.retiring = true) ∧
  ∀ command number attempt, op = .join false → (machine.run {} ops).dispatching = some command →
    (machine.run {} ops).pool command.key = some (.connecting number) → (machine.run {} ops).attempts number = some attempt →
    attempt.stage.condemned = true → UserRejected ops number

theorem disconnected_later {ops : List ConnectOp} {number : Nat} {tabId : TabId} (gone : Disconnected ops number tabId)
    (op : ConnectOp) : Disconnected (ops ++ [op]) number tabId := by
  obtain ⟨before, first, after, rfl, known⟩ := gone
  exact ⟨before, first, after ++ [op], by simp, known⟩

theorem userRejected_later {ops : List ConnectOp} {number : Nat} (rejected : UserRejected ops number) (op : ConnectOp) :
    UserRejected (ops ++ [op]) number := by
  obtain ⟨before, requestId, after, attempt, rfl, known⟩ := rejected
  exact ⟨before, requestId, after ++ [op], attempt, by simp, known⟩

theorem command_waits {s : ConnectSystem} {op : ConnectOp} {tabId : TabId} (disconnects : Disconnects tabId op)
    (busy : s.dispatching ≠ none) : machine.next s op = s := by
  have occupied : s.dispatching.isNone = false := by simpa [Option.ne_none_iff_isSome] using busy
  rcases disconnects with rfl | ⟨command, rfl, -⟩ <;> simp [Machine.next, machine, step, occupied]

theorem reject_waits {s : ConnectSystem} {requestId : Nat} (busy : s.dispatching ≠ none) :
    machine.next s (.rejectHostKey requestId) = s := by
  have occupied : s.dispatching.isNone = false := by simpa [Option.ne_none_iff_isSome] using busy
  simp [Machine.next, machine, step, occupied]

theorem condemned_advances {s : ConnectSystem} {op : ConnectOp} {number : Nat} {before : Attempt} {stage : AttemptStage}
    (advances : Advances s number before op stage) (condemned : stage.condemned = true) :
    before.stage.condemned = true ∨
      ∃ requestId decision, before.stage = .prompting requestId none ∧ Decides s requestId op decision ∧
        decision ≠ .trustAndSave := by
  cases advances with
  | decided op requestId decision prompting decides =>
    exact .inr ⟨requestId, decision, prompting, decides, by simpa [AttemptStage.condemned] using condemned⟩
  | restaged op stage outputs restages =>
    cases restages with
    | heeded requestId decision prompting =>
      left
      rw [prompting]
      split_ifs at condemned with accepted
      · cases condemned
      · simpa [AttemptStage.condemned] using accepted
    | mismatched | authFailed => cases condemned
    | failed error failure failing =>
      left
      unfold AttemptStage.failure at failing
      split at failing <;> cases failing
      case h_5 _ _ refused => simp [refused, AttemptStage.condemned]
      all_goals cases condemned
  | prompted | timedOut | succeeded | sent | finished | aborted => cases condemned

/-- Whoever is told that the user said no has been disconnected, or the user did say no. -/
structure Blameless (ops : List ConnectOp) : Prop where
  known : (machine.run {} ops).PoolKnown
  condemned : ∀ number attempt, (machine.run {} ops).attempts number = some attempt → attempt.stage.condemned = true →
    UserRejected ops number ∨ ∀ waiter connect, (machine.run {} ops).connects waiter = some connect →
      connect.waitsOn number = true → Disconnected ops waiter connect.scope.tabId
  rejected : ∀ number connect, (machine.run {} ops).connects number = some connect →
    connect.stage = .delivered (.error .trustRejected) →
      Disconnected ops number connect.scope.tabId ∨ UserRejected ops connect.attempt
  retiring : ∀ number connect, (machine.run {} ops).connects number = some connect → connect.retiring = true →
    Disconnected ops number connect.scope.tabId
  sessions : ∀ tabId number, (machine.run {} ops).sessions tabId = some number →
    ∃ connect, (machine.run {} ops).connects number = some connect ∧ connect.scope.tabId = tabId

section Blameless

variable {ops : List ConnectOp} {op : ConnectOp} (blameless : Blameless ops)

include blameless

theorem retiring_kept {number : Nat} {connect : Connect}
    (known : (machine.next (machine.run {} ops) op).connects number = some connect) (retiring : connect.retiring = true) :
    Disconnected (ops ++ [op]) number connect.scope.tabId := by
  have stays : ∀ before, (machine.run {} ops).connects number = some before → before.retiring = true →
      Disconnected (ops ++ [op]) number before.scope.tabId := by
    intro before old retiring
    exact disconnected_later (blameless.retiring number before old retiring) op
  have move := connect_move (step_takes (machine.run {} ops) op) number
  rw [known] at move
  generalize machine.out (machine.run {} ops) op = outputs at move
  generalize after : some connect = moved at move
  cases move with
  | same => exact stays connect after.symm retiring
  | retired before old tabId own disconnects =>
    obtain rfl := Option.some.inj after
    obtain ⟨holder, found, tab⟩ := blameless.sessions tabId number own
    obtain rfl := Option.some.inj (old.symm.trans found)
    by_cases busy : (machine.run {} ops).dispatching = none
    · rw [tab]
      exact ⟨ops, op, [], rfl, by simp [old], busy, disconnects⟩
    · rw [command_waits disconnects busy, old] at known
      exact stays before old (by rw [Option.some.inj known])
  | spawned =>
    obtain rfl := Option.some.inj after
    cases retiring
  | received _ before old =>
    obtain rfl := Option.some.inj after
    exact stays before old retiring
  | proceeded before old next proceeds =>
    obtain rfl := Option.some.inj after
    cases proceeds <;> exact stays before old retiring

omit blameless in
theorem waiter_before {number : Nat} {connect : Connect}
    (known : (machine.next (machine.run {} ops) op).connects number = some connect) (waiting : connect.stage = .waiting) :
    (∃ before, (machine.run {} ops).connects number = some before ∧ before.stage = .waiting ∧
        connect.attempt = before.attempt ∧ connect.scope = before.scope) ∨
      connect.attempt = (machine.run {} ops).nextAttempt ∨ op = .join false ∧ ∃ command,
        (machine.run {} ops).dispatching = some command ∧
          (machine.run {} ops).pool command.key = some (.connecting connect.attempt) := by
  have move := connect_move (step_takes (machine.run {} ops) op) number
  rw [known] at move
  generalize machine.out (machine.run {} ops) op = outputs at move
  generalize after : some connect = moved at move
  cases move with
  | same => exact .inl ⟨connect, after.symm, waiting, rfl, rfl⟩
  | retired before old =>
    obtain rfl := Option.some.inj after
    exact .inl ⟨before, old, waiting, rfl, rfl⟩
  | spawned expired command dispatching joins _ attempt stage finds =>
    obtain rfl := Option.some.inj after
    right
    cases finds with
    | joined _ entry young => exact .inr ⟨young ▸ joins, command, dispatching, entry⟩
    | reused => cases waiting
    | started => exact .inl rfl
  | received =>
    obtain rfl := Option.some.inj after
    cases waiting
  | proceeded before old next proceeds =>
    obtain rfl := Option.some.inj after
    cases proceeds with
    | cancelled => exact .inl ⟨before, old, waiting, rfl, rfl⟩
    | answered | failed | closed | opened | notOpened | sessionEnded | quit => cases waiting

theorem decided_no {number requestId : Nat} {decision : TrustDecision} {before attempt : Attempt}
    (considerate : Considerate ops op) (old : (machine.run {} ops).attempts number = some before)
    (prompting : before.stage = .prompting requestId none)
    (known : (machine.next (machine.run {} ops) op).attempts number = some attempt) (moved : attempt.stage ≠ before.stage)
    (decides : Decides (machine.run {} ops) requestId op decision) (no : decision ≠ .trustAndSave) :
    UserRejected (ops ++ [op]) number ∨ ∀ waiter connect, (machine.run {} ops).connects waiter = some connect →
      connect.waitsOn number = true → Disconnected (ops ++ [op]) waiter connect.scope.tabId := by
  have still : machine.next (machine.run {} ops) op ≠ machine.run {} ops := by
    intro same
    rw [same, old] at known
    exact moved (congrArg Attempt.stage (Option.some.inj known).symm)
  have expired : ∀ tabId, Expires (machine.run {} ops) requestId op tabId → Disconnects tabId op →
      ∀ waiter connect, (machine.run {} ops).connects waiter = some connect → connect.waitsOn number = true →
        Disconnected (ops ++ [op]) waiter connect.scope.tabId := by
    intro tabId expires disconnects waiter connect found waits
    have free : (machine.run {} ops).dispatching = none := by
      by_contra busy
      exact still (command_waits disconnects busy)
    rcases considerate.1 requestId tabId number before expires free old prompting waiter connect found waits with own | retiring
    · rw [own]
      exact ⟨ops, op, [], rfl, by simp [found], free, disconnects⟩
    · exact disconnected_later (blameless.retiring waiter connect found retiring) op
  cases decides with
  | accepted => exact absurd rfl no
  | rejected entry pending =>
    left
    have free : (machine.run {} ops).dispatching = none := by
      by_contra busy
      exact still (reject_waits busy)
    exact ⟨ops, requestId, [], before, rfl, free, by simp [pending], old, prompting⟩
  | stale command entry pending stale => exact .inr (expired _ (.stale command entry pending stale) (.inr ⟨command, rfl, rfl⟩))
  | closed tabId entry pending own => exact .inr (expired _ (.closed tabId entry pending own) (.inl rfl))

theorem condemned_kept (considerate : Considerate ops op) {number : Nat} {attempt : Attempt}
    (known : (machine.next (machine.run {} ops) op).attempts number = some attempt) (condemned : attempt.stage.condemned = true) :
    UserRejected (ops ++ [op]) number ∨ ∀ waiter connect, (machine.next (machine.run {} ops) op).connects waiter = some connect →
      connect.waitsOn number = true → Disconnected (ops ++ [op]) waiter connect.scope.tabId := by
  by_cases rejected : UserRejected (ops ++ [op]) number
  · exact .inl rejected
  right
  rcases attempt_known (step_takes _ op) known with ⟨before, old, -, step⟩ | ⟨-, _, _, -, -, rfl⟩
  · have origin : before.stage.condemned = true ∨ attempt.stage ≠ before.stage ∧ ∃ requestId decision,
        before.stage = .prompting requestId none ∧ Decides (machine.run {} ops) requestId op decision ∧
          decision ≠ .trustAndSave := by
      by_cases same : attempt.stage = before.stage
      · exact .inl (same ▸ condemned)
      · exact (condemned_advances (step.resolve_left same) condemned).imp_right fun decides => ⟨same, decides⟩
    -- those who waited before the step
    have gone : ∀ waiter connect, (machine.run {} ops).connects waiter = some connect → connect.waitsOn number = true →
        Disconnected (ops ++ [op]) waiter connect.scope.tabId := by
      rcases origin with earlier | ⟨moved, requestId, decision, prompting, decides, no⟩
      · intro waiter connect found waits
        rcases blameless.condemned number before old earlier with user | gone
        · exact absurd (userRejected_later user op) rejected
        · exact disconnected_later (gone waiter connect found waits) op
      · exact (decided_no blameless considerate old prompting known moved decides no).resolve_left rejected
    intro waiter connect found waits
    obtain ⟨on, waiting⟩ : connect.attempt = number ∧ connect.stage = .waiting := by simpa [Connect.waitsOn] using waits
    rcases waiter_before found waiting with ⟨first, earlier, waited, same, scope⟩ | fresh | ⟨joins, command, dispatching, entry⟩
    · rw [scope]
      exact gone waiter first earlier (by simp [Connect.waitsOn, ← same, on, waited])
    · rw [← on, fresh, blameless.known.attempts _ le_rfl] at old
      cases old
    · rcases origin with earlier | ⟨-, _, _, -, decides, -⟩
      · have user := considerate.2 command number before joins dispatching (on ▸ entry) old earlier
        exact absurd (userRejected_later user op) rejected
      · subst joins
        cases decides
  · cases condemned

theorem rejected_kept (considerate : Considerate ops op) {number : Nat} {connect : Connect}
    (known : (machine.next (machine.run {} ops) op).connects number = some connect)
    (stage : connect.stage = .delivered (.error .trustRejected)) :
    Disconnected (ops ++ [op]) number connect.scope.tabId ∨ UserRejected (ops ++ [op]) connect.attempt := by
  have stays : ∀ before, (machine.run {} ops).connects number = some before → before.stage = .delivered (.error .trustRejected) →
      Disconnected (ops ++ [op]) number before.scope.tabId ∨ UserRejected (ops ++ [op]) before.attempt := by
    intro before old rejected
    rcases blameless.rejected number before old rejected with gone | user
    · exact .inl (disconnected_later gone op)
    · exact .inr (userRejected_later user op)
  have move := connect_move (step_takes (machine.run {} ops) op) number
  rw [known] at move
  generalize machine.out (machine.run {} ops) op = outputs at move
  generalize after : some connect = moved at move
  cases move with
  | same => exact stays connect after.symm stage
  | retired before old =>
    obtain rfl := Option.some.inj after
    exact stays before old stage
  | spawned _ _ _ _ _ _ _ finds =>
    obtain rfl := Option.some.inj after
    cases finds <;> cases stage
  | received attempt before old waiting on result completed settled =>
    obtain rfl := Option.some.inj after
    obtain rfl : result = .error .trustRejected := by
      cases result with
      | ok => cases stage
      | error failure => simpa [Except.map] using stage
    rcases blameless.condemned before.attempt attempt on (by simp [settled, AttemptStage.condemned]) with user | gone
    · exact .inr (userRejected_later user op)
    · exact .inl (disconnected_later (gone number before old (by simp [Connect.waitsOn, waiting])) op)
  | proceeded before old next proceeds =>
    obtain rfl := Option.some.inj after
    cases proceeds with
    | cancelled => exact stays before old stage
    | answered | failed | closed | opened | notOpened | sessionEnded | quit => cases stage

theorem blameless_kept (considerate : Considerate ops op) : Blameless (ops ++ [op]) where
  known := by
    rw [machine.run_concat]
    exact poolKnown_kept (step_takes _ op) blameless.known
  condemned := by
    rw [machine.run_concat]
    intro number attempt
    exact condemned_kept blameless considerate
  rejected := by
    rw [machine.run_concat]
    intro number connect
    exact rejected_kept blameless considerate
  retiring := by
    rw [machine.run_concat]
    intro number connect
    exact retiring_kept blameless
  sessions := by
    rw [machine.run_concat]
    intro tabId number session
    rcases sessions_known (step_takes _ op) session with old | spawned
    · obtain ⟨connect, found, own⟩ := blameless.sessions tabId number old
      obtain ⟨after, now, scope, -⟩ := connect_stays (step_takes _ op) found (blameless.known.connects _ le_rfl)
      exact ⟨after, now, scope ▸ own⟩
    · exact spawned

end Blameless

/-- A connect is answered as rejected by the user only if the user did reject a prompt of its attempt, or the
connect's own tab was closed, disconnected or connected anew after it. -/
def RejectionsDeserved (ops : List ConnectOp) : Prop :=
  ∀ before op after scope, ops = before ++ op :: after →
    .emitted (.tabDisconnected scope .userRequested) ∈ machine.out (machine.run {} before) op →
      ∃ number connect, op = .wake number ∧ (machine.run {} before).connects number = some connect ∧ connect.scope = scope ∧
        (Disconnected before number scope.tabId ∨ UserRejected before connect.attempt)

theorem userRequested_source {s s' : ConnectSystem} {op : ConnectOp} {outputs : List ConnectOutput} (takes : Takes s op s' outputs)
    {scope : RemoteEventScope} (out : .emitted (.tabDisconnected scope .userRequested) ∈ outputs) :
    ∃ number connect, op = .wake number ∧ s.connects number = some connect ∧ connect.scope = scope ∧
      connect.stage = .delivered (.error .trustRejected) := by
  cases takes with
  | join expired command =>
    unfold join at out
    split at out <;> simp at out
  | sent =>
    unfold send at out
    split_ifs at out
    · obtain ⟨waiter, -, same⟩ := List.mem_map.mp out
      cases same
    · cases out
  | restaged number attempt known op stage outputs restages => cases restages <;> simp at out
  | prompted => simp [prompt] at out
  | proceeded number connect known op next outputs proceeds =>
    cases proceeds with
    | failed failure stage =>
      cases failure with
      | trustRejected =>
        have own : scope = connect.scope := by simpa [connectionFailureEvent] using out
        exact ⟨number, connect, rfl, known, own.symm, stage⟩
      | hostKeyMismatch | trustTimeout | authFailed | connection => simp [connectionFailureEvent] at out
    | notOpened => simp at out
    | cancelled | answered | closed | opened | sessionEnded | quit => cases out
  | _ => cases out

theorem rejections_deserved (ops : List ConnectOp) (considerate : Proper Considerate [] ops) : RejectionsDeserved ops := by
  rintro before op after scope rfl out
  have start : Blameless [] :=
    ⟨poolKnown_start, fun _ _ known => (by cases known), fun _ _ known => (by cases known), fun _ _ known => (by cases known),
      fun _ _ known => (by cases known)⟩
  have blameless : Blameless before :=
    history_induction start (fun _ _ considerate blameless => blameless_kept blameless considerate) before
      ((proper_append [] before (op :: after)).mp considerate).1
  obtain ⟨number, connect, wakes, known, own, stage⟩ := userRequested_source (step_takes _ op) out
  subst own
  exact ⟨number, connect, wakes, known, rfl, blameless.rejected number connect known stage⟩

/-- Two tabs wait on the attempt of the first, which asks about the host's key. -/
def sharedPrompt : List ConnectOp := sharedAttempt ++ [.prompt 1 false "host" 22 "ssh-ed25519" "key"]

theorem considerate_other {ops : List ConnectOp} {op : ConnectOp}
    (other : (∀ tabId, ¬ Disconnects tabId op) ∧ op ≠ .join false) : Considerate ops op := by
  constructor
  · intro requestId tabId number attempt expires
    cases expires with
    | stale command => exact absurd (.inr ⟨command, rfl, rfl⟩) (other.1 command.scope.tabId)
    | closed => exact absurd (.inl rfl) (other.1 tabId)
  · intro command number attempt joins
    exact absurd joins other.2

theorem considerate_join {ops : List ConnectOp} (sound : ∀ command number attempt,
    (machine.run {} ops).dispatching = some command → (machine.run {} ops).pool command.key = some (.connecting number) →
      (machine.run {} ops).attempts number = some attempt → attempt.stage.condemned = false) :
    Considerate ops (.join false) := by
  constructor
  · intro requestId tabId number attempt expires
    cases expires
  · intro command number attempt _ dispatching entry known condemned
    rw [sound command number attempt dispatching entry known] at condemned
    cases condemned

theorem considerate_unasked {ops : List ConnectOp} {command : ConnectTab}
    (unasked : (machine.run {} ops).registry = fun _ => none) :
    Considerate ops (.connectTab command) := by
  constructor
  · intro requestId tabId number attempt expires
    cases expires with
    | stale _ entry pending =>
      rw [unasked] at pending
      cases pending
  · rintro other number attempt ⟨⟩

theorem sharedPrompt_considerate : Proper Considerate [] sharedPrompt := by
  have quiet : (∀ tabId, ¬ Disconnects tabId (.prompt 1 false "host" 22 "ssh-ed25519" "key")) ∧
      ConnectOp.prompt 1 false "host" 22 "ssh-ed25519" "key" ≠ .join false := by simp [Disconnects]
  refine ⟨considerate_unasked rfl, considerate_join ?_, considerate_unasked ?_, considerate_join ?_,
    considerate_other quiet, trivial⟩
  · intro command number attempt _ entry
    cases entry
  · rfl
  · intro command number attempt _ _ known
    match number with
    | 0 => cases known
    | 1 =>
      obtain rfl := Option.some.inj known
      decide +kernel
    | number + 2 =>
      have none := (poolKnown_run [.connectTab (savedConnect 1 1), .join false,
        .connectTab (savedConnect 2 2)]).attempts (number + 2)
        (Nat.le_add_left 2 number)
      exact absurd (none.symm.trans known) (by simp)

theorem user_rejection_deserved :
    RejectionsDeserved (sharedPrompt ++ [.rejectHostKey 1, .heed 1, .fail 1 none, .send 1, .wake 0, .wake 1]) := by
  have other : ∀ op ∈ ([.rejectHostKey 1, .heed 1, .fail 1 none, .send 1, .wake 0, .wake 1] : List ConnectOp),
      (∀ tabId, ¬ Disconnects tabId op) ∧ op ≠ .join false := by simp [Disconnects]
  apply rejections_deserved
  refine (proper_append [] sharedPrompt _).mpr ⟨sharedPrompt_considerate, ?_⟩
  refine ⟨?_, ?_, ?_, ?_, ?_, ?_, trivial⟩
  all_goals exact considerate_other (other _ (by simp))

theorem foreign_close_undeserved :
    ¬ RejectionsDeserved (sharedPrompt ++ [.closeTab ⟨1⟩, .heed 1, .fail 1 none, .send 1, .wake 1]) := by
  intro deserved
  obtain ⟨number, connect, wakes, known, own, cause⟩ := deserved (sharedPrompt ++ [.closeTab ⟨1⟩, .heed 1, .fail 1 none, .send 1])
    (.wake 1) [] (savedConnect 2 2).scope rfl (by decide +kernel)
  obtain rfl : 1 = number := by simpa using wakes
  rcases cause with ⟨before, op, after, same, spawned, -, disconnects⟩ | ⟨before, requestId, after, attempt, same, -⟩
  · rcases before with _ | ⟨first, _ | ⟨second, _ | ⟨third, before⟩⟩⟩
    · obtain ⟨rfl, -⟩ : .connectTab (savedConnect 1 1) = op ∧ _ := by simpa [sharedPrompt, sharedAttempt] using same
      simp [Disconnects, savedConnect] at disconnects
    · obtain ⟨-, rfl, -⟩ : _ ∧ .join false = op ∧ _ := by simpa [sharedPrompt, sharedAttempt] using same
      simp [Disconnects] at disconnects
    · obtain ⟨rfl, rfl, -⟩ : .connectTab (savedConnect 1 1) = first ∧ .join false = second ∧ _ := by
        simpa [sharedPrompt, sharedAttempt] using same
      exact spawned rfl
    · have tail : [.join false, .prompt 1 false "host" 22 "ssh-ed25519" "key", .closeTab ⟨1⟩, .heed 1, .fail 1 none, .send 1] =
          before ++ op :: after := (List.cons.inj (List.cons.inj (List.cons.inj same).2).2).2
      have mem : op ∈ before ++ op :: after := by simp
      rw [← tail] at mem
      simp only [List.mem_cons, List.not_mem_nil, or_false] at mem
      rcases mem with rfl | rfl | rfl | rfl | rfl | rfl <;> simp [Disconnects, savedConnect] at disconnects
  · have mem : ConnectOp.rejectHostKey requestId ∈ sharedPrompt ++ [.closeTab ⟨1⟩, .heed 1, .fail 1 none, .send 1] := by
      rw [same]
      simp
    simp [sharedPrompt, sharedAttempt] at mem

end ConnectSystem

end MacSftp
