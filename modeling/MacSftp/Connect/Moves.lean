import MacSftp.Connect.Steps

namespace MacSftp

open Lib

namespace ConnectSystem

/-- The pool after a step. -/
inductive PoolChange (s : ConnectSystem) : ConnectOp → ConnectionPool → Prop
  | same (op : ConnectOp) : PoolChange s op s.pool
  | looked (expired : Bool) (command : ConnectTab) (dispatching : s.dispatching = some command) :
      PoolChange s (.join expired) (s.pool.getOrConnect command.key s.lost expired s.nextAttempt).1
  | marked (number : Nat) (attempt : Attempt) (known : s.attempts number = some attempt) (stage : attempt.stage = .running) :
      PoolChange s (.succeed number) (s.pool.markConnected attempt.key number).2
  | finished (number : Nat) (attempt : Attempt) (known : s.attempts number = some attempt) (stage : attempt.stage = .sent false) :
      PoolChange s (.finish number) (s.pool.abandonAttempt attempt.key number)
  | aborted (number : Nat) (attempt : Attempt) (known : s.attempts number = some attempt)
      (stage : attempt.stage.unsettled = true) : PoolChange s (.abort number) (s.pool.abandonAttempt attempt.key number)
  | reaped (number : Nat) (attempt : Attempt) (known : s.attempts number = some attempt) :
      PoolChange s (.deadline number) (s.pool.reapStaleAttempt attempt.key number)
  | swept (expired : List Nat) : PoolChange s (.reapStale expired) (s.pool.reapStale (· ∈ expired) s.lost)
  | removed (key : ConnectionKey) : PoolChange s (.remove key) (s.pool.remove key)
  | watchedLost (shared : Nat) (attempt : Attempt) (known : s.attempts shared = some attempt) (lost : s.lost shared = true) :
      PoolChange s (.watchLost shared) (s.pool.removeIfSame attempt.key shared)
  | watchedIdle (shared : Nat) (attempt : Attempt) (known : s.attempts shared = some attempt) (idle : s.idle shared = true) :
      PoolChange s (.watchIdle shared) (s.pool.removeIfSame attempt.key shared)

/-- A decision that a command sends to a pending request. -/
inductive Decides (s : ConnectSystem) (requestId : Nat) : ConnectOp → TrustDecision → Prop
  | accepted (entry : TrustRegistryEntry) (pending : s.registry requestId = some entry) :
      Decides s requestId (.acceptHostKey requestId) .trustAndSave
  | rejected (entry : TrustRegistryEntry) (pending : s.registry requestId = some entry) :
      Decides s requestId (.rejectHostKey requestId) .reject
  | stale (command : ConnectTab) (entry : TrustRegistryEntry) (pending : s.registry requestId = some entry)
      (stale : staleEntry command.scope entry = true) : Decides s requestId (.connectTab command) .requestExpired
  | closed (tabId : TabId) (entry : TrustRegistryEntry) (pending : s.registry requestId = some entry)
      (own : entry.tabId = tabId) : Decides s requestId (.closeTab tabId) .requestExpired

/-- Where a step takes the task of an attempt. -/
inductive Advances (s : ConnectSystem) (number : Nat) (attempt : Attempt) : ConnectOp → AttemptStage → Prop
  | decided (op : ConnectOp) (requestId : Nat) (decision : TrustDecision) (stage : attempt.stage = .prompting requestId none)
      (decides : Decides s requestId op decision) : Advances s number attempt op (.prompting requestId (some decision))
  | prompted (jump : Bool) (host : String) (port : Nat) (algorithm fingerprint : String) (stage : attempt.stage = .running) :
      Advances s number attempt (.prompt number jump host port algorithm fingerprint)
        (.prompting (if jump then attempt.jumpTrustRequestId else attempt.trustRequestId) none)
  | timedOut (requestId : Nat) (stage : attempt.stage = .prompting requestId none) :
      Advances s number attempt (.promptTimeout number) (.refused .promptTimeout)
  | restaged (op : ConnectOp) (stage : AttemptStage) (outputs : List ConnectOutput)
      (restages : Restages number attempt op stage outputs) : Advances s number attempt op stage
  | succeeded (stage : attempt.stage = .running) :
      Advances s number attempt (.succeed number) (.settled (.ok ()) (s.pool.isCurrentAttempt attempt.key number))
  | sent (result : Except ConnectFailure Unit) (completed : Bool) (stage : attempt.stage = .settled result completed) :
      Advances s number attempt (.send number) (.sent completed)
  | finished (completed : Bool) (stage : attempt.stage = .sent completed) : Advances s number attempt (.finish number) .ended
  | aborted (stage : attempt.stage.unsettled = true) : Advances s number attempt (.abort number) .ended

/-- An attempt after a step. -/
inductive AttemptMove (s : ConnectSystem) (op : ConnectOp) (number : Nat) : Option Attempt → Prop
  | same : AttemptMove s op number (s.attempts number)
  | started (expired : Bool) (command : ConnectTab) (dispatching : s.dispatching = some command) (joins : op = .join expired)
      (fresh : number = s.nextAttempt) :
      AttemptMove s op number (some ⟨command.key, command.scope, s.nextTrustId, s.nextTrustId + 1, .running⟩)
  | staged (attempt : Attempt) (known : s.attempts number = some attempt) (stage : AttemptStage)
      (advances : Advances s number attempt op stage) : AttemptMove s op number (some { attempt with stage := stage })

@[simp] theorem retire_pool (s : ConnectSystem) (tabId : TabId) : (s.retire tabId).pool = s.pool := by
  unfold retire
  split <;> rfl

@[simp] theorem retire_attempts (s : ConnectSystem) (tabId : TabId) : (s.retire tabId).attempts = s.attempts := by
  unfold retire
  split <;> rfl

@[simp] theorem retire_nextAttempt (s : ConnectSystem) (tabId : TabId) : (s.retire tabId).nextAttempt = s.nextAttempt := by
  unfold retire
  split <;> rfl

@[simp] theorem resolve_nextAttempt (s : ConnectSystem) (requestId : Nat) (decision : TrustDecision) :
    (s.resolve requestId decision).nextAttempt = s.nextAttempt := by
  unfold resolve
  split <;> rfl

@[simp] theorem retire_registry (s : ConnectSystem) (tabId : TabId) : (s.retire tabId).registry = s.registry := by
  unfold retire
  split <;> rfl

@[simp] theorem resolve_pool (s : ConnectSystem) (requestId : Nat) (decision : TrustDecision) :
    (s.resolve requestId decision).pool = s.pool := by
  unfold resolve
  split <;> rfl

theorem join_pool (s : ConnectSystem) (command : ConnectTab) (expired : Bool) :
    (s.join command expired).1.pool = (s.pool.getOrConnect command.key s.lost expired s.nextAttempt).1 := by
  unfold join
  split <;> simp_all [spawn, started]

theorem markConnected_fst (pool : ConnectionPool) (key : ConnectionKey) (number : Nat) :
    (pool.markConnected key number).1 = pool.isCurrentAttempt key number := by
  unfold ConnectionPool.markConnected
  split_ifs with h <;> simp [h]

theorem decide_move {s : ConnectSystem} {op : ConnectOp} {requests : Nat → Bool} {decision : TrustDecision}
    (decides : ∀ requestId, requests requestId = true → Decides s requestId op decision) (number : Nat) :
    AttemptMove s op number ((s.attempts number).map (Attempt.decide requests decision)) := by
  cases known : s.attempts number with
  | none =>
    have unmoved : AttemptMove s op number (s.attempts number) := .same
    rwa [known] at unmoved
  | some attempt =>
    have unmoved : AttemptMove s op number (s.attempts number) := .same
    rw [known] at unmoved
    rw [Option.map_some]
    unfold Attempt.decide AttemptStage.decide
    split
    · rename_i requestId stage
      cases asked : requests requestId with
      | false =>
        have unchanged : { attempt with stage := AttemptStage.prompting requestId none } = attempt := by rw [← stage]
        simpa [unchanged] using unmoved
      | true => exact .staged attempt known _ (.decided op requestId decision stage (decides requestId asked))
    · exact unmoved

theorem staged_move {s : ConnectSystem} {op : ConnectOp} {number : Nat} {attempt : Attempt}
    (known : s.attempts number = some attempt) {stage : AttemptStage} (advances : Advances s number attempt op stage)
    (other : Nat) : AttemptMove s op other (Function.update s.attempts number (some { attempt with stage := stage }) other) := by
  by_cases same : other = number
  · subst same
    rw [Function.update_self]
    exact .staged attempt known stage advances
  · rw [Function.update_of_ne same]
    exact .same

theorem resolve_move {s : ConnectSystem} {op : ConnectOp} {requestId : Nat} {decision : TrustDecision}
    (decides : ∀ entry, s.registry requestId = some entry → Decides s requestId op decision) (number : Nat) :
    AttemptMove s op number ((s.resolve requestId decision).attempts number) := by
  unfold resolve
  split
  · exact .same
  · rename_i entry pending
    apply decide_move
    intro other same
    obtain rfl : other = requestId := by simpa using same
    exact decides entry pending

theorem remove_of_ne {pool : ConnectionPool} {key other : ConnectionKey} (h : other ≠ key) : pool.remove key other = pool other :=
  Function.update_of_ne h _ _

theorem put_of_ne {pool : ConnectionPool} {key other : ConnectionKey} {entry : PoolEntry} (h : other ≠ key) :
    pool.put key entry other = pool other := Function.update_of_ne h _ _

theorem remove_self (pool : ConnectionPool) (key : ConnectionKey) : pool.remove key key = none := Function.update_self ..

theorem put_self (pool : ConnectionPool) (key : ConnectionKey) (entry : PoolEntry) : pool.put key entry key = some entry :=
  Function.update_self ..

/-- Giving up an attempt's entry takes away that entry or nothing. -/
theorem abandonAttempt_eq (pool : ConnectionPool) (key : ConnectionKey) (number : Nat) (other : ConnectionKey) :
    pool.abandonAttempt key number other = pool other ∨
      other = key ∧ pool key = some (.connecting number) ∧ pool.abandonAttempt key number other = none := by
  unfold ConnectionPool.abandonAttempt ConnectionPool.isCurrentAttempt
  split_ifs with current
  · by_cases same : other = key
    · subst same
      exact .inr ⟨rfl, by simpa using current, remove_self ..⟩
    · exact .inl (remove_of_ne same)
  · exact .inl rfl

theorem removeIfSame_eq (pool : ConnectionPool) (key : ConnectionKey) (shared : Nat) (other : ConnectionKey) :
    pool.removeIfSame key shared other = pool other ∨
      other = key ∧ pool key = some (.connected shared) ∧ pool.removeIfSame key shared other = none := by
  unfold ConnectionPool.removeIfSame
  split_ifs with current
  · by_cases same : other = key
    · subst same
      exact .inr ⟨rfl, current, remove_self ..⟩
    · exact .inl (remove_of_ne same)
  · exact .inl rfl

theorem markConnected_eq (pool : ConnectionPool) (key : ConnectionKey) (number : Nat) (other : ConnectionKey) :
    (pool.markConnected key number).2 other = pool other ∨
      other = key ∧ pool key = some (.connecting number) ∧
        (pool.markConnected key number).2 other = some (.connected number) := by
  unfold ConnectionPool.markConnected ConnectionPool.isCurrentAttempt
  split_ifs with current
  · by_cases same : other = key
    · subst same
      exact .inr ⟨rfl, by simpa using current, put_self ..⟩
    · exact .inl (put_of_ne same)
  · exact .inl rfl

/-- What `get_or_connect` answers, and what it leaves under the key. -/
inductive Looked (pool : ConnectionPool) (key : ConnectionKey) (lost : Nat → Bool) (expired : Bool) (fresh : Nat) :
    ConnectionPool → Lookup → Prop
  | joined (attempt : Nat) (known : pool key = some (.connecting attempt)) (young : expired = false) :
      Looked pool key lost expired fresh pool (.joined attempt)
  | reused (shared : Nat) (known : pool key = some (.connected shared)) (live : lost shared = false) :
      Looked pool key lost expired fresh pool (.reused shared)
  | started (stale : ∀ shared, pool key = some (.connected shared) → lost shared = true) :
      Looked pool key lost expired fresh (pool.put key (.connecting fresh)) (.started fresh)

theorem getOrConnect_looked (pool : ConnectionPool) (key : ConnectionKey) (lost : Nat → Bool) (expired : Bool) (fresh : Nat) :
    Looked pool key lost expired fresh (pool.getOrConnect key lost expired fresh).1
      (pool.getOrConnect key lost expired fresh).2 := by
  cases known : pool key with
  | none =>
    have kept : pool.dropLost key lost = pool := by simp [ConnectionPool.dropLost, known]
    simp only [ConnectionPool.getOrConnect, kept, known]
    exact .started (by simp [known])
  | some entry =>
    cases entry with
    | connecting attempt =>
      have kept : pool.dropLost key lost = pool := by simp [ConnectionPool.dropLost, known]
      simp only [ConnectionPool.getOrConnect, kept, known]
      split_ifs with old
      · exact .started (by simp [known])
      · exact .joined attempt known (by simpa using old)
    | connected shared =>
      cases gone : lost shared with
      | true =>
        have dropped : pool.dropLost key lost = pool.remove key := by simp [ConnectionPool.dropLost, known, gone]
        have put : (pool.remove key).put key (.connecting fresh) = pool.put key (.connecting fresh) := Function.update_idem ..
        simp only [ConnectionPool.getOrConnect, dropped, remove_self, put]
        exact .started (by simp [known, gone])
      | false =>
        have kept : pool.dropLost key lost = pool := by simp [ConnectionPool.dropLost, known, gone]
        simp only [ConnectionPool.getOrConnect, kept, known]
        exact .reused shared known gone

section Views

variable {s s' : ConnectSystem} {op : ConnectOp} {outputs : List ConnectOutput} (takes : Takes s op s' outputs)

include takes

theorem pool_change : PoolChange s op s'.pool := by
  cases takes with
  | idle | restaged | proceeded | prompted | timedOut | sent | losing | foundIdle | borrowed | gaveBack => exact .same _
  | connectTab | closeTab => simpa [connectTab, closeTab, expire] using PoolChange.same _
  | accepted | rejected => simpa using PoolChange.same _
  | join expired command dispatching =>
    rw [join_pool]
    exact .looked expired command dispatching
  | succeeded number attempt known stage => exact .marked number attempt known stage
  | finished number attempt known completed stage =>
    cases completed with
    | true => exact .same _
    | false => exact .finished number attempt known stage
  | aborted number attempt known stage => exact .aborted number attempt known stage
  | reaped number attempt known => exact .reaped number attempt known
  | swept expired => exact .swept expired
  | removed key => exact .removed key
  | watchedLost shared attempt known lost => exact .watchedLost shared attempt known lost
  | watchedIdle shared attempt known idle => exact .watchedIdle shared attempt known idle

theorem attempt_move (number : Nat) : AttemptMove s op number (s'.attempts number) := by
  cases takes with
  | idle | reaped | swept | removed | losing | watchedLost | foundIdle | watchedIdle | borrowed | gaveBack | proceeded =>
    exact .same
  | connectTab command =>
    simp only [connectTab, expire, retire_attempts, retire_registry]
    apply decide_move
    intro requestId asked
    obtain ⟨entry, pending, stale⟩ := (Option.any_eq_true ..).mp asked
    exact .stale command entry pending stale
  | closeTab tabId =>
    simp only [closeTab, expire, retire_attempts, retire_registry]
    apply decide_move
    intro requestId asked
    obtain ⟨entry, pending, own⟩ := (Option.any_eq_true ..).mp asked
    exact .closed tabId entry pending (by simpa using own)
  | accepted requestId => exact resolve_move .accepted number
  | rejected requestId => exact resolve_move .rejected number
  | join expired command dispatching =>
    unfold join
    split
    · exact .same
    · exact .same
    · simp only [spawn, started]
      by_cases fresh : number = s.nextAttempt
      · subst fresh
        rw [Function.update_self]
        exact .started expired command dispatching rfl rfl
      · rw [Function.update_of_ne fresh]
        exact .same
  | prompted other attempt known stage jump host port algorithm fingerprint =>
    exact staged_move known (.prompted jump host port algorithm fingerprint stage) number
  | timedOut other attempt known requestId stage => exact staged_move known (.timedOut requestId stage) number
  | restaged other attempt known op stage outputs restages => exact staged_move known (.restaged op stage outputs restages) number
  | succeeded other attempt known stage =>
    rw [markConnected_fst]
    exact staged_move known (.succeeded stage) number
  | sent other attempt known result completed stage => exact staged_move known (.sent result completed stage) number
  | finished other attempt known completed stage => exact staged_move known (.finished completed stage) number
  | aborted other attempt known stage => exact staged_move known (.aborted stage) number

theorem unknown_kept (other : ∀ expired, op ≠ .join expired) {number : Nat} (unknown : s.attempts number = none) :
    s'.attempts number = none := by
  have move := attempt_move takes number
  generalize s'.attempts number = after at move
  cases move with
  | same => exact unknown
  | started expired _ _ joins => exact absurd joins (other expired)
  | staged attempt known =>
    rw [unknown] at known
    cases known

/-- Only a `get_or_connect` that installs an attempt moves the counter on, and takes the number it had. -/
theorem nextAttempt_moves :
    (s'.nextAttempt = s.nextAttempt ∧ (∀ number, .started number ∉ outputs) ∧
        ∀ number, s.attempts number = none → s'.attempts number = none) ∨
      s'.nextAttempt = s.nextAttempt + 1 ∧ ∀ number, .started number ∈ outputs → number = s.nextAttempt := by
  have unknown := unknown_kept takes
  cases takes with
  | idle op => exact .inl ⟨rfl, by simp, fun _ h => h⟩
  | reaped | swept | removed | losing | watchedLost | foundIdle | watchedIdle | borrowed | gaveBack | timedOut | succeeded
  | finished | aborted =>
    exact .inl ⟨rfl, by simp, fun _ => unknown (by simp)⟩
  | connectTab | closeTab => exact .inl ⟨by simp [connectTab, closeTab, expire], by simp, fun _ => unknown (by simp)⟩
  | accepted | rejected => exact .inl ⟨by simp, by simp, fun _ => unknown (by simp)⟩
  | join expired command dispatching =>
    have looked := getOrConnect_looked s.pool command.key s.lost expired s.nextAttempt
    unfold join
    generalize s.pool.getOrConnect command.key s.lost expired s.nextAttempt = found at looked ⊢
    obtain ⟨after, lookup⟩ := found
    cases looked with
    | joined | reused => exact .inl ⟨rfl, by simp, fun _ h => h⟩
    | started => exact .inr ⟨rfl, by simp⟩
  | prompted => exact .inl ⟨rfl, by simp [prompt], fun _ => unknown (by simp)⟩
  | restaged number attempt known op stage outputs restages =>
    cases restages <;> exact .inl ⟨rfl, by simp, fun _ => unknown (by simp)⟩
  | sent number attempt known result completed stage =>
    refine .inl ⟨rfl, ?_, fun _ => unknown (by simp)⟩
    unfold send
    split_ifs <;> simp
  | proceeded number connect known op next outputs proceeds =>
    cases proceeds <;> exact .inl ⟨rfl, by simp, fun _ => unknown (by simp)⟩

end Views

end ConnectSystem

end MacSftp
