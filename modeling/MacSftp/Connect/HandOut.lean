import MacSftp.Connect.Ownership

namespace MacSftp

open Lib

namespace ConnectSystem

theorem handedOut_cases {s s' : ConnectSystem} {op : ConnectOp} {outputs : List ConnectOutput} (takes : Takes s op s' outputs)
    {key : ConnectionKey} {shared : Nat} (out : .handedOut key shared ∈ outputs) :
    s.pool key = some (.connected shared) ∧ s.lost shared = false ∨
      op = .send shared ∧
        ∃ attempt completed, s.attempts shared = some attempt ∧ attempt.key = key ∧
          attempt.stage = .settled (.ok ()) completed := by
  cases takes with
  | join expired command dispatching =>
    left
    have looked := getOrConnect_looked s.pool command.key s.lost expired s.nextAttempt
    unfold join at out
    generalize s.pool.getOrConnect command.key s.lost expired s.nextAttempt = found at looked out
    obtain ⟨after, lookup⟩ := found
    cases looked with
    | joined | started => simp at out
    | reused other known live =>
      obtain ⟨rfl, rfl⟩ : key = command.key ∧ shared = other := by simpa using out
      exact ⟨known, live⟩
  | sent number attempt known result completed stage =>
    right
    unfold send at out
    split_ifs at out with ok
    · obtain ⟨waiter, -, same⟩ := List.mem_map.mp out
      obtain ⟨rfl, rfl⟩ : attempt.key = key ∧ number = shared := by simpa using same
      cases result with
      | error failure => cases ok
      | ok => exact ⟨rfl, attempt, completed, known, rfl, stage⟩
    · cases out
  | restaged number attempt known op stage outputs restages => cases restages <;> simp at out
  | proceeded number connect known op next outputs proceeds => cases proceeds <;> simp at out
  | prompted => simp [prompt] at out
  | _ => simp at out

section HandedOut

variable {s s' : ConnectSystem} {op : ConnectOp} {outputs : List ConnectOutput} (takes : Takes s op s' outputs)

include takes

theorem handedOut_connected (valid : s.PoolValid) {key : ConnectionKey} {shared : Nat} (out : .handedOut key shared ∈ outputs) :
    s.pool key = some (.connected shared) := by
  rcases handedOut_cases takes out with ⟨entry, -⟩ | ⟨-, attempt, completed, known, own, stage⟩
  · exact entry
  · rw [← own]
    exact (valid.installed shared attempt completed known stage).2

theorem lost_kept {shared : Nat} (lost : s.lost shared = true) : s'.lost shared = true := by
  cases takes with
  | losing other =>
    by_cases same : shared = other
    · subst same
      exact Function.update_self ..
    · exact (Function.update_of_ne same _ _).trans lost
  | connectTab | closeTab | accepted | rejected =>
    simp only [connectTab, closeTab, expire, retire, resolve]
    split <;> exact lost
  | join =>
    unfold join
    split <;> exact lost
  | _ => exact lost

theorem borrowed_cases (shared : Nat) : s'.borrowed shared = s.borrowed shared ∨ s'.borrowed shared = false ∨
    ∃ attempt, s.attempts shared = some attempt ∧ (s.unheld shared = false ∨ s.pool attempt.key = some (.connected shared)) := by
  cases takes with
  | borrowed other attempt known alive =>
    by_cases same : shared = other
    · subst same
      exact .inr (.inr ⟨attempt, known, alive⟩)
    · exact .inl (Function.update_of_ne same _ _)
  | gaveBack other =>
    by_cases same : shared = other
    · subst same
      exact .inr (.inl (Function.update_self ..))
    · exact .inl (Function.update_of_ne same _ _)
  | connectTab | closeTab | accepted | rejected =>
    left
    simp only [connectTab, closeTab, expire, retire, resolve]
    split <;> rfl
  | join =>
    left
    unfold join
    split <;> rfl
  | _ => exact .inl rfl

end HandedOut

theorem unheld_iff {s : ConnectSystem} (bounded : ∀ number, s.nextConnect ≤ number → s.connects number = none) (shared : Nat) :
    s.unheld shared = true ↔ (∀ number connect, s.connects number = some connect → connect.holds shared = false) ∧
      s.announced shared ∧ s.borrowed shared = false := by
  have connects : (List.range s.nextConnect).all (fun waiter => !(s.connects waiter).any (Connect.holds shared)) = true ↔
      ∀ number connect, s.connects number = some connect → connect.holds shared = false := by
    rw [List.all_eq_true]
    constructor
    · intro every number connect known
      have within : number < s.nextConnect := by
        by_contra above
        rw [bounded number (by omega)] at known
        cases known
      simpa [known] using every number (List.mem_range.mpr within)
    · intro every number _
      cases known : s.connects number with
      | none => rfl
      | some connect => simpa using every number connect known
  have attempts : (!(s.attempts shared).any fun attempt => attempt.stage.hasConnection) = true ↔ s.announced shared := by
    unfold announced
    cases s.attempts shared <;> simp
  unfold unheld
  rw [Bool.and_eq_true, Bool.and_eq_true, connects, attempts, Bool.not_eq_true', and_assoc]

/-- Nothing has the connection any more, the pool included. -/
structure Dropped (s : ConnectSystem) (shared : Nat) : Prop where
  unheld : s.unheld shared = true
  outside : ∀ key, s.pool key ≠ some (.connected shared)
  settled : ∃ attempt, s.attempts shared = some attempt ∧ attempt.stage.unsettled = false

section Dropped

variable {s s' : ConnectSystem} {op : ConnectOp} {outputs : List ConnectOutput} (takes : Takes s op s' outputs)

include takes

theorem unheld_connect {shared : Nat} (free : ∀ number connect, s.connects number = some connect → connect.holds shared = false)
    (announced : s.announced shared) (outside : ∀ key, s.pool key ≠ some (.connected shared)) {number : Nat} {connect : Connect}
    (known : s'.connects number = some connect) : connect.holds shared = false := by
  have move := connect_move takes number
  rw [known] at move
  generalize after : some connect = moved at move
  cases move with
  | same => exact free number connect after.symm
  | retired before old =>
    obtain rfl := Option.some.inj after
    exact free number before old
  | spawned expired command dispatching _ _ attempt stage finds =>
    obtain rfl := Option.some.inj after
    cases finds with
    | joined | started => simp [Connect.holds]
    | reused _ entry _ =>
      have other : attempt ≠ shared := by
        rintro rfl
        exact outside command.key entry
      simp [Connect.holds, other]
  | received attempt before old _ on result completed settled =>
    obtain rfl := Option.some.inj after
    cases result with
    | error failure => simp [Connect.holds, Except.map]
    | ok =>
      have other : before.attempt ≠ shared := by
        rintro rfl
        have free := announced attempt on
        simp [settled, AttemptStage.hasConnection] at free
      simp [Connect.holds, Except.map, other]
  | proceeded before old next proceeds =>
    obtain rfl := Option.some.inj after
    have held := free number before old
    cases proceeds <;> simp_all [Connect.holds]

theorem dropped_kept (valid : s.PoolValid) {shared : Nat} (dropped : s.Dropped shared) : s'.Dropped shared := by
  obtain ⟨unheld, outside, attempt, known, settled⟩ := dropped
  obtain ⟨free, announced, unborrowed⟩ := (unheld_iff valid.connects shared).mp unheld
  obtain ⟨after, now, -, still, stage⟩ := settled_kept takes known settled (valid.attempts _ le_rfl)
  refine ⟨(unheld_iff (connects_fresh takes valid.connects) shared).mpr ⟨?_, ?_, ?_⟩, ?_, after, now, still⟩
  · intro number connect
    exact unheld_connect takes free announced outside
  · intro other found
    obtain rfl : after = other := by simpa [now] using found
    rcases stage with same | none
    · rw [same]
      exact announced attempt known
    · exact none
  · rcases borrowed_cases takes shared with same | returned | ⟨other, -, held | entry⟩
    · exact same.trans unborrowed
    · exact returned
    · simp [unheld] at held
    · exact absurd entry (outside other.key)
  · intro key entry
    rcases connected_origin (pool_change takes) entry with old | ⟨rfl, other, found, -, running⟩
    · exact outside key old
    · obtain rfl : attempt = other := by simpa [known] using found
      simp [running, AttemptStage.unsettled] at settled

end Dropped

section Kept

variable {s s' : ConnectSystem} {op : ConnectOp} {outputs : List ConnectOutput} (takes : Takes s op s' outputs)

include takes

theorem unheld_removed {shared : Nat} (leaves : (∃ key, op = .remove key) ∨ op = .watchIdle shared) :
    s'.unheld shared = s.unheld shared := by
  rcases leaves with ⟨key, rfl⟩ | rfl
  · cases takes with
    | idle | removed => rfl
    | restaged _ _ _ _ _ _ restages => cases restages
    | proceeded _ _ _ _ _ _ proceeds => cases proceeds
  · cases takes with
    | idle | watchedIdle => rfl
    | restaged _ _ _ _ _ _ restages => cases restages
    | proceeded _ _ _ _ _ _ proceeds => cases proceeds

theorem leaves_dropped (orderly : s.Orderly op) (valid : s.PoolValid) {key : ConnectionKey} {shared : Nat}
    (entry : s.pool key = some (.connected shared)) (gone : s'.pool key ≠ some (.connected shared)) :
    s'.lost shared = true ∨ s'.Dropped shared := by
  have change := pool_change takes
  have leaves := (connected_kept change entry).resolve_left gone
  rcases (orderly_leaves orderly entry leaves).2 with lost | unheld
  · exact .inl (lost_kept takes lost)
  · obtain ⟨attempt, known, own, settled⟩ := valid.owned key shared entry
    obtain ⟨after, now, -, still, -⟩ := settled_kept takes known settled (valid.attempts _ le_rfl)
    have outside : ∀ other, s'.pool other ≠ some (.connected shared) := by
      intro other elsewhere
      rcases connected_origin change elsewhere with old | ⟨rfl, found, _, _, running⟩
      · obtain ⟨same, found, here, -⟩ := valid.owned other shared old
        obtain rfl : attempt = same := by simpa [known] using found
        obtain rfl : key = other := own.symm.trans here
        exact gone elsewhere
      · cases leaves
    cases leaves with
    | replaced _ _ _ _ lost | swept _ lost | watchedLost lost => exact .inl (lost_kept takes lost)
    | removed => exact .inr ⟨(unheld_removed takes (.inl ⟨key, rfl⟩)).trans unheld, outside, after, now, still⟩
    | watchedIdle => exact .inr ⟨(unheld_removed takes (.inr rfl)).trans unheld, outside, after, now, still⟩

end Kept

/-- A connection that was handed out is still the one of its key, unless it is lost or nothing has it any more. -/
def HandedOutKept (past : List (ConnectOp × List ConnectOutput)) (s : ConnectSystem) : Prop :=
  ∀ entry ∈ past, ∀ key shared, .handedOut key shared ∈ entry.2 →
    s.pool key = some (.connected shared) ∨ s.lost shared = true ∨ s.Dropped shared

theorem handedOutKept_step {s s' : ConnectSystem} {op : ConnectOp} {outputs : List ConnectOutput}
    {past : List (ConnectOp × List ConnectOutput)} (takes : Takes s op s' outputs) (orderly : s.Orderly op) (valid : s.PoolValid)
    (kept : HandedOutKept past s) : HandedOutKept (past ++ [(op, outputs)]) s' := by
  intro entry mem key shared out
  have now : s.pool key = some (.connected shared) ∨ s.lost shared = true ∨ s.Dropped shared := by
    rcases List.mem_append.mp mem with earlier | last
    · exact kept entry earlier key shared out
    · obtain rfl := List.mem_singleton.mp last
      exact .inl (handedOut_connected takes valid out)
  rcases now with entry | lost | dropped
  · by_cases still : s'.pool key = some (.connected shared)
    · exact .inl still
    · exact .inr (leaves_dropped takes orderly valid entry still)
  · exact .inr (.inl (lost_kept takes lost))
  · exact .inr (.inr (dropped_kept takes valid dropped))

theorem handedOut_run (ops : List ConnectOp) (orderly : machine.Admissible Orderly {} ops) :
    PoolValid (machine.run {} ops) ∧ HandedOutKept (machine.log {} ops) (machine.run {} ops) := by
  refine machine.admissible_log_invariant (I := fun past s => PoolValid s ∧ HandedOutKept past s) ?_ ?_ ops orderly
  · rintro past s op orderly ⟨valid, kept⟩
    have takes := step_takes s op
    exact ⟨poolValid_kept takes orderly valid, handedOutKept_step takes orderly valid kept⟩
  · exact ⟨poolValid_start, fun entry mem => absurd mem List.not_mem_nil⟩

def startedBy (s : ConnectSystem) (op : ConnectOp) : Option Nat :=
  (machine.out s op).findSome? fun output => match output with
    | .started attempt => some attempt
    | _ => none

/-- Attempts are numbered once, and they and the watchers change nothing in the pool but what is theirs. -/
structure Owned (ops : List ConnectOp) : Prop where
  numbers : (machine.collect startedBy {} ops).Pairwise (· < ·)
  attempts : ∀ before op after number key, ops = before ++ op :: after → op.attempt = some number →
    (machine.run {} (before ++ [op])).pool key ≠ (machine.run {} before).pool key →
    (machine.run {} before).pool key = some (.connecting number)
  watchers : ∀ before op after shared key, ops = before ++ op :: after → op.watched = some shared →
    (machine.run {} (before ++ [op])).pool key ≠ (machine.run {} before).pool key →
    (machine.run {} before).pool key = some (.connected shared) ∧ (machine.run {} (before ++ [op])).pool key = none

/-- What is handed out is the connection under its key, and of the others that were handed out for the key
none is live. -/
def HandsOutOne (ops : List ConnectOp) : Prop :=
  ∀ before op after key shared, ops = before ++ op :: after → .handedOut key shared ∈ machine.out (machine.run {} before) op →
    (machine.run {} before).pool key = some (.connected shared) ∧
      ∀ entry ∈ machine.log {} before, ∀ other, .handedOut key other ∈ entry.2 → other ≠ shared →
        (machine.run {} before).lost other = true ∨ (machine.run {} before).unheld other = true

theorem startedBy_mem {s : ConnectSystem} {op : ConnectOp} {number : Nat} (started : startedBy s op = some number) :
    .started number ∈ machine.out s op := by
  obtain ⟨output, mem, same⟩ := List.exists_of_findSome?_eq_some started
  split at same
  · obtain rfl := Option.some.inj same
    exact mem
  · cases same

theorem started_numbers (ops : List ConnectOp) : (machine.collect startedBy {} ops).Pairwise (fun a b => id a < id b) := by
  refine (machine.collect_numbered (I := fun _ => True) nextAttempt (fun _ _ _ => trivial) ?_ ?_ trivial ops).1
  · intro s op _
    rcases nextAttempt_moves (step_takes s op) with ⟨stays, -⟩ | ⟨moves, -⟩ <;> omega
  · intro s op number _ started
    have mem := startedBy_mem started
    rcases nextAttempt_moves (step_takes s op) with ⟨-, none, -⟩ | ⟨moves, numbered⟩
    · exact absurd mem (none number)
    · exact ⟨numbered number mem, by omega⟩

theorem run_owned (ops : List ConnectOp) : Owned ops where
  numbers := started_numbers ops
  attempts before op _ _ _ _ own moved := by
    rw [machine.run_concat] at moved
    exact attempt_owns (pool_change (step_takes _ op)) own moved
  watchers before op _ _ _ _ own moved := by
    rw [machine.run_concat] at moved ⊢
    exact watcher_owns (pool_change (step_takes _ op)) own moved

theorem run_handsOutOne (ops : List ConnectOp) (orderly : machine.Admissible Orderly {} ops) : HandsOutOne ops := by
  rintro before op after key shared rfl out
  have start := (machine.admissible_append _ before (op :: after)).mp orderly
  obtain ⟨valid, kept⟩ := handedOut_run before start.1
  have entry := handedOut_connected (step_takes _ op) valid out
  refine ⟨entry, ?_⟩
  intro past mem other earlier different
  rcases kept past mem key other earlier with same | lost | dropped
  · rw [entry] at same
    exact absurd (by simpa using same.symm) different
  · exact .inl lost
  · exact .inr dropped.unheld

/-- An attempt that is always the current one when it succeeds hands out the connection of its key. -/
theorem attempts_own_entries (ops : List ConnectOp) :
    Owned ops ∧ (machine.Admissible Orderly {} ops → HandsOutOne ops) :=
  ⟨run_owned ops, run_handsOutOne ops⟩

/-- A tab's `ConnectTab` for a saved profile. -/
def savedConnect (tab session : Nat) : ConnectTab where
  scope := ⟨⟨tab⟩, ⟨session⟩, 1⟩
  settings := ⟨"host", 22, "user", .sshAgent none, .direct⟩
  poolIdentity := .saved ⟨.sshAgent, none, none, 1, some ⟨7⟩, none⟩

theorem shared_entry_handed_out : HandsOutOne
    [.connectTab (savedConnect 1 1), .join false, .succeed 1, .send 1, .connectTab (savedConnect 2 2), .join false] := by
  refine (attempts_own_entries _).2 ⟨trivial, ?_, ?_, trivial, trivial, ?_, trivial⟩
  · intro command shared _ entry
    cases entry
  · intro attempt known _
    obtain rfl := Option.some.inj known
    decide +kernel
  · intro command shared dispatching _ lost
    cases lost

/-- The first attempt outlives its deadline and is replaced by a second one; both connections are handed out. -/
def lateAttempt : List ConnectOp :=
  [.connectTab (savedConnect 1 1), .join false, .deadline 1, .connectTab (savedConnect 2 2), .join false, .succeed 2, .send 2,
    .succeed 1]

theorem superseded_handed_out : ¬ HandsOutOne (lateAttempt ++ [.send 1]) := by
  intro one
  have current := (one lateAttempt (.send 1) [] (savedConnect 1 1).key 1 rfl (by decide +kernel)).1
  revert current
  decide +kernel

end ConnectSystem

end MacSftp
