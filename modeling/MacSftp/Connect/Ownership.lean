import MacSftp.Connect.Waiters

namespace MacSftp

open Lib

namespace ConnectSystem

/-- Why a connection leaves the pool. -/
inductive Leaves (s : ConnectSystem) (key : ConnectionKey) (shared : Nat) : ConnectOp → Prop
  | replaced (expired : Bool) (command : ConnectTab) (dispatching : s.dispatching = some command) (same : command.key = key)
      (lost : s.lost shared = true) : Leaves s key shared (.join expired)
  | swept (expired : List Nat) (lost : s.lost shared = true) : Leaves s key shared (.reapStale expired)
  | removed : Leaves s key shared (.remove key)
  | watchedLost (lost : s.lost shared = true) : Leaves s key shared (.watchLost shared)
  | watchedIdle (idle : s.idle shared = true) : Leaves s key shared (.watchIdle shared)

section Changes

variable {s : ConnectSystem} {op : ConnectOp} {pool : ConnectionPool} (change : PoolChange s op pool)

include change

theorem connected_kept {key : ConnectionKey} {shared : Nat} (known : s.pool key = some (.connected shared)) :
    pool key = some (.connected shared) ∨ Leaves s key shared op := by
  cases change with
  | same => exact .inl known
  | looked expired command dispatching =>
    have looked := getOrConnect_looked s.pool command.key s.lost expired s.nextAttempt
    generalize s.pool.getOrConnect command.key s.lost expired s.nextAttempt = found at looked ⊢
    obtain ⟨after, lookup⟩ := found
    cases looked with
    | joined | reused => exact .inl known
    | started stale =>
      by_cases same : key = command.key
      · subst same
        exact .inr (.replaced expired command dispatching rfl (stale shared known))
      · exact .inl ((put_of_ne same).trans known)
  | marked number attempt _ _ =>
    rcases markConnected_eq s.pool attempt.key number key with kept | ⟨rfl, connecting, -⟩
    · exact .inl (kept.trans known)
    · rw [known] at connecting
      cases connecting
  | finished number attempt _ _ | aborted number attempt _ _ | reaped number attempt _ =>
    rcases abandonAttempt_eq s.pool attempt.key number key with kept | ⟨rfl, connecting, -⟩
    · exact .inl (kept.trans known)
    · rw [known] at connecting
      cases connecting
  | swept expired =>
    cases gone : s.lost shared with
    | true => exact .inr (.swept expired gone)
    | false => exact .inl (by simp [ConnectionPool.reapStale, known, gone])
  | removed other =>
    by_cases same : key = other
    · subst same
      exact .inr .removed
    · exact .inl ((remove_of_ne same).trans known)
  | watchedLost other attempt _ lost =>
    rcases removeIfSame_eq s.pool attempt.key other key with kept | ⟨rfl, connected, -⟩
    · exact .inl (kept.trans known)
    · obtain rfl : other = shared := by simpa [known, eq_comm] using connected
      exact .inr (.watchedLost lost)
  | watchedIdle other attempt _ idle =>
    rcases removeIfSame_eq s.pool attempt.key other key with kept | ⟨rfl, connected, -⟩
    · exact .inl (kept.trans known)
    · obtain rfl : other = shared := by simpa [known, eq_comm] using connected
      exact .inr (.watchedIdle idle)

theorem connected_origin {key : ConnectionKey} {shared : Nat} (known : pool key = some (.connected shared)) :
    s.pool key = some (.connected shared) ∨
      op = .succeed shared ∧ ∃ attempt, s.attempts shared = some attempt ∧ attempt.key = key ∧ attempt.stage = .running := by
  cases change with
  | same => exact .inl known
  | looked expired command dispatching =>
    have looked := getOrConnect_looked s.pool command.key s.lost expired s.nextAttempt
    generalize s.pool.getOrConnect command.key s.lost expired s.nextAttempt = found at looked known
    obtain ⟨after, lookup⟩ := found
    cases looked with
    | joined | reused => exact .inl known
    | started =>
      by_cases same : key = command.key
      · subst same
        exact absurd ((put_self ..).symm.trans known) (by simp)
      · exact .inl ((put_of_ne same).symm.trans known)
  | marked number attempt old running =>
    rcases markConnected_eq s.pool attempt.key number key with kept | ⟨rfl, -, entry⟩
    · exact .inl (kept.symm.trans known)
    · obtain rfl : number = shared := by simpa [entry] using known
      exact .inr ⟨rfl, attempt, old, rfl, running⟩
  | finished number attempt | aborted number attempt | reaped number attempt =>
    rcases abandonAttempt_eq s.pool attempt.key number key with kept | ⟨-, -, gone⟩
    · exact .inl (kept.symm.trans known)
    · exact absurd (gone.symm.trans known) (by simp)
  | swept expired =>
    left
    simp only [ConnectionPool.reapStale] at known
    split at known
    · split_ifs at known
      cases known
    · rename_i entry
      split_ifs at known
      exact entry.trans known
    · cases known
  | removed other =>
    by_cases same : key = other
    · subst same
      rw [remove_self] at known
      cases known
    · exact .inl ((remove_of_ne same).symm.trans known)
  | watchedLost other attempt | watchedIdle other attempt =>
    rcases removeIfSame_eq s.pool attempt.key other key with kept | ⟨-, -, gone⟩
    · exact .inl (kept.symm.trans known)
    · exact absurd (gone.symm.trans known) (by simp)

end Changes

end ConnectSystem

/-- The attempt whose task, or whose deadline watcher, makes a step. -/
def ConnectOp.attempt : ConnectOp → Option Nat
  | .prompt number _ _ _ _ _ | .promptTimeout number | .heed number | .mismatch number _ | .authFailed number _ | .fail number _
  | .succeed number | .send number | .finish number | .abort number | .deadline number => some number
  | _ => none

/-- The connection whose watcher makes a step. -/
def ConnectOp.watched : ConnectOp → Option Nat
  | .watchLost shared | .watchIdle shared => some shared
  | _ => none

namespace ConnectSystem

section Owned

variable {s : ConnectSystem} {op : ConnectOp} {pool : ConnectionPool} (change : PoolChange s op pool)

include change

theorem attempt_owns {number : Nat} (own : op.attempt = some number) {key : ConnectionKey} (moved : pool key ≠ s.pool key) :
    s.pool key = some (.connecting number) := by
  cases change with
  | same => exact absurd rfl moved
  | looked | swept | removed | watchedLost | watchedIdle => cases own
  | marked other attempt _ _ =>
    obtain rfl : other = number := by simpa [ConnectOp.attempt] using own
    obtain ⟨rfl, connecting, -⟩ := (markConnected_eq s.pool attempt.key other key).resolve_left moved
    exact connecting
  | finished other attempt _ _ | aborted other attempt _ _ | reaped other attempt _ =>
    obtain rfl : other = number := by simpa [ConnectOp.attempt] using own
    obtain ⟨rfl, connecting, -⟩ := (abandonAttempt_eq s.pool attempt.key other key).resolve_left moved
    exact connecting

theorem watcher_owns {shared : Nat} (own : op.watched = some shared) {key : ConnectionKey} (moved : pool key ≠ s.pool key) :
    s.pool key = some (.connected shared) ∧ pool key = none := by
  cases change with
  | same => exact absurd rfl moved
  | looked | swept | removed | marked | finished | aborted | reaped => cases own
  | watchedLost other attempt _ _ | watchedIdle other attempt _ _ =>
    obtain rfl : other = shared := by simpa [ConnectOp.watched] using own
    obtain ⟨rfl, connected, gone⟩ := (removeIfSame_eq s.pool attempt.key other key).resolve_left moved
    exact ⟨connected, gone⟩

end Owned

/-- The result of the attempt that made the connection has reached its channel. -/
def announced (s : ConnectSystem) (shared : Nat) : Prop :=
  ∀ attempt, s.attempts shared = some attempt → attempt.stage.hasConnection = false

/-- An attempt succeeds only while the entry of its key is its own; no connection is taken out of the pool
between its installation and the message to those who wait for it, nor while it is live and somebody has it. -/
def Orderly (s : ConnectSystem) : ConnectOp → Prop
  | .succeed number => ∀ attempt, s.attempts number = some attempt → attempt.stage = .running →
      s.pool.isCurrentAttempt attempt.key number = true
  | .join _ => ∀ command shared, s.dispatching = some command → s.pool command.key = some (.connected shared) →
      s.lost shared = true → s.announced shared
  | .reapStale _ => ∀ key shared, s.pool key = some (.connected shared) → s.lost shared = true → s.announced shared
  | .watchLost shared => s.lost shared = true → s.announced shared
  | .remove key => ∀ shared, s.pool key = some (.connected shared) →
      s.announced shared ∧ (s.lost shared = true ∨ s.unheld shared = true)
  | .watchIdle shared => s.idle shared = true → s.unheld shared = true
  | _ => True

structure PoolKnown (s : ConnectSystem) : Prop where
  attempts : ∀ number, s.nextAttempt ≤ number → s.attempts number = none
  connects : ∀ number, s.nextConnect ≤ number → s.connects number = none
  owned : ∀ key shared, s.pool key = some (.connected shared) →
    ∃ attempt, s.attempts shared = some attempt ∧ attempt.key = key ∧ attempt.stage.unsettled = false

structure PoolValid (s : ConnectSystem) : Prop extends PoolKnown s where
  -- a connection whose message is not sent yet is the entry of its key
  installed : ∀ number attempt completed, s.attempts number = some attempt → attempt.stage = .settled (.ok ()) completed →
    completed = true ∧ s.pool attempt.key = some (.connected number)

theorem advances_settled {s : ConnectSystem} {number : Nat} {attempt : Attempt} {op : ConnectOp} {stage : AttemptStage}
    (advances : Advances s number attempt op stage) (settled : attempt.stage.unsettled = false) :
    stage.unsettled = false ∧ stage.hasConnection = false := by
  cases advances with
  | restaged op stage outputs restages =>
    cases restages with
    | heeded _ _ before | mismatched _ before | authFailed _ before => simp [before, AttemptStage.unsettled] at settled
    | failed error failure before =>
      cases stage : attempt.stage <;> simp [stage, AttemptStage.unsettled, AttemptStage.failure] at settled before
  | decided _ _ _ before | prompted _ _ _ _ _ before | timedOut _ before | succeeded before =>
    simp [before, AttemptStage.unsettled] at settled
  | aborted before => simp [before] at settled
  | sent | finished => exact ⟨rfl, rfl⟩

theorem settled_kept {s s' : ConnectSystem} {op : ConnectOp} {outputs : List ConnectOutput} (takes : Takes s op s' outputs)
    {number : Nat} {attempt : Attempt} (known : s.attempts number = some attempt) (settled : attempt.stage.unsettled = false)
    (old : s.attempts s.nextAttempt = none) :
    ∃ after, s'.attempts number = some after ∧ after.key = attempt.key ∧ after.stage.unsettled = false ∧
      (after.stage = attempt.stage ∨ after.stage.hasConnection = false) := by
  have move := attempt_move takes number
  generalize s'.attempts number = moved at move
  cases move with
  | same => exact ⟨attempt, known, rfl, settled, .inl rfl⟩
  | started expired command _ _ fresh =>
    rw [fresh, old] at known
    cases known
  | staged before found stage advances =>
    obtain rfl : attempt = before := by simpa [known] using found
    exact ⟨_, rfl, rfl, (advances_settled advances settled).1, .inr (advances_settled advances settled).2⟩

theorem restages_succeed {number : Nat} {attempt : Attempt} {op : ConnectOp} {stage : AttemptStage} {outputs : List ConnectOutput}
    (restages : Restages number attempt op stage outputs) (completed : Bool) : stage ≠ .settled (.ok ()) completed := by
  cases restages with
  | heeded requestId decision => split_ifs <;> simp
  | mismatched | authFailed | failed => simp

theorem succeed_installs {s s' : ConnectSystem} {number : Nat} {outputs : List ConnectOutput}
    (takes : Takes s (.succeed number) s' outputs) {before after : Attempt} (old : s.attempts number = some before)
    (current : s.pool.isCurrentAttempt before.key number = true) (known : s'.attempts number = some after)
    (moved : after.stage ≠ before.stage) : s'.pool before.key = some (.connected number) := by
  cases takes with
  | idle =>
    rw [old] at known
    exact absurd (congrArg Attempt.stage (Option.some.inj known).symm) moved
  | restaged other attempt _ _ _ _ restages => cases restages
  | proceeded other connect _ _ _ _ proceeds => cases proceeds
  | succeeded _ attempt found stage =>
    obtain rfl : before = attempt := by simpa [found] using old.symm
    simp only [ConnectionPool.markConnected, current, if_true]
    exact put_self ..

theorem unheld_announced {s : ConnectSystem} {shared : Nat} (unheld : s.unheld shared = true) : s.announced shared := by
  intro attempt known
  simp only [ConnectSystem.unheld, known, Bool.and_eq_true] at unheld
  simpa using unheld.1.2

theorem orderly_leaves {s : ConnectSystem} {op : ConnectOp} (orderly : s.Orderly op) {key : ConnectionKey} {shared : Nat}
    (known : s.pool key = some (.connected shared)) (leaves : Leaves s key shared op) :
    s.announced shared ∧ (s.lost shared = true ∨ s.unheld shared = true) := by
  cases leaves with
  | replaced expired command dispatching same lost => exact ⟨orderly command shared dispatching (same ▸ known) lost, .inl lost⟩
  | swept expired lost => exact ⟨orderly key shared known lost, .inl lost⟩
  | removed => exact orderly shared known
  | watchedLost lost => exact ⟨orderly lost, .inl lost⟩
  | watchedIdle idle => exact ⟨unheld_announced (orderly idle), .inr (orderly idle)⟩

theorem installed_kept {s s' : ConnectSystem} {op : ConnectOp} {outputs : List ConnectOutput} (takes : Takes s op s' outputs)
    (orderly : s.Orderly op) (valid : s.PoolValid) {number : Nat} {attempt : Attempt} {completed : Bool}
    (known : s'.attempts number = some attempt) (stage : attempt.stage = .settled (.ok ()) completed) :
    completed = true ∧ s'.pool attempt.key = some (.connected number) := by
  rcases attempt_known takes known with ⟨before, old, shape, kept | advances⟩ | ⟨-, _, _, -, -, rfl⟩
  · have same : attempt = before := by rw [shape, kept]
    subst same
    obtain ⟨done, entry⟩ := valid.installed number attempt completed old stage
    refine ⟨done, (connected_kept (pool_change takes) entry).resolve_right ?_⟩
    intro leaves
    have announced := (orderly_leaves orderly entry leaves).1 attempt old
    simp [stage, AttemptStage.hasConnection] at announced
  · have key : attempt.key = before.key := by rw [shape]
    rw [key]
    generalize next : attempt.stage = after at advances
    cases advances with
    | restaged _ _ _ restages => exact absurd (next.symm.trans stage) (restages_succeed restages completed)
    | succeeded running =>
      have current : s.pool.isCurrentAttempt before.key number = true := orderly before old running
      have done : s.pool.isCurrentAttempt before.key number = completed := by simpa [stage] using next.symm
      exact ⟨done ▸ current, succeed_installs takes old current known (by simp [stage, running])⟩
    | _ => simp [stage] at next
  · cases stage

theorem succeed_settles {s s' : ConnectSystem} {number : Nat} {outputs : List ConnectOutput}
    (takes : Takes s (.succeed number) s' outputs) {attempt : Attempt} (known : s.attempts number = some attempt)
    (moved : s'.pool ≠ s.pool) :
    ∃ after, s'.attempts number = some after ∧ after.key = attempt.key ∧ after.stage.unsettled = false := by
  cases takes with
  | idle => exact absurd rfl moved
  | restaged other attempt _ _ _ _ restages => cases restages
  | proceeded other connect _ _ _ _ proceeds => cases proceeds
  | succeeded _ found old stage =>
    obtain rfl : attempt = found := by simpa [known] using old
    exact ⟨_, Function.update_self .., rfl, rfl⟩

theorem owned_kept {s s' : ConnectSystem} {op : ConnectOp} {outputs : List ConnectOutput} (takes : Takes s op s' outputs)
    (valid : s.PoolKnown) {key : ConnectionKey} {shared : Nat} (known : s'.pool key = some (.connected shared)) :
    ∃ attempt, s'.attempts shared = some attempt ∧ attempt.key = key ∧ attempt.stage.unsettled = false := by
  by_cases old : s.pool key = some (.connected shared)
  · obtain ⟨attempt, found, own, settled⟩ := valid.owned key shared old
    obtain ⟨after, now, same, still, -⟩ := settled_kept takes found settled (valid.attempts _ le_rfl)
    exact ⟨after, now, same.trans own, still⟩
  · obtain ⟨rfl, attempt, found, own, -⟩ := (connected_origin (pool_change takes) known).resolve_left old
    have moved : s'.pool ≠ s.pool := by
      intro same
      exact old (same ▸ known)
    obtain ⟨after, now, same, settled⟩ := succeed_settles takes found moved
    exact ⟨after, now, same.trans own, settled⟩

theorem poolKnown_kept {s s' : ConnectSystem} {op : ConnectOp} {outputs : List ConnectOutput} (takes : Takes s op s' outputs)
    (known : s.PoolKnown) : s'.PoolKnown where
  attempts := attempts_fresh takes known.attempts
  connects := connects_fresh takes known.connects
  owned _ _ := owned_kept takes known

theorem poolKnown_start : PoolKnown {} where
  attempts _ _ := rfl
  connects _ _ := rfl
  owned _ _ known := by cases known

theorem poolValid_kept {s s' : ConnectSystem} {op : ConnectOp} {outputs : List ConnectOutput} (takes : Takes s op s' outputs)
    (orderly : s.Orderly op) (valid : s.PoolValid) : s'.PoolValid where
  toPoolKnown := poolKnown_kept takes valid.toPoolKnown
  installed _ _ _ := installed_kept takes orderly valid

theorem poolValid_start : PoolValid {} where
  toPoolKnown := poolKnown_start
  installed _ _ _ known := by cases known

end ConnectSystem

end MacSftp
