import MacSftp.Lib.Disks
import MacSftp.Lib.Pools
import MacSftp.Pipeline.Words
import MacSftp.Storage.FileWrites

namespace MacSftp.AtomicFile

open Lib

inductive AtomicWriteError
  | notCommitted (error : IoError)
  | replacedButNotDurable (error : IoError)
  deriving DecidableEq, Repr

/-- A call, with its process and the number that the counter of the process gives it. The files that are replaced have no
hidden names. -/
structure WriteCall where
  pid : Nat
  sequence : Nat
  fileName : List Char
  contents : List UInt8
  visible : fileName.head? ≠ some '.'

def tempPathFor (call : WriteCall) : List Char :=
  '.' :: (call.fileName ++ ".tmp-".toList ++ Nat.toDigits 10 call.pid) ++ '-' :: Nat.toDigits 10 call.sequence

inductive FileOp
  | acquireLock (path : List Char)
  | releaseLock (path : List Char)
  | read (path : List Char)
  | openParent
  | createNew (path : List Char)
  | writeAll (handle : Nat) (contents : List UInt8)
  | syncAll (handle : Nat)
  | rename (source target : List Char)
  | syncParent
  | removeFile (path : List Char)
  deriving DecidableEq, Repr

def FileOp.Answer : FileOp → Type
  | .releaseLock _ => Unit
  | .read _ => Except IoError (List UInt8)
  | .createNew _ => Except IoError Nat
  | .acquireLock _ | .openParent | .writeAll .. | .syncAll _ | .rename .. | .syncParent | .removeFile _ => Except IoError Unit

abbrev DiskM (α : Type) : Type := Program FileOp FileOp.Answer AtomicWriteError α

def perform (op : FileOp) : DiskM op.Answer := Program.perform op

def fill (handle : Nat) (contents : List UInt8) : DiskM (Except IoError Unit) := do
  match ← perform (.writeAll handle contents) with
  | .error error => pure (.error error)
  | .ok () => perform (.syncAll handle)

def stage (temp : List Char) (contents : List UInt8) : DiskM (Except IoError Unit) := do
  match ← perform (.createNew temp) with
  | .error error => pure (.error error)
  | .ok handle => fill handle contents

def discardTempFile (temp : List Char) (failure : IoError) : DiskM AtomicWriteError := do
  match ← perform (.removeFile temp) with
  | .ok () => pure (.notCommitted failure)
  | .error error =>
    if error.kind = .notFound then pure (.notCommitted failure)
    else
      pure (.notCommitted ⟨failure.kind,
        failure.text ++ "; could not remove temporary file " ++ String.ofList temp ++ ": " ++ error.text⟩)

def syncReplaced : DiskM Unit := do
  match ← perform .syncParent with
  | .ok () => pure ()
  | .error error => Program.throw (.replacedButNotDurable error)

def writePhased (call : WriteCall) : DiskM Unit := do
  match ← perform .openParent with
  | .error error => Program.throw (.notCommitted error)
  | .ok () =>
    match ← stage (tempPathFor call) call.contents with
    | .error failure => Program.throw (← discardTempFile (tempPathFor call) failure)
    | .ok () =>
      match ← perform (.rename (tempPathFor call) call.fileName) with
      | .error failure => Program.throw (← discardTempFile (tempPathFor call) failure)
      | .ok () => syncReplaced

/-- The directory that holds the files, what has befallen its names, and who has the lock of a file. -/
structure Directory where
  disk : Lib.Disk (List Char) UInt8
  log : List (Change (List Char) UInt8) := []
  locks : List Char → Option Nat := fun _ => none

/-- An operation of the caller `t`. A lock is given to one caller at a time, and a failed write may have written a part. -/
def FileOp.Does (t : Nat) : (op : FileOp) → op.Answer → Directory → Directory → Prop
  | .acquireLock path, .ok (), w, w' => w.locks path = none ∧ w' = { w with locks := Function.update w.locks path (some t) }
  | .acquireLock _, .error _, w, w' => w' = w
  | .releaseLock path, (), w, w' => w' = { w with locks := Function.update w.locks path none }
  | .read path, .ok contents, w, w' => w.disk.read path = some contents ∧ w' = w
  | .read path, .error error, w, w' => (error.kind = .notFound → w.disk.read path = none) ∧ w' = w
  | .openParent, _, w, w' => w' = w
  | .createNew path, .ok handle, w, w' =>
    w.disk.entries path = none ∧ handle = w.disk.inodes ∧ w' = { w with disk := w.disk.create path }
  | .createNew _, .error _, w, w' => w' = w
  | .writeAll handle contents, .ok (), w, w' => w' = { w with disk := w.disk.append handle contents }
  | .writeAll handle contents, .error _, w, w' => ∃ n, w' = { w with disk := w.disk.append handle (contents.take n) }
  | .syncAll handle, .ok (), w, w' => w' = { w with disk := w.disk.syncFile handle }
  | .syncAll _, .error _, w, w' => w' = w
  | .rename source target, .ok (), w, w' => ∃ inode, w.disk.entries source = some inode ∧
      w' = { w with
        disk := w.disk.rename source target
        log := w.log ++ [.replaced source target (w.disk.data inode)] }
  | .rename .., .error _, w, w' => w' = w
  | .syncParent, .ok (), w, w' => w' = { w with disk := w.disk.syncEntries, log := w.log ++ [.flushed] }
  | .syncParent, .error _, w, w' => w' = w
  | .removeFile path, .ok (), w, w' => w.disk.entries path ≠ none ∧ w' = { w with disk := w.disk.enter path none }
  | .removeFile _, .error _, w, w' => w' = w

section Names

theorem dash_not_digit (n : Nat) : '-' ∉ Nat.toDigits 10 n := by
  intro mem
  have digit := Nat.isDigit_of_mem_toDigits (by omega) (by omega) mem
  simp at digit

theorem split_last {α : Type} {c : α} {xs ys a b : List α} (ha : c ∉ a) (hb : c ∉ b) (same : xs ++ c :: a = ys ++ c :: b) :
    xs = ys ∧ a = b := by
  rcases List.append_eq_append_iff.mp same with ⟨more, rfl, rest⟩ | ⟨more, rfl, rest⟩
  all_goals
    cases more with
    | nil => simp_all
    | cons d more =>
      rw [List.cons_append] at rest
      obtain ⟨-, rest⟩ := List.cons.inj rest
      subst rest
      simp_all

theorem tempPathFor_injective {a b : WriteCall} (same : tempPathFor a = tempPathFor b) :
    a.pid = b.pid ∧ a.sequence = b.sequence := by
  obtain ⟨front, last⟩ := split_last (dash_not_digit _) (dash_not_digit _) same
  obtain ⟨-, front⟩ := List.cons.inj front
  have marker : ∀ c : WriteCall, c.fileName ++ ".tmp-".toList ++ Nat.toDigits 10 c.pid =
      (c.fileName ++ ".tmp".toList) ++ '-' :: Nat.toDigits 10 c.pid := by
    intro c
    simp
  rw [marker a, marker b] at front
  exact ⟨toDigits_injective (split_last (dash_not_digit _) (dash_not_digit _) front).2, toDigits_injective last⟩

theorem tempPathFor_ne {name : List Char} (plain : name.head? ≠ some '.') (call : WriteCall) : name ≠ tempPathFor call := by
  rintro rfl
  exact plain rfl

end Names

section Steps

def Own (temp : List Char) : Change (List Char) UInt8 → Prop
  | .replaced source _ _ => source = temp
  | .flushed => False

/-- What a call does, it does to its temporary file and to the file it is to replace. -/
def Good (call : WriteCall) (asked : Asked Directory FileOp FileOp.Answer) : Prop :=
  asked.after.locks = asked.before.locks ∧ ∃ changes, asked.after.log = asked.before.log ++ changes ∧
    Lib.Disk.OwnStep (tempPathFor call) call.fileName call.contents asked.before.disk asked.after.disk changes

/-- What a call with a temporary file lets the others do. -/
structure Rely (temp : List Char) (u v : Directory) : Prop where
  valid : u.disk.Valid → v.disk.Valid
  own : u.disk.Valid → ∀ inode, u.disk.Private temp inode →
    v.disk.Private temp inode ∧ v.disk.data inode = u.disk.data inode ∧ v.disk.synced inode = u.disk.synced inode
  log : ∃ more, v.log = u.log ++ more ∧ ∀ change ∈ more, ¬ Own temp change

theorem Rely.refl (temp : List Char) (u : Directory) : Rely temp u u where
  valid := fun valid => valid
  own := fun _ _ own => ⟨own, rfl, rfl⟩
  log := ⟨[], (List.append_nil _).symm, by simp⟩

theorem Rely.trans {temp : List Char} {u v w : Directory} (first : Rely temp u v) (second : Rely temp v w) : Rely temp u w where
  valid := fun valid => second.valid (first.valid valid)
  own := by
    intro valid inode own
    obtain ⟨own, data, synced⟩ := first.own valid inode own
    obtain ⟨own, data', synced'⟩ := second.own (first.valid valid) inode own
    exact ⟨own, data'.trans data, synced'.trans synced⟩
  log := by
    obtain ⟨more, log, foreign⟩ := first.log
    obtain ⟨more', log', foreign'⟩ := second.log
    refine ⟨more ++ more', by rw [log', log, List.append_assoc], fun change mem => ?_⟩
    exact (List.mem_append.mp mem).elim (foreign change) (foreign' change)

theorem foreign_of_apart {temp other target : List Char} {contents : List UInt8} {d e : Lib.Disk (List Char) UInt8}
    {changes : List (Change (List Char) UInt8)} (step : Lib.Disk.OwnStep other target contents d e changes) (apart : temp ≠ other) :
    ∀ change ∈ changes, ¬ Own temp change := by
  intro change mem own
  cases change with
  | flushed => exact own
  | replaced source target bytes => exact apart (own.symm.trans (step.replaces mem).1)

theorem rely_of_step {temp other target : List Char} {contents : List UInt8} {u v : Directory}
    {changes : List (Change (List Char) UInt8)} (log : v.log = u.log ++ changes)
    (step : Lib.Disk.OwnStep other target contents u.disk v.disk changes) (apart : temp ≠ other) (aside : temp ≠ target) :
    Rely temp u v :=
  ⟨step.valid, fun valid _ own => step.spares valid own apart aside, changes, log, foreign_of_apart step apart⟩

theorem Good.rely {call other : WriteCall} {asked : Asked Directory FileOp FileOp.Answer} (good : Good other asked)
    (apart : tempPathFor call ≠ tempPathFor other) : Rely (tempPathFor call) asked.before asked.after := by
  obtain ⟨-, changes, log, step⟩ := good
  exact rely_of_step log step apart (tempPathFor_ne other.visible call).symm

def Outcome (call : WriteCall) (more : List (Change (List Char) UInt8)) : Except AtomicWriteError Unit → Prop
  | .ok () => ∃ before between after,
      more = before ++ (.replaced (tempPathFor call) call.fileName call.contents :: between) ++ .flushed :: after
  | .error (.notCommitted _) => ∀ change ∈ more, ¬ Own (tempPathFor call) change
  | .error (.replacedButNotDurable _) => ∃ before after,
      more = before ++ .replaced (tempPathFor call) call.fileName call.contents :: after

theorem Outcome.append {call : WriteCall} {more later : List (Change (List Char) UInt8)} {result : Except AtomicWriteError Unit}
    (h : Outcome call more result) (foreign : ∀ change ∈ later, ¬ Own (tempPathFor call) change) :
    Outcome call (more ++ later) result := by
  cases result with
  | ok =>
    obtain ⟨before, between, after, rfl⟩ := h
    exact ⟨before, between, after ++ later, by simp⟩
  | error failure =>
    cases failure with
    | notCommitted error => exact fun change mem => (List.mem_append.mp mem).elim (h change) (foreign change)
    | replacedButNotDurable error =>
      obtain ⟨before, after, rfl⟩ := h
      exact ⟨before, after ++ later, by simp⟩

def Ended (call : WriteCall) (start : Directory) (result : Except AtomicWriteError Unit) (after : Directory) : Prop :=
  ∃ more, after.log = start.log ++ more ∧ Outcome call more result

theorem Ended.stable {call : WriteCall} {start u v : Directory} {result : Except AtomicWriteError Unit}
    (rely : Rely (tempPathFor call) u v)
    (h : Ended call start result u) : Ended call start result v := by
  obtain ⟨more, log, outcome⟩ := h
  obtain ⟨later, log', foreign⟩ := rely.log
  exact ⟨more ++ later, by rw [log', log, List.append_assoc], outcome.append foreign⟩

end Steps

section Calls

variable {t : Nat} {call : WriteCall} {start u v w : Directory}

structure Staging (call : WriteCall) (start w : Directory) : Prop where
  valid : w.disk.Valid
  log : ∃ more, w.log = start.log ++ more ∧ ∀ change ∈ more, ¬ Own (tempPathFor call) change

theorem Staging.rely (h : Staging call start u) (rely : Rely (tempPathFor call) u v) : Staging call start v := by
  obtain ⟨more, log, foreign⟩ := h.log
  obtain ⟨later, log', foreign'⟩ := rely.log
  refine ⟨rely.valid h.valid, more ++ later, by rw [log', log, List.append_assoc], fun change mem => ?_⟩
  exact (List.mem_append.mp mem).elim (foreign change) (foreign' change)

theorem Staging.step (h : Staging call start u) {disk : Lib.Disk (List Char) UInt8}
    (step : Lib.Disk.OwnStep (tempPathFor call) call.fileName call.contents u.disk disk []) :
    Staging call start { u with disk := disk } :=
  ⟨step.valid h.valid, h.log⟩

theorem Staging.ended (h : Staging call start w) (failure : IoError) : Ended call start (.error (.notCommitted failure)) w := by
  obtain ⟨more, log, foreign⟩ := h.log
  exact ⟨more, log, foreign⟩

abbrev SafeCall (t : Nat) (call : WriteCall) {α : Type} (post : Except AtomicWriteError α → Directory → Prop) (p : DiskM α)
    (w : Directory) : Prop :=
  p.Safe (Rely (tempPathFor call)) (FileOp.Does t) (Good call) post w

theorem good_idle {before : Directory} {op : FileOp} {answer : op.Answer} : Good call ⟨before, op, answer, before⟩ :=
  ⟨rfl, [], (List.append_nil _).symm, .idle _⟩

theorem good_quiet {before : Directory} {disk : Lib.Disk (List Char) UInt8} {op : FileOp} {answer : op.Answer}
    (step : Lib.Disk.OwnStep (tempPathFor call) call.fileName call.contents before.disk disk []) :
    Good call ⟨before, op, answer, { before with disk := disk }⟩ :=
  ⟨rfl, [], (List.append_nil _).symm, step⟩

theorem discardTempFile_safe (h : Staging call start w) (failure : IoError) :
    SafeCall t call (fun result after => ∃ kept, result = .ok (.notCommitted kept) ∧ Staging call start after)
      (discardTempFile (tempPathFor call) failure) w := by
  refine Program.safe_ask fun before answer after others does => ?_
  have staging := h.rely others
  cases answer with
  | ok =>
    obtain ⟨-, rfl⟩ := does
    exact ⟨good_quiet (.remove _), _, rfl, staging.step (.remove _)⟩
  | error error =>
    subst does
    refine ⟨good_idle, ?_⟩
    dsimp only
    split
    · exact ⟨_, rfl, staging⟩
    · exact ⟨_, rfl, staging⟩

theorem discarded_safe (h : Staging call start w) (failure : IoError) :
    SafeCall t call (Ended call start) (discardTempFile (tempPathFor call) failure >>= Program.throw) w := by
  refine Program.safe_bind (discardTempFile_safe h failure) ?_ ?_
  · rintro kept after ⟨error, is, staging⟩
    cases is
    exact staging.ended error
  · rintro e after ⟨error, is, -⟩
    cases is

structure Staged (call : WriteCall) (start w : Directory) (inode : Nat) : Prop extends Staging call start w where
  own : w.disk.Private (tempPathFor call) inode
  synced : w.disk.synced inode = true
  full : w.disk.data inode = call.contents

theorem Staged.rely {inode : Nat} (h : Staged call start u inode) (rely : Rely (tempPathFor call) u v) :
    Staged call start v inode := by
  obtain ⟨own, data, synced⟩ := rely.own h.valid inode h.own
  exact ⟨h.toStaging.rely rely, own, synced.trans h.synced, data.trans h.full⟩

structure Filling (call : WriteCall) (start w : Directory) (inode : Nat) (contents : List UInt8) :
    Prop extends Staging call start w where
  own : w.disk.Private (tempPathFor call) inode
  filled : w.disk.data inode = contents

theorem Filling.rely {inode : Nat} {contents : List UInt8} (h : Filling call start u inode contents)
    (rely : Rely (tempPathFor call) u v) :
    Filling call start v inode contents := by
  obtain ⟨own, data, -⟩ := rely.own h.valid inode h.own
  exact ⟨h.toStaging.rely rely, own, data.trans h.filled⟩

def StageEnd (call : WriteCall) (start : Directory) : Except AtomicWriteError (Except IoError Unit) → Directory → Prop
  | .ok (.ok ()), w => ∃ inode, Staged call start w inode
  | .ok (.error _), w => Staging call start w
  | .error _, _ => False

theorem fill_safe {inode : Nat} (h : Filling call start w inode []) :
    SafeCall t call (StageEnd call start) (fill inode call.contents) w := by
  refine Program.safe_ask fun before answer after others does => ?_
  have filling := h.rely others
  have appends (bytes : List UInt8) :
      Lib.Disk.OwnStep (tempPathFor call) call.fileName call.contents before.disk (before.disk.append inode bytes) [] :=
    .append filling.own bytes
  cases answer with
  | error error =>
    obtain ⟨n, rfl⟩ := does
    exact ⟨good_quiet (appends _), filling.toStaging.step (appends _)⟩
  | ok =>
    subst does
    refine ⟨good_quiet (appends _), Program.safe_perform fun before answer after others does => ?_⟩
    have full : Filling call start before inode call.contents := by
      refine Filling.rely ⟨filling.toStaging.step (appends call.contents), ⟨filling.own.here, filling.own.alone⟩, ?_⟩ others
      rw [Lib.Disk.append_data, filling.filled, List.nil_append]
    cases answer with
    | error error =>
      subst does
      exact ⟨good_idle, full.toStaging⟩
    | ok =>
      subst does
      have step : Lib.Disk.OwnStep (tempPathFor call) call.fileName call.contents before.disk (before.disk.syncFile inode) [] :=
        .syncFile full.own
      exact ⟨good_quiet step, inode, full.toStaging.step step, ⟨full.own.here, full.own.alone⟩,
        Lib.Disk.syncFile_synced, full.filled⟩

theorem stage_safe (h : Staging call start w) :
    SafeCall t call (StageEnd call start) (stage (tempPathFor call) call.contents) w := by
  refine Program.safe_ask fun before answer after others does => ?_
  have staging := h.rely others
  cases answer with
  | error error =>
    subst does
    exact ⟨good_idle, staging⟩
  | ok handle =>
    obtain ⟨-, rfl, rfl⟩ := does
    refine ⟨good_quiet (.create _), fill_safe ⟨staging.step (.create _), ?_, ?_⟩⟩
    · exact Lib.Disk.create_private staging.valid _
    · exact Lib.Disk.create_data

theorem rename_good {before : Directory} {inode : Nat} (staged : Staged call start before inode) :
    Good call ⟨before, .rename (tempPathFor call) call.fileName, .ok (), { before with
      disk := before.disk.rename (tempPathFor call) call.fileName
      log := before.log ++ [.replaced (tempPathFor call) call.fileName call.contents] }⟩ :=
  ⟨rfl, _, rfl, .rename staged.own staged.synced staged.full⟩

theorem replaced_safe {inode : Nat} (staged : Staged call start u inode) :
    SafeCall t call (Ended call start) syncReplaced
      { u with
        disk := u.disk.rename (tempPathFor call) call.fileName
        log := u.log ++ [.replaced (tempPathFor call) call.fileName call.contents] } := by
  obtain ⟨earlier, log, -⟩ := staged.log
  refine Program.safe_ask fun before answer after others does => ?_
  obtain ⟨between, log', -⟩ := others.log
  have since : before.log = start.log ++ (earlier ++ .replaced (tempPathFor call) call.fileName call.contents :: between) := by
    rw [log', log]
    simp
  cases answer with
  | ok =>
    subst does
    refine ⟨⟨rfl, _, rfl, .flush _⟩, _, ?_, earlier, between, [], rfl⟩
    rw [since]
    simp
  | error error =>
    subst does
    exact ⟨good_idle, _, since, earlier, between, rfl⟩

theorem writePhased_safe (t : Nat) (begun : Staging call start w) : SafeCall t call (Ended call start) (writePhased call) w := by
  refine Program.safe_ask fun before answer after others does => ?_
  have staging := begun.rely others
  cases answer with
  | error error =>
    subst does
    exact ⟨good_idle, staging.ended error⟩
  | ok =>
    subst does
    refine ⟨good_idle, Program.safe_bind (stage_safe staging) ?_ fun e w never => never.elim⟩
    intro staged after ends
    cases staged with
    | error failure => exact discarded_safe ends failure
    | ok =>
      obtain ⟨inode, ready⟩ := ends
      refine Program.safe_ask fun before answer after others does => ?_
      have staged := ready.rely others
      cases answer with
      | error failure =>
        subst does
        exact ⟨good_idle, discarded_safe staged.toStaging failure⟩
      | ok =>
        obtain ⟨other, here, rfl⟩ := does
        have same : other = inode := Option.some.inj (here.symm.trans staged.own.here)
        rw [same, staged.full]
        exact ⟨rename_good staged, replaced_safe staged⟩

end Calls

section Writers

/-- The contract that every call keeps, whoever else writes. -/
def contract : Pool.Contract Directory Nat WriteCall FileOp FileOp.Answer AtomicWriteError Unit where
  Pre _ _ w := w.disk.Valid
  rely _ call := Rely (tempPathFor call)
  Good _ call := Good call
  Post _ := Ended

def Apart (_ : Nat) (call : WriteCall) (_ : Nat) (other : WriteCall) : Prop := tempPathFor call ≠ tempPathFor other

theorem contract_kept : contract.Kept FileOp.Does writePhased Apart where
  refl _ call := Rely.refl (tempPathFor call)
  trans _ _ _ _ _ := Rely.trans
  stable _ _ _ _ _ _ rely ended := ended.stable rely
  safe t _ _ valid := writePhased_safe t ⟨valid, [], (List.append_nil _).symm, by simp⟩
  guarantee _ _ _ _ _ _ apart good := good.rely apart

abbrev Writers := Pool Directory Nat WriteCall FileOp FileOp.Answer AtomicWriteError Unit

abbrev WriterEvent := PoolEvent Directory Nat WriteCall FileOp FileOp.Answer AtomicWriteError Unit

def isCallOf (pid : Nat) : WriterEvent → Bool
  | .started _ call => call.pid = pid
  | _ => false

/-- `TEMP_SEQUENCE` of a process: each of its calls has added one. -/
def tempSequence (pid : Nat) (past : List WriterEvent) : Nat := past.countP (isCallOf pid)

/-- Every call fetches the counter of its process when it adds to it. -/
def FetchesAdd (events : List WriterEvent) : Prop :=
  ∀ past t call later, events = past ++ .started t call :: later → call.sequence = tempSequence call.pid past

/-- No call in progress has the number of a call that is made. -/
def Numbered (s : Writers) : WriterEvent → Prop
  | .started t call => ∀ t' task, t' ≠ t → s.running t' = some task →
      ¬ (task.call.pid = call.pid ∧ task.call.sequence = call.sequence)
  | _ => True

/-- The numbers of the calls in progress have been fetched. -/
def Fetched (past : List WriterEvent) (s : Writers) : Prop :=
  ∀ t task, s.running t = some task → task.call.sequence < tempSequence task.call.pid past

theorem tempSequence_mono (pid : Nat) (past : List WriterEvent) (event : WriterEvent) :
    tempSequence pid past ≤ tempSequence pid (past ++ [event]) := by
  rw [tempSequence, tempSequence, List.countP_append]
  exact Nat.le_add_right ..

theorem fetched_step {past : List WriterEvent} {s s' : Writers} {event : WriterEvent} (fetched : Fetched past s)
    (fetches : ∀ t call, event = .started t call → call.sequence = tempSequence call.pid past)
    (step : Pool.Step FileOp.Does writePhased s event s') : Fetched (past ++ [event]) s' := by
  have old : ∀ t task, s.running t = some task → task.call.sequence < tempSequence task.call.pid (past ++ [event]) :=
    fun t task running => Nat.lt_of_lt_of_le (fetched t task running) (tempSequence_mono _ past event)
  intro t task running
  cases step with
  | @start t' call idle =>
    by_cases mine : t = t'
    · subst mine
      cases (Function.update_self t _ s.running).symm.trans running
      rw [fetches t call rfl, tempSequence, tempSequence, List.countP_append]
      simp [isCallOf]
    · exact old t task ((Function.update_of_ne mine _ _).symm.trans running)
  | @ask t' call start after op next answer asking does =>
    by_cases mine : t = t'
    · subst mine
      cases (Function.update_self t _ s.running).symm.trans running
      exact old t ⟨call, start, .ask op next⟩ asking
    · exact old t task ((Function.update_of_ne mine _ _).symm.trans running)
  | @finish t' call start result done =>
    by_cases mine : t = t'
    · subst mine
      cases (Function.update_self t _ s.running).symm.trans running
    · exact old t task ((Function.update_of_ne mine _ _).symm.trans running)

theorem numbered_of_fetched {past : List WriterEvent} {s : Writers} (fetched : Fetched past s) {event : WriterEvent}
    (fetches : ∀ t call, event = .started t call → call.sequence = tempSequence call.pid past) : Numbered s event := by
  cases event with
  | started t call =>
    rintro t' task - running ⟨pid, sequence⟩
    have less := fetched t' task running
    rw [pid, sequence, fetches t call rfl] at less
    exact Nat.lt_irrefl _ less
  | asked | ended => trivial

/-- The counters are enough to keep the calls in progress apart. -/
theorem fetched_run {s s' : Writers} {events : List WriterEvent} (idle : ∀ t, s.running t = none)
    (runs : Pool.Runs FileOp.Does writePhased (fun _ _ => True) s events s') (fetches : FetchesAdd events) :
    Pool.Runs FileOp.Does writePhased Numbered s events s' ∧ Fetched events s' := by
  induction runs with
  | nil => exact ⟨.nil _, fun t task running => by rw [idle t] at running; cases running⟩
  | @snoc s' s'' past event runs legal step ih =>
    have earlier : FetchesAdd past := fun before t call later same =>
      fetches before t call (later ++ [event]) (by rw [same, List.append_assoc, List.cons_append])
    have last : ∀ t call, event = .started t call → call.sequence = tempSequence call.pid past :=
      fun t call same => fetches past t call [] (by rw [same])
    obtain ⟨numbered, fetched⟩ := ih earlier
    exact ⟨.snoc numbered (numbered_of_fetched fetched last) step, fetched_step fetched last step⟩

structure Tracked (start : Lib.Disk (List Char) UInt8) (w : Directory) : Prop where
  valid : w.disk.Valid
  tracked : ∀ name, name.head? ≠ some '.' → w.disk.Solid name ∧ w.disk.image name = candidates name [start.read name] w.log

theorem Tracked.step {start : Lib.Disk (List Char) UInt8} {u v : Directory} (h : Tracked start u) {call : WriteCall}
    {changes : List (Change (List Char) UInt8)} (log : v.log = u.log ++ changes)
    (step : Lib.Disk.OwnStep (tempPathFor call) call.fileName call.contents u.disk v.disk changes) : Tracked start v := by
  refine ⟨step.valid h.valid, fun name plain => ?_⟩
  obtain ⟨solid, image⟩ := h.tracked name plain
  obtain ⟨solid, next⟩ := step.tracks h.valid (tempPathFor_ne plain call) solid
  rw [next, image, log, candidates_append]
  exact ⟨solid, rfl⟩

theorem Tracked.read {start : Lib.Disk (List Char) UInt8} {w : Directory} (h : Tracked start w) {name : List Char}
    (plain : name.head? ≠ some '.') : w.disk.read name = latest name (start.read name) w.log := by
  have last := Lib.Disk.image_read h.valid name
  rw [(h.tracked name plain).2, candidates_getLast List.getLast?_singleton] at last
  exact (Option.some.inj last).symm

theorem Tracked.survives {start : Lib.Disk (List Char) UInt8} {w : Directory} (h : Tracked start w) {name : List Char}
    (plain : name.head? ≠ some '.') {contents : Option (List UInt8)} (survives : w.disk.Survives name contents) :
    contents ∈ candidates name [start.read name] w.log := by
  obtain ⟨solid, image⟩ := h.tracked name plain
  exact image ▸ Lib.Disk.survives_image solid survives

theorem tracked_start (mounted : Lib.Disk.Mounted (List Char) UInt8) : Tracked mounted.disk { disk := mounted.disk } :=
  ⟨mounted.valid, fun name _ => ⟨mounted.solid name, rfl⟩⟩

structure Logged (start : Lib.Disk (List Char) UInt8) (past : List WriterEvent) (w : Directory) : Prop extends Tracked start w where
  made : ∀ source target bytes, .replaced source target bytes ∈ w.log → ∃ t call asked,
    .asked t call asked ∈ past ∧ source = tempPathFor call ∧ target = call.fileName ∧ bytes = call.contents
  grown : ∀ t call before result after, .ended t call before result after ∈ past → ∃ later, w.log = after.log ++ later

theorem Logged.asked {start : Lib.Disk (List Char) UInt8} {past : List WriterEvent} {t : Nat} {call : WriteCall}
    {a : Asked Directory FileOp FileOp.Answer} (h : Logged start past a.before) (good : Good call a) :
    Logged start (past ++ [.asked t call a]) a.after := by
  obtain ⟨-, changes, log, step⟩ := good
  refine ⟨h.toTracked.step log step, ?_, ?_⟩
  · intro source target bytes mem
    rw [log] at mem
    rcases List.mem_append.mp mem with old | new
    · obtain ⟨t', other, asked, before, its⟩ := h.made source target bytes old
      exact ⟨t', other, asked, List.mem_append_left _ before, its⟩
    · exact ⟨t, call, a, List.mem_append_right _ List.mem_cons_self, step.replaces new⟩
  · intro t' other before result after mem
    rcases List.mem_append.mp mem with old | new
    · obtain ⟨later, its⟩ := h.grown t' other before result after old
      exact ⟨later ++ changes, by rw [log, its, List.append_assoc]⟩
    · cases List.mem_singleton.mp new

theorem Logged.told {start : Lib.Disk (List Char) UInt8} {past : List WriterEvent} {w : Directory} (h : Logged start past w)
    {event : WriterEvent} (last : ∀ t call before result after, event = .ended t call before result after → after = w) :
    Logged start (past ++ [event]) w := by
  refine ⟨h.toTracked, ?_, ?_⟩
  · intro source target bytes mem
    obtain ⟨t, call, asked, before, its⟩ := h.made source target bytes mem
    exact ⟨t, call, asked, List.mem_append_left _ before, its⟩
  · intro t call before result after mem
    rcases List.mem_append.mp mem with old | new
    · exact h.grown t call before result after old
    · have same := last t call before result after (List.mem_singleton.mp new).symm
      exact ⟨[], by rw [same, List.append_nil]⟩

theorem logged_start (mounted : Lib.Disk.Mounted (List Char) UInt8) : Logged mounted.disk [] { disk := mounted.disk } := by
  refine ⟨tracked_start mounted, ?_, ?_⟩
  · intro source target bytes never
    cases never
  · intro t call before result after never
    cases never

theorem numbered_apart {s : Writers} {t : Nat} {call : WriteCall} (numbered : Numbered s (.started t call)) {t' : Nat}
    {task : Task Directory WriteCall FileOp FileOp.Answer AtomicWriteError Unit} (other : t' ≠ t)
    (running : s.running t' = some task) :
    tempPathFor call ≠ tempPathFor task.call := by
  intro same
  obtain ⟨pid, sequence⟩ := tempPathFor_injective same
  exact numbered t' task other running ⟨pid.symm, sequence.symm⟩

theorem writers_run (mounted : Lib.Disk.Mounted (List Char) UInt8) {events : List WriterEvent} {s : Writers}
    (runs : Pool.Runs FileOp.Does writePhased Numbered ⟨{ disk := mounted.disk }, fun _ => none⟩ events s) :
    (∀ event ∈ events, contract.Fulfils event) ∧ Logged mounted.disk events s.world := by
  have made : ∀ past (s : Writers) t call, Numbered s (.started t call) → Logged mounted.disk past s.world →
      contract.Pre t call s.world ∧ ∀ t' task, t' ≠ t → s.running t' = some task →
        Apart t call t' task.call ∧ Apart t' task.call t call := by
    intro past s t call numbered logged
    refine ⟨logged.valid, fun t' task other running => ?_⟩
    have apart := numbered_apart numbered other running
    exact ⟨apart, apart.symm⟩
  obtain ⟨fulfilled, logged, -⟩ := Pool.Contract.parallel (I := Logged mounted.disk) contract_kept
    (fun _ _ _ _ _ does => does) (fun past w t c h => h.told (by simp)) (fun past t c a h good => h.asked good)
    (fun past w t c start result h _ => h.told (by simp_all)) made runs (logged_start mounted)
    (Pool.Contract.settled_idle fun _ => rfl)
  exact ⟨fulfilled, logged⟩

def Told (call : WriteCall) (before after now : Directory) : Except AtomicWriteError Unit → Prop
  | .ok () => ∃ earlier since, now.log = earlier ++ .replaced (tempPathFor call) call.fileName call.contents :: since ∧
      ∀ contents, now.disk.Survives call.fileName contents → contents = some call.contents ∨ Lib.Puts call.fileName since contents
  | .error (.replacedButNotDurable _) => ∃ earlier since,
      now.log = earlier ++ .replaced (tempPathFor call) call.fileName call.contents :: since
  | .error (.notCommitted _) => ∃ more, after.log = before.log ++ more ∧
      ∀ target contents, .replaced (tempPathFor call) target contents ∉ more

theorem Ended.told {start : Lib.Disk (List Char) UInt8} {call : WriteCall} {before after now : Directory}
    {result : Except AtomicWriteError Unit} (ended : Ended call before result after) (tracked : Tracked start now)
    (grown : ∃ later, now.log = after.log ++ later) : Told call before after now result := by
  obtain ⟨more, log, outcome⟩ := ended
  obtain ⟨later, whole⟩ := grown
  cases result with
  | ok =>
    obtain ⟨earlier, between, flushed, rfl⟩ := outcome
    have split : now.log = (before.log ++ earlier) ++ (.replaced (tempPathFor call) call.fileName call.contents :: between) ++
        .flushed :: (flushed ++ later) := by
      rw [whole, log]
      simp
    refine ⟨before.log ++ earlier, between ++ .flushed :: (flushed ++ later), by rw [split]; simp, fun contents survives => ?_⟩
    have mem := tracked.survives call.visible survives
    rw [split] at mem
    refine (candidates_flushed mem).imp_right fun puts => puts.mono fun change its => ?_
    exact (List.mem_append.mp its).elim (List.mem_append_left _) fun after => List.mem_append_right _ (List.mem_cons_of_mem _ after)
  | error failure =>
    cases failure with
    | notCommitted error => exact ⟨more, log, fun target contents mem => outcome _ mem rfl⟩
    | replacedButNotDurable error =>
      obtain ⟨earlier, since, rfl⟩ := outcome
      refine ⟨before.log ++ earlier, since ++ later, ?_⟩
      rw [whole, log]
      simp

section Alone

def outcome : Except AtomicWriteError Unit → FileWrite
  | .ok () => .written
  | .error (.notCommitted error) => .notCommitted error.text
  | .error (.replacedButNotDurable error) => .replacedButNotDurable error.text

theorem write_as_outcome (mounted : Lib.Disk.Mounted (List Char) UInt8) {call : WriteCall}
    {asked : List (Asked Directory FileOp FileOp.Answer)}
    {after : Directory} {result : Except AtomicWriteError Unit}
    (run : (writePhased call).Run Eq (FileOp.Does 0) { disk := mounted.disk } asked after result) (path : String) :
    after.disk.read call.fileName =
      (FileWrite.writePrivateFileAtomically path (outcome result) (mounted.disk.read call.fileName) call.contents).2 := by
  have runs : Pool.Runs FileOp.Does writePhased Numbered ⟨{ disk := mounted.disk }, fun _ => none⟩
      (.started 0 call :: (asked.map (.asked 0 call) ++ [.ended 0 call { disk := mounted.disk } result after]))
      ⟨after, fun _ : Nat => none⟩ :=
    Pool.Runs.call rfl run (fun _ _ _ none => by cases none) (fun _ _ _ => trivial) fun _ => trivial
  obtain ⟨fulfilled, logged⟩ := writers_run mounted runs
  have mine : ∀ source target bytes, .replaced source target bytes ∈ after.log → source = tempPathFor call ∧
    bytes = call.contents := by
    intro source target bytes mem
    obtain ⟨t, other, a, event, rfl, -, rfl⟩ := logged.made source target bytes mem
    simp only [List.mem_cons, reduceCtorEq, List.mem_append, List.mem_map, PoolEvent.asked.injEq, List.not_mem_nil, or_false,
      false_or] at event
    obtain ⟨-, -, -, same, -⟩ := event
    rw [same]
    exact ⟨rfl, rfl⟩
  have last : (candidates call.fileName [mounted.disk.read call.fileName] after.log).getLast? =
      some (after.disk.read call.fileName) := by
    rw [logged.read call.visible]
    exact candidates_getLast List.getLast?_singleton
  have ended : Ended call { disk := mounted.disk } result after :=
    fulfilled (.ended 0 call { disk := mounted.disk } result after) (by simp)
  have told := ended.told logged.toTracked ⟨[], (List.append_nil _).symm⟩
  have landed : ∀ earlier since, after.log = earlier ++ .replaced (tempPathFor call) call.fileName call.contents :: since →
      after.disk.read call.fileName = some call.contents := by
    intro earlier since split
    rw [split, candidates_append] at last
    change (candidates call.fileName (Change.apply _ _ _) since).getLast? = _ at last
    rcases candidates_last last with placed | ⟨source, bytes, later, is⟩
    · rw [Change.apply, if_pos rfl, List.getLast?_concat] at placed
      exact (Option.some.inj placed).symm
    · have whole : .replaced source call.fileName bytes ∈ after.log :=
        split ▸ List.mem_append_right earlier (List.mem_cons_of_mem _ later)
      rw [is, (mine source call.fileName bytes whole).2]
  cases result with
  | ok =>
    obtain ⟨earlier, since, split, -⟩ := told
    exact landed earlier since split
  | error failure =>
    cases failure with
    | replacedButNotDurable error =>
      obtain ⟨earlier, since, split⟩ := told
      exact landed earlier since split
    | notCommitted error =>
      obtain ⟨more, log, never⟩ := told
      rcases candidates_last last with same | ⟨source, bytes, mem, -⟩
      · exact (Option.some.inj same).symm
      · rw [(mine source call.fileName bytes mem).1] at mem
        rw [log] at mem
        exact absurd mem (never call.fileName bytes)

end Alone

/-- Any number of calls replace files of a directory at once, and the machine may stop at any time. -/
theorem replacements_are_atomic (mounted : Lib.Disk.Mounted (List Char) UInt8) {events : List WriterEvent} {s : Writers}
    (runs : Pool.Runs FileOp.Does writePhased (fun _ _ => True) ⟨{ disk := mounted.disk }, fun _ => none⟩ events s)
    (fetches : FetchesAdd events) :
    (∀ name, name.head? ≠ some '.' →
      s.world.disk.read name = latest name (mounted.disk.read name) s.world.log ∧
      ∀ contents, s.world.disk.Survives name contents → contents ∈ candidates name [mounted.disk.read name] s.world.log) ∧
    (∀ source target bytes, .replaced source target bytes ∈ s.world.log → ∃ t call asked,
      .asked t call asked ∈ events ∧ source = tempPathFor call ∧ target = call.fileName ∧ bytes = call.contents) ∧
    ∀ t call before result after, .ended t call before result after ∈ events → Told call before after s.world result := by
  obtain ⟨fulfilled, logged⟩ := writers_run mounted (fetched_run (fun _ => rfl) runs fetches).1
  refine ⟨fun name plain => ?_, logged.made, fun t call before result after mem => ?_⟩
  · exact ⟨logged.read plain, fun contents => logged.survives plain⟩
  · have ended : Ended call before result after := fulfilled _ mem
    exact ended.told logged.toTracked (logged.grown t call before result after mem)

end Writers

section Samples

def serveOp (t : Nat) : (op : FileOp) → Directory → op.Answer × Directory
  | .acquireLock path, w =>
    match w.locks path with
    | none => (.ok (), { w with locks := Function.update w.locks path (some t) })
    | some _ => (.error ⟨.other, "Resource temporarily unavailable"⟩, w)
  | .releaseLock path, w => ((), { w with locks := Function.update w.locks path none })
  | .read path, w =>
    match w.disk.read path with
    | some contents => (.ok contents, w)
    | none => (.error ⟨.notFound, "No such file or directory"⟩, w)
  | .openParent, w => (.ok (), w)
  | .createNew path, w =>
    match w.disk.entries path with
    | none => (.ok w.disk.inodes, { w with disk := w.disk.create path })
    | some _ => (.error ⟨.alreadyExists, "File exists"⟩, w)
  | .writeAll handle contents, w => (.ok (), { w with disk := w.disk.append handle contents })
  | .syncAll handle, w => (.ok (), { w with disk := w.disk.syncFile handle })
  | .rename source target, w =>
    match w.disk.entries source with
    | some inode =>
      (.ok (), { w with
        disk := w.disk.rename source target
        log := w.log ++ [.replaced source target (w.disk.data inode)] })
    | none => (.error ⟨.notFound, "No such file or directory"⟩, w)
  | .syncParent, w => (.ok (), { w with disk := w.disk.syncEntries, log := w.log ++ [.flushed] })
  | .removeFile path, w =>
    match w.disk.entries path with
    | some _ => (.ok (), { w with disk := w.disk.enter path none })
    | none => (.error ⟨.notFound, "No such file or directory"⟩, w)

theorem serveOp_does (t : Nat) (op : FileOp) (w : Directory) : op.Does t (serveOp t op w).1 w (serveOp t op w).2 := by
  cases op with
  | releaseLock | openParent | writeAll | syncAll | syncParent => exact rfl
  | acquireLock path =>
    rw [serveOp]
    split
    · rename_i free
      exact ⟨free, rfl⟩
    · exact rfl
  | read path =>
    rw [serveOp]
    split
    · rename_i contents here
      exact ⟨here, rfl⟩
    · rename_i gone
      exact ⟨fun _ => gone, rfl⟩
  | createNew path =>
    rw [serveOp]
    split
    · rename_i free
      exact ⟨free, rfl, rfl⟩
    · exact rfl
  | rename source target =>
    rw [serveOp]
    split
    · rename_i inode here
      exact ⟨inode, here, rfl⟩
    · exact rfl
  | removeFile path =>
    rw [serveOp]
    split
    · rename_i inode here
      exact ⟨by simp [here], rfl⟩
    · exact rfl

def oldDisk : Lib.Disk.Mounted (List Char) UInt8 where
  entries := Function.update (fun _ => none) ['c'] (some 0)
  data := fun _ => [1]
  inodes := 1
  known := by
    intro name inode entry
    by_cases here : name = ['c']
    · subst here
      cases entry
      exact Nat.zero_lt_one
    · rw [Function.update_of_ne here] at entry
      cases entry

def firstCall : WriteCall := ⟨7, 0, ['c'], [2], by decide⟩

def secondCall : WriteCall := ⟨7, 1, ['c'], [3], by decide⟩

def played (t : Nat) (call : WriteCall) (w : Directory) :
    List (Asked Directory FileOp FileOp.Answer) × Directory × Except AtomicWriteError Unit :=
  Program.play (serveOp t) (writePhased call) w

def afterSecond : Directory := (played 1 secondCall { disk := oldDisk.disk }).2.1

def afterFirst : Directory := (played 0 firstCall afterSecond).2.1

/-- The second call is made and ends while the first one is in progress. -/
def overlapping : List WriterEvent :=
  .started 0 firstCall ::
    (.started 1 secondCall :: ((played 1 secondCall { disk := oldDisk.disk }).1.map (.asked 1 secondCall) ++
      [.ended 1 secondCall { disk := oldDisk.disk } (.ok ()) afterSecond])) ++
    ((played 0 firstCall afterSecond).1.map (.asked 0 firstCall) ++
      [.ended 0 firstCall { disk := oldDisk.disk } (.ok ()) afterFirst])

/-- While only the first call is in progress. -/
def firstBegun : Writers :=
  ⟨{ disk := oldDisk.disk },
    Function.update (fun _ => none) 0 (some ⟨firstCall, { disk := oldDisk.disk }, writePhased firstCall⟩)⟩

theorem overlapping_runs : Pool.Runs FileOp.Does writePhased (fun _ _ => True)
    ⟨{ disk := oldDisk.disk }, fun _ => none⟩ overlapping ⟨afterFirst, fun _ => none⟩ := by
  have first : (writePhased firstCall).Run Eq (FileOp.Does 0) afterSecond _ afterFirst (.ok ()) :=
    Program.play_run (fun _ => rfl) (serveOp_does 0) _ _
  have second : (writePhased secondCall).Run Eq (FileOp.Does 1) firstBegun.world _ afterSecond (.ok ()) :=
    Program.play_run (fun _ => rfl) (serveOp_does 1) _ _
  have begun : Pool.Runs FileOp.Does writePhased (fun _ _ => True) ⟨{ disk := oldDisk.disk }, fun _ => none⟩
      [.started 0 firstCall] firstBegun := Pool.Runs.single trivial (.start firstCall rfl)
  have called : Pool.Runs FileOp.Does writePhased (fun _ _ => True) firstBegun _ ⟨afterSecond, firstBegun.running⟩ :=
    Pool.Runs.call rfl second trivial (fun _ _ _ => trivial) fun _ => trivial
  have mine : firstBegun.running 0 = some ⟨firstCall, { disk := oldDisk.disk }, writePhased firstCall⟩ := by
    simp [firstBegun]
  have ended : Pool.Runs FileOp.Does writePhased (fun _ _ => True) ⟨afterSecond, firstBegun.running⟩ _
      ⟨afterFirst, Function.update firstBegun.running 0 none⟩ :=
    Pool.Runs.rest first mine (fun _ _ _ => trivial) fun _ => trivial
  have idle : Function.update firstBegun.running 0 none = fun _ => none := by
    rw [firstBegun, Function.update_idem, Function.update_eq_self]
  rw [idle] at ended
  exact (begun.append called).append ended

theorem overlapping_fetches : FetchesAdd overlapping := by
  intro past t call later same
  match past with
  | [] =>
    cases same
    rfl
  | [_] =>
    cases same
    rfl
  | _ :: _ :: past =>
    -- Behind the first two events no call is made.
    have mem : PoolEvent.started t call ∈ overlapping.drop 2 := by
      rw [same]
      exact List.mem_append_right past List.mem_cons_self
    simp [overlapping] at mem

theorem replacement_survives :
    afterFirst.disk.read ['c'] = some [2] ∧ ∀ contents, afterFirst.disk.Survives ['c'] contents → contents = some [2] := by
  refine ⟨by decide, fun contents survives => ?_⟩
  obtain ⟨crash, -, -⟩ := replacements_are_atomic oldDisk overlapping_runs overlapping_fetches
  have mem := (crash ['c'] (by decide)).2 contents survives
  have only : candidates ['c'] [oldDisk.disk.read ['c']] afterFirst.log = [some [2]] := by decide
  rw [only] at mem
  exact List.mem_singleton.mp mem

end Samples

end MacSftp.AtomicFile
