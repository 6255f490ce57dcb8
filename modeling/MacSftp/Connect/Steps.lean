import MacSftp.Connect.System

namespace MacSftp

open Lib

namespace ConnectSystem

/-- What one step of an attempt that only moves its own stage may say and where it may lead. -/
inductive Restages (number : Nat) (attempt : Attempt) : ConnectOp → AttemptStage → List ConnectOutput → Prop
  | heeded (requestId : Nat) (decision : TrustDecision) (stage : attempt.stage = .prompting requestId (some decision)) :
      Restages number attempt (.heed number) (if decision = .trustAndSave then .running else .refused .userRejected) []
  | mismatched (details : HostKeyMismatchDetails) (stage : attempt.stage = .running) :
      Restages number attempt (.mismatch number details) (.refused (.mismatch details)) []
  | authFailed (reason : UserFacingError) (stage : attempt.stage = .running) :
      Restages number attempt (.authFailed number reason) (.settled (.error (.authFailed reason)) false)
        [.emitted (.authFailed attempt.scope reason)]
  | failed (error : Option UserFacingError) (failure : ConnectFailure) (stage : attempt.stage.failure error = some failure) :
      Restages number attempt (.fail number error) (.settled (.error failure) false) []

/-- What one step of a connect's task may say and where it may lead. -/
inductive Proceeds (s : ConnectSystem) (number : Nat) (connect : Connect) :
    ConnectOp → Connect → List ConnectOutput → Prop
  | cancelled (retiring : connect.retiring = true) :
      Proceeds s number connect (.cancelTask number) { connect with cancelled := true } []
  | answered (shared : Nat) (stage : connect.stage = .delivered (.ok shared)) :
      Proceeds s number connect (.wake number) { connect with stage := .opening shared } []
  | failed (failure : ConnectFailure) (stage : connect.stage = .delivered (.error failure)) :
      Proceeds s number connect (.wake number) { connect with stage := .ended connect.cancelled }
        ((connectionFailureEvent connect.scope failure).map .emitted).toList
  | closed (attempt : Attempt) (stage : connect.stage = .waiting) (known : s.attempts connect.attempt = some attempt)
      (gone : attempt.stage = .ended) :
      Proceeds s number connect (.wake number) { connect with stage := .ended connect.cancelled } []
  | opened (shared : Nat) (stage : connect.stage = .opening shared) :
      Proceeds s number connect (.openChannel number none) { connect with stage := .session shared } []
  | notOpened (shared : Nat) (error : UserFacingError) (stage : connect.stage = .opening shared) :
      Proceeds s number connect (.openChannel number (some error)) { connect with stage := .ended connect.cancelled }
        [.emitted (.tabDisconnected connect.scope (.error error))]
  | sessionEnded (shared : Nat) (stage : connect.stage = .session shared) :
      Proceeds s number connect (.quit number) { connect with stage := .sessionOver } []
  | quit (cancelled : connect.cancelled = true)
      (stage : connect.stage = .waiting ∨ (∃ result, connect.stage = .delivered result) ∨ ∃ shared,
        connect.stage = .opening shared) :
      Proceeds s number connect (.quit number) { connect with stage := .ended true } []

/-- Every step of the system: nothing happens, or one of these. -/
inductive Takes (s : ConnectSystem) : ConnectOp → ConnectSystem → List ConnectOutput → Prop
  | idle (op : ConnectOp) : Takes s op s []
  | connectTab (command : ConnectTab) : Takes s (.connectTab command) (s.connectTab command) []
  | closeTab (tabId : TabId) : Takes s (.closeTab tabId) (s.closeTab tabId) []
  | accepted (requestId : Nat) : Takes s (.acceptHostKey requestId) (s.resolve requestId .trustAndSave) []
  | rejected (requestId : Nat) : Takes s (.rejectHostKey requestId) (s.resolve requestId .reject) []
  | join (expired : Bool) (command : ConnectTab) (dispatching : s.dispatching = some command) :
      Takes s (.join expired) (s.join command expired).1 (s.join command expired).2
  | prompted (number : Nat) (attempt : Attempt) (known : s.attempts number = some attempt) (stage : attempt.stage = .running)
      (jump : Bool) (host : String) (port : Nat) (algorithm fingerprint : String) :
      Takes s (.prompt number jump host port algorithm fingerprint)
        (s.prompt number attempt jump host port algorithm fingerprint).1
        (s.prompt number attempt jump host port algorithm fingerprint).2
  | timedOut (number : Nat) (attempt : Attempt) (known : s.attempts number = some attempt) (requestId : Nat)
      (stage : attempt.stage = .prompting requestId none) :
      Takes s (.promptTimeout number)
        { s.withStage number attempt (.refused .promptTimeout) with registry := Function.update s.registry requestId none } []
  | restaged (number : Nat) (attempt : Attempt) (known : s.attempts number = some attempt) (op : ConnectOp)
      (stage : AttemptStage) (outputs : List ConnectOutput) (restages : Restages number attempt op stage outputs) :
      Takes s op (s.withStage number attempt stage) outputs
  | succeeded (number : Nat) (attempt : Attempt) (known : s.attempts number = some attempt) (stage : attempt.stage = .running) :
      Takes s (.succeed number)
        { s.withStage number attempt (.settled (.ok ()) (s.pool.markConnected attempt.key number).1) with
          pool := (s.pool.markConnected attempt.key number).2 } []
  | sent (number : Nat) (attempt : Attempt) (known : s.attempts number = some attempt) (result : Except ConnectFailure Unit)
      (completed : Bool) (stage : attempt.stage = .settled result completed) :
      Takes s (.send number) (s.send number attempt result completed).1 (s.send number attempt result completed).2
  | finished (number : Nat) (attempt : Attempt) (known : s.attempts number = some attempt) (completed : Bool)
      (stage : attempt.stage = .sent completed) :
      Takes s (.finish number)
        { s.withStage number attempt .ended with
          pool := if completed then s.pool else s.pool.abandonAttempt attempt.key number } []
  | aborted (number : Nat) (attempt : Attempt) (known : s.attempts number = some attempt) (stage : attempt.stage.unsettled = true) :
      Takes s (.abort number)
        { s.withStage number attempt .ended with pool := s.pool.abandonAttempt attempt.key number } []
  | proceeded (number : Nat) (connect : Connect) (known : s.connects number = some connect) (op : ConnectOp) (next : Connect)
      (outputs : List ConnectOutput) (proceeds : Proceeds s number connect op next outputs) :
      Takes s op (s.withConnect number next) outputs
  | reaped (number : Nat) (attempt : Attempt) (known : s.attempts number = some attempt) :
      Takes s (.deadline number) { s with pool := s.pool.reapStaleAttempt attempt.key number } []
  | swept (expired : List Nat) : Takes s (.reapStale expired) { s with pool := s.pool.reapStale (· ∈ expired) s.lost } []
  | removed (key : ConnectionKey) : Takes s (.remove key) { s with pool := s.pool.remove key } []
  | losing (shared : Nat) : Takes s (.lose shared) { s with lost := Function.update s.lost shared true } []
  | watchedLost (shared : Nat) (attempt : Attempt) (known : s.attempts shared = some attempt) (lost : s.lost shared = true) :
      Takes s (.watchLost shared) { s with pool := s.pool.removeIfSame attempt.key shared } []
  | foundIdle (shared : Nat) (unheld : s.unheld shared = true) :
      Takes s (.findIdle shared) { s with idle := Function.update s.idle shared true } []
  | watchedIdle (shared : Nat) (attempt : Attempt) (known : s.attempts shared = some attempt) (idle : s.idle shared = true) :
      Takes s (.watchIdle shared)
        { s with pool := s.pool.removeIfSame attempt.key shared, idle := Function.update s.idle shared false } []
  | borrowed (shared : Nat) (attempt : Attempt) (known : s.attempts shared = some attempt)
      (alive : s.unheld shared = false ∨ s.pool attempt.key = some (.connected shared)) :
      Takes s (.borrow shared) { s with borrowed := Function.update s.borrowed shared true } []
  | gaveBack (shared : Nat) : Takes s (.giveBack shared) { s with borrowed := Function.update s.borrowed shared false } []

section Advance

variable {s : ConnectSystem} {number : Nat} {attempt : Attempt} (known : s.attempts number = some attempt)

include known

attribute [local simp] advance

/-- The steps of an attempt's task that `advance` makes are among those of `Takes`. -/
theorem advance_prompt (jump : Bool) (host : String) (port : Nat) (algorithm fingerprint : String) :
    let op := ConnectOp.prompt number jump host port algorithm fingerprint
    Takes s op (s.advance number attempt op).1 (s.advance number attempt op).2 := by
  intro op
  cases stage : attempt.stage <;> simp only [op, advance, stage]
  case running => exact .prompted number attempt known stage jump host port algorithm fingerprint
  all_goals exact .idle _

theorem advance_promptTimeout :
    Takes s (.promptTimeout number) (s.advance number attempt (.promptTimeout number)).1
      (s.advance number attempt (.promptTimeout number)).2 := by
  cases stage : attempt.stage <;> simp only [advance, stage]
  case prompting requestId decision =>
    cases decision with
    | none => exact .timedOut number attempt known requestId stage
    | some decision => exact .idle _
  all_goals exact .idle _

theorem advance_heed :
    Takes s (.heed number) (s.advance number attempt (.heed number)).1 (s.advance number attempt (.heed number)).2 := by
  cases stage : attempt.stage <;> simp only [advance, stage]
  case prompting requestId decision =>
    cases decision with
    | none => exact .idle _
    | some decision => exact .restaged number attempt known _ _ _ (.heeded requestId decision stage)
  all_goals exact .idle _

theorem advance_mismatch (details : HostKeyMismatchDetails) :
    Takes s (.mismatch number details) (s.advance number attempt (.mismatch number details)).1
      (s.advance number attempt (.mismatch number details)).2 := by
  cases stage : attempt.stage <;> simp only [advance, stage]
  case running => exact .restaged number attempt known _ _ _ (.mismatched details stage)
  all_goals exact .idle _

theorem advance_authFailed (reason : UserFacingError) :
    Takes s (.authFailed number reason) (s.advance number attempt (.authFailed number reason)).1
      (s.advance number attempt (.authFailed number reason)).2 := by
  cases stage : attempt.stage <;> simp only [advance, stage]
  case running => exact .restaged number attempt known _ _ _ (.authFailed reason stage)
  all_goals exact .idle _

theorem advance_fail (error : Option UserFacingError) :
    Takes s (.fail number error) (s.advance number attempt (.fail number error)).1
      (s.advance number attempt (.fail number error)).2 := by
  simp only [advance]
  cases failed : attempt.stage.failure error with
  | none => exact .idle _
  | some failure => exact .restaged number attempt known _ _ _ (.failed error failure failed)

theorem advance_succeed :
    Takes s (.succeed number) (s.advance number attempt (.succeed number)).1 (s.advance number attempt (.succeed number)).2 := by
  cases stage : attempt.stage <;> simp only [advance, stage]
  case running => exact .succeeded number attempt known stage
  all_goals exact .idle _

theorem advance_send :
    Takes s (.send number) (s.advance number attempt (.send number)).1 (s.advance number attempt (.send number)).2 := by
  cases stage : attempt.stage <;> simp only [advance, stage]
  case settled result completed => exact .sent number attempt known result completed stage
  all_goals exact .idle _

theorem advance_finish :
    Takes s (.finish number) (s.advance number attempt (.finish number)).1 (s.advance number attempt (.finish number)).2 := by
  cases stage : attempt.stage <;> simp only [advance, stage]
  case sent completed => exact .finished number attempt known completed stage
  all_goals exact .idle _

theorem advance_abort :
    Takes s (.abort number) (s.advance number attempt (.abort number)).1 (s.advance number attempt (.abort number)).2 := by
  simp only [advance]
  split_ifs with stage
  · exact .aborted number attempt known stage
  · exact .idle _

end Advance

section Proceed

variable {s : ConnectSystem} {number : Nat} {connect : Connect} (known : s.connects number = some connect)

include known

attribute [local simp] proceed

theorem proceed_cancelTask :
    Takes s (.cancelTask number) (s.proceed number connect (.cancelTask number)).1
      (s.proceed number connect (.cancelTask number)).2 := by
  simp only [proceed]
  split_ifs with retiring
  · exact .proceeded number connect known _ _ _ (.cancelled retiring)
  · exact .idle _

theorem proceed_wake :
    Takes s (.wake number) (s.proceed number connect (.wake number)).1 (s.proceed number connect (.wake number)).2 := by
  cases stage : connect.stage <;> simp only [proceed, stage]
  case waiting =>
    split_ifs with gone
    · obtain ⟨attempt, found, ended⟩ : ∃ attempt, s.attempts connect.attempt = some attempt ∧ attempt.stage = .ended := by
        cases found : s.attempts connect.attempt <;> simp_all
      exact .proceeded number connect known _ _ _ (.closed attempt stage found ended)
    · exact .idle _
  case delivered result =>
    cases result with
    | ok shared => exact .proceeded number connect known _ _ _ (.answered shared stage)
    | error failure => exact .proceeded number connect known _ _ _ (.failed failure stage)
  all_goals exact .idle _

theorem proceed_openChannel (error : Option UserFacingError) :
    Takes s (.openChannel number error) (s.proceed number connect (.openChannel number error)).1
      (s.proceed number connect (.openChannel number error)).2 := by
  cases error with
  | none =>
    cases stage : connect.stage <;> simp only [proceed, stage]
    case opening shared => exact .proceeded number connect known _ _ _ (.opened shared stage)
    all_goals exact .idle _
  | some error =>
    cases stage : connect.stage <;> simp only [proceed, stage]
    case opening shared => exact .proceeded number connect known _ _ _ (.notOpened shared error stage)
    all_goals exact .idle _

theorem proceed_quit :
    Takes s (.quit number) (s.proceed number connect (.quit number)).1 (s.proceed number connect (.quit number)).2 := by
  cases stage : connect.stage <;> simp only [proceed, stage]
  case session shared => exact .proceeded number connect known _ _ _ (.sessionEnded shared stage)
  case waiting =>
    split_ifs with cancelled
    · exact .proceeded number connect known _ _ _ (.quit cancelled (.inl stage))
    · exact .idle _
  case delivered result =>
    split_ifs with cancelled
    · exact .proceeded number connect known _ _ _ (.quit cancelled (.inr (.inl ⟨result, stage⟩)))
    · exact .idle _
  case opening shared =>
    split_ifs with cancelled
    · exact .proceeded number connect known _ _ _ (.quit cancelled (.inr (.inr ⟨shared, stage⟩)))
    · exact .idle _
  all_goals exact .idle _

end Proceed

theorem command_takes (s : ConnectSystem) (op : ConnectOp) : Takes s op (s.command op).1 (s.command op).2 := by
  cases op with
  | connectTab command => exact .connectTab command
  | closeTab tabId => exact .closeTab tabId
  | acceptHostKey requestId => exact .accepted requestId
  | rejectHostKey requestId => exact .rejected requestId
  | _ => exact .idle _

theorem housekeep_takes (s : ConnectSystem) (op : ConnectOp) : Takes s op (s.housekeep op) [] := by
  cases op with
  | deadline number =>
    cases known : s.attempts number with
    | none => simpa only [housekeep, known] using Takes.idle _
    | some attempt => simpa only [housekeep, known] using Takes.reaped number attempt known
  | reapStale expired => exact .swept expired
  | remove key => exact .removed key
  | lose shared => exact .losing shared
  | watchLost shared =>
    cases known : s.attempts shared with
    | none => simpa only [housekeep, known] using Takes.idle _
    | some attempt =>
      simp only [housekeep, known]
      split_ifs with lost
      · exact .watchedLost shared attempt known lost
      · exact .idle _
  | findIdle shared =>
    simp only [housekeep]
    split_ifs with unheld
    · exact .foundIdle shared unheld
    · exact .idle _
  | watchIdle shared =>
    cases known : s.attempts shared with
    | none => simpa only [housekeep, known] using Takes.idle _
    | some attempt =>
      simp only [housekeep, known]
      split_ifs with idle
      · exact .watchedIdle shared attempt known idle
      · exact .idle _
  | borrow shared =>
    cases known : s.attempts shared with
    | none => simpa only [housekeep, known] using Takes.idle _
    | some attempt =>
      simp only [housekeep, known]
      split_ifs with alive
      · exact .borrowed shared attempt known (by simpa using alive)
      · exact .idle _
  | giveBack shared => exact .gaveBack shared
  | _ => exact .idle _

theorem step_takes (s : ConnectSystem) (op : ConnectOp) : Takes s op (machine.next s op) (machine.out s op) := by
  show Takes s op (s.step op).1 (s.step op).2
  cases op with
  | connectTab _ | closeTab _ | acceptHostKey _ | rejectHostKey _ =>
    simp only [step]
    split_ifs
    · exact command_takes s _
    · exact .idle _
  | join expired =>
    cases dispatching : s.dispatching with
    | none => simpa only [step, dispatching] using Takes.idle _
    | some command => simpa only [step, dispatching] using Takes.join expired command dispatching
  | prompt number _ _ _ _ _ | promptTimeout number | heed number | mismatch number _ | authFailed number _ | fail number _
  | succeed number | send number | finish number | abort number =>
    cases known : s.attempts number with
    | none => simpa only [step, known] using Takes.idle _
    | some attempt =>
      simp only [step, known]
      first
        | exact advance_prompt known _ _ _ _ _
        | exact advance_promptTimeout known
        | exact advance_heed known
        | exact advance_mismatch known _
        | exact advance_authFailed known _
        | exact advance_fail known _
        | exact advance_succeed known
        | exact advance_send known
        | exact advance_finish known
        | exact advance_abort known
  | cancelTask number | wake number | openChannel number _ | quit number =>
    cases known : s.connects number with
    | none => simpa only [step, known] using Takes.idle _
    | some connect =>
      simp only [step, known]
      first
        | exact proceed_cancelTask known
        | exact proceed_wake known
        | exact proceed_openChannel known _
        | exact proceed_quit known
  | deadline _ | reapStale _ | remove _ | lose _ | watchLost _ | findIdle _ | watchIdle _ | borrow _ | giveBack _ =>
    exact housekeep_takes s _

end ConnectSystem

end MacSftp
