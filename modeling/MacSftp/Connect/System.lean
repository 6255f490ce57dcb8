import MacSftp.Connect.Pool
import MacSftp.Lib.Runs

namespace MacSftp

open Lib

inductive TrustDecision
  | trustAndSave
  | reject
  | requestExpired
  deriving DecidableEq, Repr

/-- The responder of a request is the attempt that waits on it. -/
structure TrustRegistryEntry where
  tabId : TabId
  sessionEpoch : Nat
  responder : Nat
  deriving DecidableEq, Repr

abbrev TrustRegistry := Nat → Option TrustRegistryEntry

inductive HostKeyRejection
  | mismatch (details : HostKeyMismatchDetails)
  | userRejected
  | promptTimeout
  deriving DecidableEq, Repr

/-- Where the task of an attempt stands. Its guard is `completed` once the connection is in the pool. -/
inductive AttemptStage
  | running
  | prompting (requestId : Nat) (decision : Option TrustDecision)
  -- `check_server_key` has answered false
  | refused (rejection : HostKeyRejection)
  | settled (result : Except ConnectFailure Unit) (completed : Bool)
  | sent (completed : Bool)
  | ended
  deriving DecidableEq, Repr

structure Attempt where
  key : ConnectionKey
  scope : RemoteEventScope
  trustRequestId : Nat
  jumpTrustRequestId : Nat
  stage : AttemptStage := .running
  deriving DecidableEq, Repr

/-- Where the task of a `ConnectTab` stands: its receiver is empty, holds a result, or has been read. -/
inductive ConnectStage
  | waiting
  | delivered (result : Except ConnectFailure Nat)
  | opening (shared : Nat)
  | session (shared : Nat)
  | sessionOver
  | ended (cancelled : Bool)
  deriving DecidableEq, Repr

structure Connect where
  scope : RemoteEventScope
  key : ConnectionKey
  -- the attempt whose channel it received, or that made the connection it was given
  attempt : Nat
  stage : ConnectStage
  -- its handle has been handed to a shutdown task, which will cancel it
  retiring : Bool := false
  cancelled : Bool := false
  deriving DecidableEq, Repr

structure ConnectTab where
  scope : RemoteEventScope
  settings : ConnectionSettings
  poolIdentity : ConnectionPoolIdentity

structure ConnectSystem where
  pool : ConnectionPool := fun _ => none
  nextAttempt : Nat := 1
  nextTrustId : Nat := 1
  attempts : Nat → Option Attempt := fun _ => none
  lost : Nat → Bool := fun _ => false
  -- the connections whose watchers have found them idle, and those that transfers have taken
  idle : Nat → Bool := fun _ => false
  borrowed : Nat → Bool := fun _ => false
  registry : TrustRegistry := fun _ => none
  nextConnect : Nat := 0
  connects : Nat → Option Connect := fun _ => none
  sessions : TabId → Option Nat := fun _ => none
  -- the `ConnectTab` whose old session and prompts have been dealt with
  dispatching : Option ConnectTab := none

inductive ConnectOp
  | connectTab (command : ConnectTab)
  | join (expired : Bool)
  | closeTab (tabId : TabId)
  | acceptHostKey (requestId : Nat)
  | rejectHostKey (requestId : Nat)
  -- the task of an attempt
  | prompt (attempt : Nat) (jump : Bool) (host : String) (port : Nat) (algorithm fingerprint : String)
  | promptTimeout (attempt : Nat)
  | heed (attempt : Nat)
  | mismatch (attempt : Nat) (details : HostKeyMismatchDetails)
  | authFailed (attempt : Nat) (reason : UserFacingError)
  | fail (attempt : Nat) (error : Option UserFacingError)
  | succeed (attempt : Nat)
  | send (attempt : Nat)
  | finish (attempt : Nat)
  | abort (attempt : Nat)
  -- the watchers of deadlines and connections, and the pool's other callers
  | deadline (attempt : Nat)
  | reapStale (expired : List Nat)
  | remove (key : ConnectionKey)
  | lose (shared : Nat)
  | watchLost (shared : Nat)
  | findIdle (shared : Nat)
  | watchIdle (shared : Nat)
  | borrow (shared : Nat)
  | giveBack (shared : Nat)
  -- the task of a connect
  | cancelTask (connect : Nat)
  | wake (connect : Nat)
  | openChannel (connect : Nat) (error : Option UserFacingError)
  | quit (connect : Nat)

inductive ConnectOutput
  | emitted (event : ConnectionEvent)
  | spawned (connect : Nat) (scope : RemoteEventScope)
  | started (attempt : Nat)
  | handedOut (key : ConnectionKey) (shared : Nat)
  deriving DecidableEq, Repr

namespace AttemptStage

def decide (requests : Nat → Bool) (decision : TrustDecision) : AttemptStage → AttemptStage
  | .prompting requestId none => .prompting requestId (if requests requestId then some decision else none)
  | stage => stage

/-- The failure the handshake returns: of a key that was refused its cause, and otherwise, or when the
phase times out first, an error of the connection. -/
def failure : AttemptStage → Option UserFacingError → Option ConnectFailure
  | .running, some error | .prompting _ _, some error | .refused _, some error => some (.connection error)
  | .refused (.mismatch details), none => some (.hostKeyMismatch details)
  | .refused .userRejected, none => some .trustRejected
  | .refused .promptTimeout, none => some .trustTimeout
  | _, _ => none

def hasConnection : AttemptStage → Bool
  | .settled (.ok ()) _ => true
  | _ => false

def unsettled : AttemptStage → Bool
  | .running | .prompting _ _ | .refused _ => true
  | .settled _ _ | .sent _ | .ended => false

end AttemptStage

def ConnectTab.key (command : ConnectTab) : ConnectionKey := .new command.settings command.poolIdentity

namespace Attempt

def decide (requests : Nat → Bool) (decision : TrustDecision) (attempt : Attempt) : Attempt :=
  { attempt with stage := attempt.stage.decide requests decision }

end Attempt

namespace Connect

def waitsOn (attempt : Nat) (connect : Connect) : Bool := connect.attempt = attempt && connect.stage = .waiting

def holds (shared : Nat) (connect : Connect) : Bool :=
  connect.stage = .delivered (.ok shared) || connect.stage = .opening shared || connect.stage = .session shared

/-- A message in the attempt's channel reaches the receivers that are waiting. -/
def receive (attempt : Nat) (result : Except ConnectFailure Unit) (connect : Connect) : Connect :=
  if connect.waitsOn attempt then { connect with stage := .delivered (result.map fun _ => attempt) } else connect

end Connect

namespace ConnectSystem

def withStage (s : ConnectSystem) (number : Nat) (attempt : Attempt) (stage : AttemptStage) : ConnectSystem :=
  { s with attempts := Function.update s.attempts number (some { attempt with stage := stage }) }

def withConnect (s : ConnectSystem) (number : Nat) (connect : Connect) : ConnectSystem :=
  { s with connects := Function.update s.connects number (some connect) }

/-- The tab's handle leaves the table and goes to a shutdown task. -/
def retire (s : ConnectSystem) (tabId : TabId) : ConnectSystem :=
  match s.sessions tabId with
  | none => s
  | some number =>
    { s with
      sessions := Function.update s.sessions tabId none
      connects := Function.update s.connects number ((s.connects number).map fun connect => { connect with retiring := true }) }

/-- `TrustRegistry::resolve`: the decision goes to the attempt that waits on the request. -/
def resolve (s : ConnectSystem) (requestId : Nat) (decision : TrustDecision) : ConnectSystem :=
  match s.registry requestId with
  | none => s
  | some _ =>
    { s with
      registry := Function.update s.registry requestId none
      attempts := fun number => (s.attempts number).map (Attempt.decide (· = requestId) decision) }

/-- `reject_stale` and `reject_all_for_tab`: every request of the kind is answered as expired. -/
def expire (s : ConnectSystem) (stale : TrustRegistryEntry → Bool) : ConnectSystem :=
  let requests : Nat → Bool := fun requestId => (s.registry requestId).any stale
  { s with
    registry := fun requestId => if requests requestId then none else s.registry requestId
    attempts := fun number => (s.attempts number).map (Attempt.decide requests .requestExpired) }

def staleEntry (scope : RemoteEventScope) (entry : TrustRegistryEntry) : Bool :=
  entry.tabId = scope.tabId && entry.sessionEpoch ≠ scope.sessionEpoch

/-- The first half of `ConnectTab`: the tab's old session and its stale prompts. -/
def connectTab (s : ConnectSystem) (command : ConnectTab) : ConnectSystem :=
  { (s.retire command.scope.tabId).expire (staleEntry command.scope) with dispatching := some command }

def closeTab (s : ConnectSystem) (tabId : TabId) : ConnectSystem :=
  (s.retire tabId).expire (fun entry => entry.tabId = tabId)

def spawn (s : ConnectSystem) (command : ConnectTab) (attempt : Nat) (stage : ConnectStage) : ConnectSystem :=
  { s with
    dispatching := none
    nextConnect := s.nextConnect + 1
    connects := Function.update s.connects s.nextConnect (some ⟨command.scope, command.key, attempt, stage, false, false⟩)
    sessions := Function.update s.sessions command.scope.tabId (some s.nextConnect) }

def started (s : ConnectSystem) (command : ConnectTab) : ConnectSystem :=
  { s with
    attempts := Function.update s.attempts s.nextAttempt (some ⟨command.key, command.scope, s.nextTrustId,
      s.nextTrustId + 1, .running⟩)
    nextAttempt := s.nextAttempt + 1
    nextTrustId := s.nextTrustId + 2 }

/-- The second half of `ConnectTab`: `get_or_connect`, the task that waits for its result, the tab's handle. -/
def join (s : ConnectSystem) (command : ConnectTab) (expired : Bool) : ConnectSystem × List ConnectOutput :=
  let announce := [.spawned s.nextConnect command.scope, .emitted (.tabConnecting command.scope.tabId)]
  match s.pool.getOrConnect command.key s.lost expired s.nextAttempt with
  | (pool, .joined attempt) => (({ s with pool := pool }).spawn command attempt .waiting, announce)
  | (pool, .reused shared) =>
    (({ s with pool := pool }).spawn command shared (.delivered (.ok shared)), .handedOut command.key shared :: announce)
  | (pool, .started attempt) =>
    ((({ s with pool := pool }).started command).spawn command attempt .waiting, .started attempt :: announce)

def prompt (s : ConnectSystem) (number : Nat) (attempt : Attempt) (jump : Bool) (host : String) (port : Nat)
    (algorithm fingerprint : String) : ConnectSystem × List ConnectOutput :=
  let requestId := if jump then attempt.jumpTrustRequestId else attempt.trustRequestId
  ({ s.withStage number attempt (.prompting requestId none) with
      registry := Function.update s.registry requestId (some ⟨attempt.scope.tabId, attempt.scope.sessionEpoch, number⟩) },
    [.emitted (.hostKeyUnknown ⟨requestId, attempt.scope, host, port, algorithm, fingerprint⟩)])

/-- The message of a finished attempt, to every receiver that is there. -/
def send (s : ConnectSystem) (number : Nat) (attempt : Attempt) (result : Except ConnectFailure Unit) (completed : Bool) :
    ConnectSystem × List ConnectOutput :=
  ({ s.withStage number attempt (.sent completed) with
      connects := fun waiter => (s.connects waiter).map (Connect.receive number result) },
    if result.isOk then
      ((List.range s.nextConnect).filter fun waiter => (s.connects waiter).any (Connect.waitsOn number)).map fun _ =>
        .handedOut attempt.key number
    else [])

/-- Nothing but the pool and its watcher has the connection. -/
def unheld (s : ConnectSystem) (shared : Nat) : Bool :=
  (List.range s.nextConnect).all (fun waiter => !(s.connects waiter).any (Connect.holds shared)) &&
    !(s.attempts shared).any (fun attempt => attempt.stage.hasConnection) && !s.borrowed shared

/-- The commands of the dispatch loop, which deals with one at a time. -/
def command (s : ConnectSystem) : ConnectOp → ConnectSystem × List ConnectOutput
  | .connectTab command => (s.connectTab command, [])
  | .closeTab tabId => (s.closeTab tabId, [])
  | .acceptHostKey requestId => (s.resolve requestId .trustAndSave, [])
  | .rejectHostKey requestId => (s.resolve requestId .reject, [])
  | _ => (s, [])

/-- A step of the task of an attempt. -/
def advance (s : ConnectSystem) (number : Nat) (attempt : Attempt) (op : ConnectOp) : ConnectSystem × List ConnectOutput :=
  match op, attempt.stage with
  | .prompt _ jump host port algorithm fingerprint, .running => s.prompt number attempt jump host port algorithm fingerprint
  | .promptTimeout _, .prompting requestId none =>
    ({ s.withStage number attempt (.refused .promptTimeout) with registry := Function.update s.registry requestId none }, [])
  | .heed _, .prompting _ (some decision) =>
    (s.withStage number attempt (if decision = .trustAndSave then .running else .refused .userRejected), [])
  | .mismatch _ details, .running => (s.withStage number attempt (.refused (.mismatch details)), [])
  | .authFailed _ reason, .running =>
    (s.withStage number attempt (.settled (.error (.authFailed reason)) false), [.emitted (.authFailed attempt.scope reason)])
  | .fail _ error, stage =>
    match stage.failure error with
    | some failure => (s.withStage number attempt (.settled (.error failure) false), [])
    | none => (s, [])
  | .succeed _, .running =>
    let marked := s.pool.markConnected attempt.key number
    ({ s.withStage number attempt (.settled (.ok ()) marked.1) with pool := marked.2 }, [])
  | .send _, .settled result completed => s.send number attempt result completed
  | .finish _, .sent completed =>
    ({ s.withStage number attempt .ended with
        pool := if completed then s.pool else s.pool.abandonAttempt attempt.key number }, [])
  | .abort _, stage =>
    if stage.unsettled then
      ({ s.withStage number attempt .ended with pool := s.pool.abandonAttempt attempt.key number }, [])
    else (s, [])
  | _, _ => (s, [])

/-- A step of the task of a connect. -/
def proceed (s : ConnectSystem) (number : Nat) (connect : Connect) (op : ConnectOp) : ConnectSystem × List ConnectOutput :=
  match op, connect.stage with
  | .cancelTask _, _ => (if connect.retiring then s.withConnect number { connect with cancelled := true } else s, [])
  | .wake _, .delivered (.ok shared) => (s.withConnect number { connect with stage := .opening shared }, [])
  | .wake _, .delivered (.error failure) =>
    (s.withConnect number { connect with stage := .ended connect.cancelled },
      ((connectionFailureEvent connect.scope failure).map .emitted).toList)
  | .wake _, .waiting =>
    -- the sender is gone and has left no message
    if (s.attempts connect.attempt).any (fun attempt => attempt.stage = .ended) then
      (s.withConnect number { connect with stage := .ended connect.cancelled }, [])
    else (s, [])
  | .openChannel _ none, .opening shared => (s.withConnect number { connect with stage := .session shared }, [])
  | .openChannel _ (some error), .opening _ =>
    (s.withConnect number { connect with stage := .ended connect.cancelled },
      [.emitted (.tabDisconnected connect.scope (.error error))])
  | .quit _, .session _ => (s.withConnect number { connect with stage := .sessionOver }, [])
  | .quit _, .waiting | .quit _, .delivered _ | .quit _, .opening _ =>
    (if connect.cancelled then s.withConnect number { connect with stage := .ended true } else s, [])
  | _, _ => (s, [])

/-- What the pool's other callers do, and what happens to a connection. -/
def housekeep (s : ConnectSystem) : ConnectOp → ConnectSystem
  | .deadline number =>
    match s.attempts number with
    | some attempt => { s with pool := s.pool.reapStaleAttempt attempt.key number }
    | none => s
  | .reapStale expired => { s with pool := s.pool.reapStale (· ∈ expired) s.lost }
  | .remove key => { s with pool := s.pool.remove key }
  | .lose shared => { s with lost := Function.update s.lost shared true }
  | .watchLost shared =>
    match s.attempts shared with
    | some attempt => if s.lost shared then { s with pool := s.pool.removeIfSame attempt.key shared } else s
    | none => s
  | .findIdle shared => if s.unheld shared then { s with idle := Function.update s.idle shared true } else s
  | .watchIdle shared =>
    match s.attempts shared with
    | some attempt =>
      if s.idle shared then
        { s with pool := s.pool.removeIfSame attempt.key shared, idle := Function.update s.idle shared false }
      else s
    | none => s
  | .borrow shared =>
    match s.attempts shared with
    | some attempt =>
      -- while nothing else has it, the pool's own reference is the only one
      if !s.unheld shared || s.pool attempt.key = some (.connected shared) then
        { s with borrowed := Function.update s.borrowed shared true }
      else s
    | none => s
  | .giveBack shared => { s with borrowed := Function.update s.borrowed shared false }
  | _ => s

def step (s : ConnectSystem) (op : ConnectOp) : ConnectSystem × List ConnectOutput :=
  match op with
  | .connectTab _ | .closeTab _ | .acceptHostKey _ | .rejectHostKey _ => if s.dispatching.isNone then s.command op else (s, [])
  | .join expired =>
    match s.dispatching with
    | some command => s.join command expired
    | none => (s, [])
  | .prompt number _ _ _ _ _ | .promptTimeout number | .heed number | .mismatch number _ | .authFailed number _ | .fail number _
  | .succeed number | .send number | .finish number | .abort number =>
    match s.attempts number with
    | some attempt => s.advance number attempt op
    | none => (s, [])
  | .cancelTask number | .wake number | .openChannel number _ | .quit number =>
    match s.connects number with
    | some connect => s.proceed number connect op
    | none => (s, [])
  | .deadline _ | .reapStale _ | .remove _ | .lose _ | .watchLost _ | .findIdle _ | .watchIdle _ | .borrow _ | .giveBack _ =>
    (s.housekeep op, [])

def machine : Machine ConnectSystem ConnectOp (List ConnectOutput) := ⟨step⟩

end ConnectSystem

end MacSftp
