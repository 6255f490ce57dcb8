import MacSftp.Connect.System
import MacSftp.Hosts.Precedence

namespace MacSftp

open Lib

/-- Where a call of `check_server_key` stands. Each stage ends where it takes a lock, waits, or returns. -/
inductive KeyCheckStage
  | called
  | mismatched
  | unknown
  | registered
  | prompting
  | elapsed
  | trusted
  | returning (answer : Bool)
  | over
  deriving DecidableEq, Repr

/-- A handler with the key that the server has shown it. Its request has an id of its own, and `received` is what its
decision channel holds. -/
structure ClientHandler (κ : Type) where
  host : List Char
  port : UInt16
  scope : RemoteEventScope
  serverKey : PublicKey κ
  stage : KeyCheckStage := .called
  received : Option TrustDecision := none
  rejection : Option HostKeyRejection := none
  deriving DecidableEq, Repr

/-- The receiver is there from the registration until the wait for it is over. -/
def ClientHandler.listens {κ : Type} (handler : ClientHandler κ) : Bool :=
  handler.stage = .registered || handler.stage = .prompting

/-- The handshakes of a process, by the id that each has for its request. The disk is everybody's. -/
structure KeySystem (κ : Type) where
  store : KnownHostsStore κ
  disk : Disk
  registry : TrustRegistry := fun _ => none
  nextTrustId : Nat := 1
  handlers : Nat → Option (ClientHandler κ) := fun _ => none

inductive KeyOp (κ : Type)
  | call (host : List Char) (port : UInt16) (scope : RemoteEventScope) (serverKey : PublicKey κ)
  -- an id for a handshake that is never made
  | reserve
  | check (requestId : Nat)
  | report (requestId : Nat)
  | register (requestId : Nat)
  | prompt (requestId : Nat)
  | heed (requestId : Nat)
  | elapse (requestId : Nat)
  | cleanUp (requestId : Nat)
  | save (requestId : Nat) (faults : WriteFaults)
  | finish (requestId : Nat)
  | abort (requestId : Nat)
  | acceptHostKey (requestId : Nat)
  | rejectHostKey (requestId : Nat)
  | rejectStale (tabId : TabId) (currentEpoch : Nat)
  | rejectAllForTab (tabId : TabId)
  | rejectAll
  -- other programs, or the user, at the files
  | rewrite (disk : Disk)

inductive KeyOutput (κ : Type)
  | checked (requestId : Nat) (result : HostKeyCheckResult)
  | prompted (prompt : HostKeyPrompt)
  | decided (requestId : Nat) (decision : TrustDecision)
  | pinned (requestId : Nat) (entry : Entry κ)
  | returned (requestId : Nat) (answer : Bool)
  deriving DecidableEq, Repr

namespace KeySystem

variable {κ : Type}

def withHandler (s : KeySystem κ) (requestId : Nat) (handler : ClientHandler κ) : KeySystem κ :=
  { s with handlers := Function.update s.handlers requestId (some handler) }

/-- The requests of a kind leave the registry, and a decision is sent to each. -/
def decide (s : KeySystem κ) (chosen : Nat → TrustRegistryEntry → Bool) (decision : TrustDecision) :
    KeySystem κ × List (KeyOutput κ) :=
  let requests : Nat → Bool := fun requestId => (s.registry requestId).any (chosen requestId)
  ({ s with
      registry := fun requestId => if requests requestId then none else s.registry requestId
      handlers := fun requestId => (s.handlers requestId).map fun handler =>
        if requests requestId && handler.listens then { handler with received := some decision } else handler },
    ((List.range s.nextTrustId).filter requests).map fun requestId => .decided requestId decision)

def resolve (s : KeySystem κ) (requestId : Nat) (decision : TrustDecision) : KeySystem κ × List (KeyOutput κ) :=
  s.decide (fun other _ => other = requestId) decision

def rejectStale (s : KeySystem κ) (tabId : TabId) (currentEpoch : Nat) : KeySystem κ × List (KeyOutput κ) :=
  s.decide (fun _ entry => entry.tabId = tabId && entry.sessionEpoch ≠ currentEpoch) .requestExpired

def rejectAllForTab (s : KeySystem κ) (tabId : TabId) : KeySystem κ × List (KeyOutput κ) :=
  s.decide (fun _ entry => entry.tabId = tabId) .requestExpired

def rejectAll (s : KeySystem κ) : KeySystem κ × List (KeyOutput κ) := s.decide (fun _ _ => true) .requestExpired

def call (s : KeySystem κ) (host : List Char) (port : UInt16) (scope : RemoteEventScope) (serverKey : PublicKey κ) : KeySystem κ :=
  { s.withHandler s.nextTrustId { host, port, scope, serverKey } with nextTrustId := s.nextTrustId + 1 }

section Steps

variable [DecidableEq κ] (format : HostFormat κ) (fingerprint algorithm : κ → String) (appPath : LocalPath)
  (s : KeySystem κ) (requestId : Nat) (handler : ClientHandler κ)

def check : KeySystem κ × List (KeyOutput κ) :=
  let result := s.store.check format handler.host handler.port handler.serverKey
  let stage : KeyCheckStage :=
    match result with
    | .matched => .returning true
    | .mismatch => .mismatched
    | .notFound => .unknown
  (s.withHandler requestId { handler with stage := stage }, [.checked requestId result])

def report : KeySystem κ :=
  s.withHandler requestId
    { handler with
      stage := .returning false
      rejection := some (.mismatch ⟨String.ofList handler.host, handler.port.toNat,
        s.store.expectedFingerprint format fingerprint handler.host handler.port, fingerprint handler.serverKey.keyData⟩) }

def register : KeySystem κ :=
  { s.withHandler requestId { handler with stage := .registered } with
    registry := Function.update s.registry requestId (some ⟨handler.scope.tabId, handler.scope.sessionEpoch, requestId⟩) }

def prompt : KeySystem κ × List (KeyOutput κ) :=
  (s.withHandler requestId { handler with stage := .prompting },
    [.prompted ⟨requestId, handler.scope, String.ofList handler.host, handler.port.toNat, algorithm handler.serverKey.keyData,
      fingerprint handler.serverKey.keyData⟩])

def heed (decision : TrustDecision) : KeySystem κ :=
  s.withHandler requestId
    (if decision = .trustAndSave then { handler with stage := .trusted }
    else { handler with stage := .returning false, rejection := some .userRejected })

def cleanUp : KeySystem κ × List (KeyOutput κ) :=
  (s.withHandler requestId { handler with stage := .returning false, rejection := some .promptTimeout }).resolve requestId
    .requestExpired

/-- A failure to save is only written to the log. -/
def save (faults : WriteFaults) : KeySystem κ × List (KeyOutput κ) :=
  let trusting := s.store.addTrusted format faults s.disk handler.host handler.port handler.serverKey appPath
  ({ s.withHandler requestId { handler with stage := .returning true } with store := trusting.store, disk := trusting.disk },
    (trusting.store.appEntries.drop s.store.appEntries.length).map (.pinned requestId))

/-- A step of the handler of a request, where its stage has one. -/
def advance (op : KeyOp κ) : KeySystem κ × List (KeyOutput κ) :=
  match op, handler.stage with
  | .check _, .called => s.check format requestId handler
  | .report _, .mismatched => (s.report format fingerprint requestId handler, [])
  | .register _, .unknown => (s.register requestId handler, [])
  | .prompt _, .registered => s.prompt fingerprint algorithm requestId handler
  | .heed _, .prompting =>
    match handler.received with
    | some decision => (s.heed requestId handler decision, [])
    | none => (s, [])
  | .elapse _, .prompting =>
    if handler.received = none then (s.withHandler requestId { handler with stage := .elapsed }, []) else (s, [])
  | .cleanUp _, .elapsed => s.cleanUp requestId handler
  | .save _ faults, .trusted => s.save format appPath requestId handler faults
  | .finish _, .returning answer => (s.withHandler requestId { handler with stage := .over }, [.returned requestId answer])
  -- the future can be dropped where it waits
  | .abort _, .called | .abort _, .registered | .abort _, .prompting =>
    (s.withHandler requestId { handler with stage := .over }, [])
  | _, _ => (s, [])

end Steps

variable [DecidableEq κ] (format : HostFormat κ) (fingerprint algorithm : κ → String) (appPath : LocalPath)

def step (s : KeySystem κ) (op : KeyOp κ) : KeySystem κ × List (KeyOutput κ) :=
  match op with
  | .call host port scope serverKey => (s.call host port scope serverKey, [])
  | .reserve => ({ s with nextTrustId := s.nextTrustId + 1 }, [])
  | .acceptHostKey requestId => s.resolve requestId .trustAndSave
  | .rejectHostKey requestId => s.resolve requestId .reject
  | .rejectStale tabId currentEpoch => s.rejectStale tabId currentEpoch
  | .rejectAllForTab tabId => s.rejectAllForTab tabId
  | .rejectAll => s.rejectAll
  | .rewrite disk => ({ s with disk := disk }, [])
  | .check requestId | .report requestId | .register requestId | .prompt requestId | .heed requestId | .elapse requestId
  | .cleanUp requestId | .save requestId _ | .finish requestId | .abort requestId =>
    match s.handlers requestId with
    | some handler => s.advance format fingerprint algorithm appPath requestId handler op
    | none => (s, [])

def machine : Machine (KeySystem κ) (KeyOp κ) (List (KeyOutput κ)) := ⟨step format fingerprint algorithm appPath⟩

end KeySystem

end MacSftp
