import MacSftp.Connect.System
import MacSftp.Lib.Programs

namespace MacSftp.Handshake

open Lib

/-- Durations are counted in nanoseconds. -/
def secs (n : Nat) : Nat := n * 1000000000

structure HostTrustConfig where
  trustPromptTimeout : Nat := secs 300
  handshakeTimeout : Nat := secs 30
  deriving DecidableEq, Repr

inductive TransportFailureKind
  | localNetworkPermissionDenied
  | connectionRefused
  | timedOut
  | hostKeyAlgorithmUnsupported
  | protocolNegotiationFailed
  | other
  deriving DecidableEq, Repr

inductive MethodKind
  | none
  | password
  | publicKey
  | hostBased
  | keyboardInteractive
  deriving DecidableEq, Repr

inductive AuthResult
  | success
  | failure (remainingMethods : List MethodKind) (partialSuccess : Bool)
  deriving DecidableEq, Repr

inductive InteractiveResponse
  | success
  | failure (remainingMethods : List MethodKind) (partialSuccess : Bool)
  | infoRequest (name instructions : String) (prompts : List (String × Bool))
  deriving DecidableEq, Repr

inductive HashAlg
  | sha256
  | sha512
  | other
  deriving DecidableEq, Repr

/-- A key file that could be read. `usable`: the RSA signer accepts it. -/
structure PrivateKey where
  blob : String
  rsa : Bool
  usable : Bool := true
  deriving DecidableEq, Repr

structure AgentIdentity where
  blob : String
  rsa : Bool
  certificate : Bool
  deriving DecidableEq, Repr

inductive HandshakeProgress
  | connected
  | promptStarted
  deriving DecidableEq, Repr

/-- What is asked of the peer or of the agent, under a bound. -/
inductive Call
  | connectTcp (host : String) (port : Nat)
  | connectStream (host : String) (port : Nat)
  | connectStreamAfterPrompt (host : String) (port : Nat)
  | authenticatePassword (username password : String)
  | authenticatePublicKey (username : String) (key : PrivateKey) (hash : Option HashAlg)
  | bestSupportedRsaHash
  | connectAgent (socketPath : Option String)
  | requestIdentities
  | authenticateAgentKey (username : String) (identity : AgentIdentity) (hash : Option HashAlg)
  | interactiveStart (username : String)
  | interactiveRespond (responses : List String)
  | openDirectTcpip (host : String) (port : Nat)
  | openSession
  | requestSubsystem
  | startSftp
  | canonicalizeHome
  deriving DecidableEq, Repr

def Call.Reply : Call → Type
  | .connectTcp .. | .connectStreamAfterPrompt .. | .connectAgent _ | .openDirectTcpip .. | .openSession | .requestSubsystem
  | .startSftp => Unit
  | .connectStream .. => HandshakeProgress
  | .authenticatePassword .. | .authenticatePublicKey .. | .authenticateAgentKey .. => AuthResult
  | .bestSupportedRsaHash => Option (Option HashAlg)
  | .requestIdentities => List AgentIdentity
  | .interactiveStart _ | .interactiveRespond _ => InteractiveResponse
  | .canonicalizeHome => String

inductive PromptAnswer
  | answered (responses : List String)
  | cancelled
  | timedOut
  deriving DecidableEq, Repr

inductive HandshakeOp
  | call (timeout : Nat) (request : Call)
  | sendPrompt (name instructions : String) (prompts : List (String × Bool))
  | awaitPrompt (timeout : Nat)
  | extendDeadline (duration : Nat)
  | takeRejection
  | loadSecretKey (keyPath : String) (passphrase : Option String)
  | spawnProxyCommand (command : String)
  | emitAuthFailed (reason : UserFacingError)
  -- stands for the rounds of a sign-in past a bound on their number, and is never answered
  | anotherRound

/-- A call that is not answered within its bound has no answer. -/
def HandshakeOp.Answer : HandshakeOp → Type
  | .call _ request => Option (Except TransportFailureKind request.Reply)
  | .sendPrompt .. => Bool
  | .awaitPrompt _ => PromptAnswer
  | .extendDeadline _ => Unit
  | .takeRejection => Option HostKeyRejection
  | .loadSecretKey .. => Option PrivateKey
  | .spawnProxyCommand _ => Except UserFacingError Unit
  | .emitAuthFailed _ => Bool
  | .anotherRound => Empty

abbrev HandshakeM := Program HandshakeOp HandshakeOp.Answer ConnectFailure

def perform (op : HandshakeOp) : HandshakeM op.Answer := Program.perform op

inductive HandshakePhaseError
  | timedOut (phase : String)
  | failed (error : TransportFailureKind)
  deriving DecidableEq, Repr

def boundedHandshake (timeout : Nat) (phase : String) (call : Call) : HandshakeM (Except HandshakePhaseError call.Reply) := do
  let answer : Option (Except TransportFailureKind call.Reply) ← perform (.call timeout call)
  match answer with
  | some (.ok reply) => pure (.ok reply)
  | some (.error error) => pure (.error (.failed error))
  | none => pure (.error (.timedOut phase))

def handshakeTimeoutError (phase : String) : UserFacingError :=
  { code := .networkTimeout
    title := "Connection Timed Out"
    message := "The server stopped responding while the connection was being set up. Check the network and try again."
    retryable := true
    detail := some ("No response during " ++ phase ++ ".") }

def connectionError (host : String) (port : Nat) : TransportFailureKind → UserFacingError
  | .localNetworkPermissionDenied =>
    { code := .localNetworkPermissionDenied
      title := "Allow Network Access"
      message := "macSFTP was not allowed to connect to " ++ host ++ ":" ++ toString port ++ "."
      retryable := true
      detail := some "Allow access in System Settings → Privacy & Security → Local Network, then try again." }
  | .hostKeyAlgorithmUnsupported =>
    { code := .channelClosed
      title := "Unsupported Server Key"
      message := "The server at " ++ host ++ ":" ++ toString port ++ " has no key macSFTP can verify safely."
      detail := some "Ask the server administrator to enable an Ed25519 or ECDSA host key." }
  | _ =>
    { code := .channelClosed
      title := "Connection Failed"
      message := "Could not connect to " ++ host ++ ":" ++ toString port ++ "."
      retryable := true
      detail := some "Check the server address, network connection, and SSH settings." }

/-- `map_err(..)?` where both kinds of failure are connection failures. -/
def orDisconnect {α : Type} (settings : ConnectionSettings) : Except HandshakePhaseError α → HandshakeM α
  | .ok a => pure a
  | .error (.timedOut phase) => Program.throw (.connection (handshakeTimeoutError phase))
  | .error (.failed error) => Program.throw (.connection (connectionError settings.host settings.port error))

def authFailed (title message : String) : ConnectFailure := .authFailed ⟨.authFailed, title, message, none, false⟩

/-- `map_err(..)?` where a failure of the call is one of the sign-in. -/
def orAuthFailed {α : Type} (title message : String) : Except HandshakePhaseError α → HandshakeM α
  | .ok a => pure a
  | .error (.timedOut phase) => Program.throw (.connection (handshakeTimeoutError phase))
  | .error (.failed _) => Program.throw (authFailed title message)

def emitAuthFailure {α : Type} (reason : UserFacingError) : HandshakeM α := do
  let _ ← perform (.emitAuthFailed reason)
  Program.throw (.authFailed reason)

section

variable (settings : ConnectionSettings) (handshakeTimeout : Nat)

/-- The loop over the server's prompts, for as many rounds as `rounds`. -/
def interactiveLoop : Nat → InteractiveResponse → HandshakeM AuthResult
  | _, .success => pure .success
  | _, .failure remainingMethods partialSuccess => pure (.failure remainingMethods partialSuccess)
  | 0, .infoRequest .. => Program.ask .anotherRound Empty.elim
  | rounds + 1, .infoRequest name instructions prompts => do
    let sent : Bool ← perform (.sendPrompt name instructions prompts)
    if !sent then
      emitAuthFailure ⟨.channelClosed, "Sign-In Unavailable", "The server’s sign-in prompts couldn’t be displayed.", none, false⟩
    else
      let _ ← perform (.extendDeadline (secs 120))
      let answer : PromptAnswer ← perform (.awaitPrompt (secs 120))
      match answer with
      | .cancelled => emitAuthFailure ⟨.cancelled, "Sign-In Cancelled", "Sign-in was cancelled.", none, false⟩
      | .timedOut =>
        emitAuthFailure ⟨.authFailed, "Sign-In Timed Out",
          "The server’s prompts weren’t answered in time. Reconnect to try again.", none, false⟩
      | .answered responses =>
        if responses.length ≠ prompts.length then
          emitAuthFailure ⟨.authFailed, "Answers Don’t Match", "Provide one answer for each server prompt.", none, false⟩
        else
          let reply ← boundedHandshake handshakeTimeout "keyboard-interactive response" (.interactiveRespond responses)
          let response ← orDisconnect settings reply
          interactiveLoop rounds response

def authenticateKeyboardInteractive (rounds : Nat) : HandshakeM AuthResult := do
  let reply ← boundedHandshake handshakeTimeout "keyboard-interactive start" (.interactiveStart settings.username)
  let response ← orDisconnect settings reply
  interactiveLoop settings handshakeTimeout rounds response

/-- The signature hash to offer an identity with; there is none for an RSA key that the server takes only with SHA-1. -/
def identityHash (rsaHashSupport : Option (Option HashAlg)) (identity : AgentIdentity) : Option (Option HashAlg) :=
  if identity.rsa then
    match rsaHashSupport with
    | some (some hash) => some (some hash)
    | none => some (some .sha512)
    | some none => none
  else some none

def offerIdentities (rsaHashSupport : Option (Option HashAlg)) :
    List AgentIdentity → Option AuthResult → HandshakeM AuthResult
  | [], some failure => pure failure
  | [], none => Program.throw (authFailed "No Accepted Key" "The server didn’t accept any compatible key from your SSH agent.")
  | identity :: identities, lastFailure =>
    match identityHash rsaHashSupport identity with
    | none => offerIdentities rsaHashSupport identities lastFailure
    | some hash => do
      let reply ← boundedHandshake handshakeTimeout
        (if identity.certificate then "SSH agent certificate authentication" else "SSH agent public-key authentication")
        (.authenticateAgentKey settings.username identity hash)
      let result : AuthResult ← orAuthFailed "Sign-In Failed" "Your SSH agent couldn’t complete the sign-in request." reply
      if result = .success then pure result else offerIdentities rsaHashSupport identities (some result)

def authenticateSshAgent (socketPath : Option String) : HandshakeM AuthResult := do
  let socket ← boundedHandshake handshakeTimeout "the SSH agent socket" (.connectAgent socketPath)
  let _ ← orAuthFailed "Agent Unavailable" "Start your SSH agent and make SSH_AUTH_SOCK available to macSFTP." socket
  let listing ← boundedHandshake handshakeTimeout "the SSH agent key listing" .requestIdentities
  let identities : List AgentIdentity ← orAuthFailed "Keys Unavailable" "The SSH agent couldn’t provide its keys." listing
  if identities = [] then Program.throw (authFailed "No Keys Available" "Add a key to your SSH agent and try again.")
  else
    let support ← boundedHandshake handshakeTimeout "RSA host-key negotiation" .bestSupportedRsaHash
    let rsaHashSupport ← orDisconnect settings support
    offerIdentities settings handshakeTimeout rsaHashSupport identities none

def authenticateRsaPrivateKey (key : PrivateKey) : HandshakeM AuthResult := do
  let support ← boundedHandshake handshakeTimeout "RSA host-key negotiation" .bestSupportedRsaHash
  let serverSupport : Option (Option HashAlg) ← orDisconnect settings support
  match serverSupport with
  | some none =>
    Program.throw (authFailed "Server Update Required"
      "Ask your administrator to enable rsa-sha2-256 or rsa-sha2-512. SHA-1 ssh-rsa is not supported.")
  | some (some .other) =>
    Program.throw (authFailed "Unsupported Sign-In Method" "The server selected an unsupported RSA signing method.")
  | some (some .sha256) => signIn .sha256
  | some (some .sha512) | none => signIn .sha512
where
  signIn (hash : HashAlg) : HandshakeM AuthResult := do
    if !key.usable then
      Program.throw (authFailed "Key Can’t Be Used" "Use a valid RSA key with at least 2048 bits.")
    else
      let reply ← boundedHandshake handshakeTimeout "RSA public-key authentication"
        (.authenticatePublicKey settings.username key (some hash))
      orAuthFailed "Key Sign-In Failed" "The RSA key couldn’t complete the sign-in request." reply

/-- A sign-in failure is reported before it is returned. -/
def reportingAuthFailure {α : Type} (p : HandshakeM α) : HandshakeM α := do
  let result : Except ConnectFailure α ← p.attempt
  match result with
  | .ok a => pure a
  | .error (.authFailed reason) => emitAuthFailure reason
  | .error failure => Program.throw failure

/-- What the credential itself leads to. -/
def authenticateWith (rounds : Nat) : HandshakeM AuthResult :=
  match settings.auth with
  | .password password => do
    let reply ← boundedHandshake handshakeTimeout "password authentication" (.authenticatePassword settings.username password)
    orDisconnect settings reply
  | .privateKey keyPath passphrase => do
    let loaded : Option PrivateKey ← perform (.loadSecretKey keyPath passphrase)
    match loaded with
    | none => emitAuthFailure ⟨.authFailed, "Key Couldn’t Open", "The key file couldn’t be read or unlocked.", none, false⟩
    | some key =>
      if key.rsa then reportingAuthFailure (authenticateRsaPrivateKey settings handshakeTimeout key)
      else
        let reply ← boundedHandshake handshakeTimeout "public-key authentication"
          (.authenticatePublicKey settings.username key none)
        orDisconnect settings reply
  | .keyboardInteractive => authenticateKeyboardInteractive settings handshakeTimeout rounds
  | .sshAgent socketPath => reportingAuthFailure (authenticateSshAgent settings handshakeTimeout socketPath)

/-- The server wants a keyboard-interactive sign-in after the credential. -/
def AuthResult.wantsInteractive : AuthResult → Bool
  | .failure remainingMethods true => .keyboardInteractive ∈ remainingMethods
  | _ => false

def reportSignIn : AuthResult → HandshakeM Unit
  | .success => pure ()
  | .failure .. => emitAuthFailure ⟨.authFailed, "Sign-In Failed", "The server rejected your sign-in details.", none, false⟩

def authenticate (rounds : Nat) : HandshakeM Unit := do
  let first ← authenticateWith settings handshakeTimeout rounds
  let result ←
    if settings.auth ≠ .keyboardInteractive ∧ first.wantsInteractive = true then
      authenticateKeyboardInteractive settings handshakeTimeout rounds
    else pure first
  reportSignIn result

end

end MacSftp.Handshake
