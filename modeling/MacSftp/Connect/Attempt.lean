import MacSftp.Connect.AgentKeys
import MacSftp.Storage.ProfileFile

namespace MacSftp.Handshake

open Lib Program

/-- The bound runs anew, with the time of the prompt, once the user is asked whether the host is trusted. -/
def boundedHandshakeWithTrustPrompt (timeout promptTimeout : Nat) (phase : String) (host : String) (port : Nat) :
    HandshakeM (Except HandshakePhaseError Unit) := do
  let progress : Except HandshakePhaseError HandshakeProgress ← boundedHandshake timeout phase (.connectStream host port)
  match progress with
  | .error error => pure (.error error)
  | .ok .connected => pure (.ok ())
  | .ok .promptStarted => do
    let _ ← perform (.extendDeadline promptTimeout)
    boundedHandshake (timeout + promptTimeout) phase (.connectStreamAfterPrompt host port)

def sftpConnectionError (title message : String) : UserFacingError where
  code := .channelClosed
  title := title
  message := message
  retryable := true

/-- `map_err(..)?` where a failure has texts of its own. -/
def orFail {α : Type} (failure : UserFacingError) : Except HandshakePhaseError α → HandshakeM α
  | .ok a => pure a
  | .error (.timedOut phase) => Program.throw (.connection (handshakeTimeoutError phase))
  | .error (.failed _) => Program.throw (.connection failure)

section

variable (settings : ConnectionSettings) (config : HostTrustConfig) (rounds : Nat)

def establishOnStream : HandshakeM Unit := do
  let handshake ← boundedHandshakeWithTrustPrompt config.handshakeTimeout config.trustPromptTimeout "the SSH handshake"
    settings.host settings.port
  match handshake with
  | .error (.failed error) => do
    let recorded : Option HostKeyRejection ← perform .takeRejection
    Program.throw (match recorded with
      | some (.mismatch details) => .hostKeyMismatch details
      | some .userRejected => .trustRejected
      | some .promptTimeout => .trustTimeout
      | none => .connection (connectionError settings.host settings.port error))
  | .error (.timedOut phase) => Program.throw (.connection (handshakeTimeoutError phase))
  | .ok () => authenticate settings config.handshakeTimeout rounds

def connectTcpStream : HandshakeM Unit := do
  let stream ← boundedHandshake config.handshakeTimeout "the TCP connection" (.connectTcp settings.host settings.port)
  orDisconnect settings stream

def invalidText (text : String) : Bool :=
  text.toList.isEmpty || text.toList.any (fun c => isWhitespace c || isBidiOrControl c)

def establishPhysicalConnection : HandshakeM Unit :=
  if settings.port = 0 ∨ invalidText settings.host = true then
    Program.throw (.connection ⟨.unknown, "Invalid Server Address", "The server address or port is invalid.", none, false⟩)
  else if invalidText settings.username = true then
    Program.throw (.connection ⟨.unknown, "Invalid Username", "The username is invalid.", none, false⟩)
  else
    match settings.route with
    | .direct => do
      connectTcpStream settings config
      establishOnStream settings config rounds
    | .proxyCommand command => do
      let spawned : Except UserFacingError Unit ← perform (.spawnProxyCommand command)
      match spawned with
      | .error error => Program.throw (.connection error)
      | .ok () => establishOnStream settings config rounds
    | .jumpHost jump =>
      match jump.route with
      | .direct => do
        connectTcpStream jump config
        establishOnStream jump config rounds
        let channel ← boundedHandshake config.handshakeTimeout "opening intermediate channel"
          (.openDirectTcpip settings.host settings.port)
        orFail (sftpConnectionError "Server Couldn’t Be Reached"
          "The intermediate server rejected the connection to your destination.") channel
        establishOnStream settings config rounds
      | _ =>
        Program.throw (.connection ⟨.channelClosed, "Invalid Intermediate Connection",
          "The intermediate server’s saved connection must use Direct.", none, false⟩)

/-- The task of an attempt, up to the connection it puts into the pool. -/
def attempt : HandshakeM String := do
  establishPhysicalConnection settings config rounds
  let channel ← boundedHandshake config.handshakeTimeout "opening an SSH channel" .openSession
  orFail (sftpConnectionError "Could not open an SSH channel." "The server did not open an SSH channel for SFTP.") channel
  let subsystem ← boundedHandshake config.handshakeTimeout "the SFTP subsystem request" .requestSubsystem
  orFail (sftpConnectionError "The server rejected the SFTP subsystem."
    "The server did not accept the SFTP subsystem request.") subsystem
  let sftp ← boundedHandshake config.handshakeTimeout "starting the SFTP subsystem" .startSftp
  orFail (sftpConnectionError "The file connection couldn’t start." "The SFTP subsystem did not become ready.") sftp
  let root ← boundedHandshake config.handshakeTimeout "resolving the remote home directory" .canonicalizeHome
  orFail (sftpConnectionError "Could not resolve the remote home directory."
    "The remote home directory was unavailable after SFTP started.") root

end

def authPeerPhases : AuthCredential → Nat
  | .password _ => 3
  | .privateKey .. => 4
  | .keyboardInteractive => 4
  | .sshAgent _ => 11

/-- The steps that every connection over the route takes, but for the sign-ins. -/
def setupPhases : ResolvedConnectionRoute → Nat
  | .direct => 2 + 4
  | .proxyCommand _ => 1 + 4
  | .jumpHost _ => 4 + 4

def signInPhases (settings : ConnectionSettings) : Nat :=
  match settings.route with
  | .direct | .proxyCommand _ => authPeerPhases settings.auth
  | .jumpHost jump => authPeerPhases jump.auth + authPeerPhases settings.auth

def computeAttemptPeerBudget (settings : ConnectionSettings) (handshakeTimeout : Nat) : Nat :=
  let phases :=
    match settings.route with
    | .direct => 1 + 1 + authPeerPhases settings.auth
    | .proxyCommand _ => 1 + authPeerPhases settings.auth
    | .jumpHost jump => 1 + 1 + authPeerPhases jump.auth + 1 + 1 + authPeerPhases settings.auth
  handshakeTimeout * (phases + 4)

end MacSftp.Handshake
