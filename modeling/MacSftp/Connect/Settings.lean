import MacSftp.Core.Types

namespace MacSftp

inductive AuthCredential
  | password (password : String)
  | privateKey (keyPath : String) (passphrase : Option String)
  | keyboardInteractive
  | sshAgent (socketPath : Option String)
  deriving DecidableEq, Repr

mutual

structure ConnectionSettings where
  host : String
  port : Nat
  username : String
  auth : AuthCredential
  route : ResolvedConnectionRoute

inductive ResolvedConnectionRoute
  | direct
  | jumpHost (settings : ConnectionSettings)
  | proxyCommand (command : String)

end

def ConnectionKey.new (settings : ConnectionSettings) (identity : ConnectionPoolIdentity) : ConnectionKey where
  host := settings.host
  port := settings.port
  username := settings.username
  identity := identity

structure RemoteEventScope where
  tabId : TabId
  sessionId : SessionId
  sessionEpoch : Nat
  deriving DecidableEq, Repr

inductive DisconnectReason
  | userRequested
  | error (error : UserFacingError)
  deriving DecidableEq, Repr

structure HostKeyMismatchDetails where
  host : String
  port : Nat
  expectedFingerprint : Option String
  actualFingerprint : String
  deriving DecidableEq, Repr

structure HostKeyPrompt where
  requestId : Nat
  scope : RemoteEventScope
  host : String
  port : Nat
  algorithm : String
  fingerprint : String
  deriving DecidableEq, Repr

inductive ConnectFailure
  | hostKeyMismatch (details : HostKeyMismatchDetails)
  | trustRejected
  | trustTimeout
  | authFailed (reason : UserFacingError)
  | connection (error : UserFacingError)
  deriving DecidableEq, Repr

inductive ConnectionEvent
  | tabConnecting (tabId : TabId)
  | hostKeyUnknown (prompt : HostKeyPrompt)
  | tabDisconnected (scope : RemoteEventScope) (reason : DisconnectReason)
  | authFailed (scope : RemoteEventScope) (reason : UserFacingError)
  | hostKeyMismatch (scope : RemoteEventScope) (details : HostKeyMismatchDetails)
  deriving DecidableEq, Repr

/-- The events that tell a tab how its connect ended. -/
def ConnectionEvent.terminal (scope : RemoteEventScope) : ConnectionEvent → Bool
  | .tabConnecting _ | .hostKeyUnknown _ => false
  | .tabDisconnected of _ | .authFailed of _ | .hostKeyMismatch of _ => of = scope

def connectionFailureEvent (scope : RemoteEventScope) : ConnectFailure → Option ConnectionEvent
  | .hostKeyMismatch details => some (.hostKeyMismatch scope details)
  | .trustRejected => some (.tabDisconnected scope .userRequested)
  | .trustTimeout =>
    some (.tabDisconnected scope (.error ⟨.unknown, "Trust prompt timed out",
      "You did not respond to the host key prompt in time.", none, false⟩))
  -- the handshake has reported it, in the scope it was started in
  | .authFailed _ => none
  | .connection error => some (.tabDisconnected scope (.error error))

end MacSftp
