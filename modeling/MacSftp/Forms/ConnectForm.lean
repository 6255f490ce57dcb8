import MacSftp.Connect.Settings
import MacSftp.Forms.Input
import MacSftp.Lib.Runs

namespace MacSftp.Forms

open Lib

inductive ConnectField
  | host
  | port
  | username
  | password
  | keyPath
  | passphrase
  | agentSocket
  | profileFilter
  deriving DecidableEq, Repr

structure ConnectForm where
  host : InputState := {}
  port : InputState := .withValue ['2', '2']
  username : InputState := {}
  authMethod : AuthMethodKind := .password
  password : InputState := {}
  keyPath : InputState := {}
  passphrase : InputState := {}
  agentSocket : InputState := {}
  route : ResolvedConnectionRoute := .direct
  focusedField : ConnectField := .host
  error : Option String := none
  sourceProfileId : Option ProfileId := none
  profilePickerOpen : Bool := false
  profilePickerFilter : InputState := {}
  showPassword : Bool := false
  showPassphrase : Bool := false

structure RestoredTabTarget where
  host : String
  port : Nat
  username : String
  profileId : Option ProfileId

/-- `str::trim`. -/
def trim (text : List Char) : List Char := ((text.dropWhile isWhitespace).reverse.dropWhile isWhitespace).reverse

/-- `str::parse::<u16>`. -/
def parseU16 (text : List Char) : Option Nat :=
  let digits := if text.head? = some '+' then text.tail else text
  if digits = [] ∨ ¬ digits.all Char.isDigit then none
  else if Nat.ofDigitChars 10 digits 0 < 65536 then some (Nat.ofDigitChars 10 digits 0)
  else none

def invalidChars (text : List Char) : Bool := text.any (fun ch => isWhitespace ch || isBidiOrControl ch)

def trimEndSlashes (text : List Char) : List Char := (text.reverse.dropWhile (· = '/')).reverse

/-- `expand_home` with the value of `HOME`, if it is set. -/
def expandHome (home : Option (List Char)) (path : List Char) : List Char :=
  if ['~', '/'].isPrefixOf path then
    match home with
    | some home => trimEndSlashes home ++ '/' :: path.drop 2
    | none => path
  else path

namespace ConnectForm

def prefilled (settings : ConnectionSettings) : ConnectForm :=
  let form : ConnectForm :=
    { host := .withValue settings.host.toList
      port := .withValue (Nat.toDigits 10 settings.port)
      username := .withValue settings.username.toList
      route := settings.route }
  match settings.auth with
  | .privateKey keyPath _ => { form with authMethod := .privateKey, keyPath := .withValue keyPath.toList }
  | .keyboardInteractive => { form with authMethod := .keyboardInteractive }
  | .sshAgent socketPath =>
    { form with
      authMethod := .sshAgent
      agentSocket := (socketPath.map fun path => InputState.withValue path.toList).getD {} }
  | .password _ => form

def fromProfile (profile : ConnectionProfile) : ConnectForm :=
  let form : ConnectForm :=
    { host := .withValue profile.host.toList
      port := .withValue (Nat.toDigits 10 profile.port)
      username := .withValue profile.username.toList
      sourceProfileId := some profile.id }
  match profile.auth with
  | .password _ => { form with authMethod := .password }
  | .privateKey keyPath _ _ => { form with authMethod := .privateKey, keyPath := .withValue keyPath.chars }
  | .keyboardInteractive => { form with authMethod := .keyboardInteractive }
  | .sshAgent socketPath =>
    { form with
      authMethod := .sshAgent
      agentSocket := (socketPath.map fun path => InputState.withValue path.chars).getD {} }

def fieldOrder (form : ConnectForm) : List ConnectField :=
  match form.authMethod with
  | .password => [.host, .port, .username, .password]
  | .privateKey => [.host, .port, .username, .keyPath, .passphrase]
  | .keyboardInteractive => [.host, .port, .username]
  | .sshAgent => [.host, .port, .username, .agentSocket]

def fieldState (form : ConnectForm) : ConnectField → InputState
  | .host => form.host
  | .port => form.port
  | .username => form.username
  | .password => form.password
  | .keyPath => form.keyPath
  | .passphrase => form.passphrase
  | .agentSocket => form.agentSocket
  | .profileFilter => form.profilePickerFilter

def setField (form : ConnectForm) (field : ConnectField) (input : InputState) : ConnectForm :=
  match field with
  | .host => { form with host := input }
  | .port => { form with port := input }
  | .username => { form with username := input }
  | .password => { form with password := input }
  | .keyPath => { form with keyPath := input }
  | .passphrase => { form with passphrase := input }
  | .agentSocket => { form with agentSocket := input }
  | .profileFilter => { form with profilePickerFilter := input }

/-- Tab moves on from the focused field, or from the first one when it is not in the order. -/
def cycleFocus (form : ConnectForm) (backwards : Bool) : ConnectForm :=
  let order := form.fieldOrder
  let current := (order.findIdx? (· = form.focusedField)).getD 0
  let next := if backwards then current + order.length - 1 else current + 1
  { form with focusedField := (order[next % order.length]?).getD form.focusedField }

def detachFromProfile (form : ConnectForm) : ConnectForm :=
  { form with sourceProfileId := none, password := form.password.clear, passphrase := form.passphrase.clear }

def switchToManualEntry (form : ConnectForm) : ConnectForm :=
  { form.detachFromProfile with route := .direct, profilePickerOpen := false, profilePickerFilter := {} }

def closeProfilePicker (form : ConnectForm) : ConnectForm :=
  { form with profilePickerOpen := false, profilePickerFilter := {} }

/-- The secrets of the methods that have been left are cleared, and so are their reveals. -/
def leaveMethods (form : ConnectForm) : AuthMethodKind → ConnectForm
  | .password => { form with passphrase := form.passphrase.clear, showPassphrase := false }
  | .privateKey => { form with password := form.password.clear, showPassword := false }
  | .keyboardInteractive | .sshAgent =>
    { form with
      password := form.password.clear
      passphrase := form.passphrase.clear
      showPassword := false
      showPassphrase := false }

def setAuthMethod (form : ConnectForm) (method : AuthMethodKind) : ConnectForm :=
  if form.authMethod = method then form
  else
    let detached := if form.sourceProfileId.isSome then form.detachFromProfile else form
    let switched := leaveMethods { detached with authMethod := method } method
    if switched.focusedField ∈ switched.fieldOrder then switched
    else
      { switched with
        focusedField :=
          match method with
          | .password => .password
          | .privateKey => .keyPath
          | .keyboardInteractive | .sshAgent => .username }

def buildAuth (home : Option (List Char)) (form : ConnectForm) : Except String AuthCredential :=
  match form.authMethod with
  | .password => .ok (.password (String.ofList form.password.text))
  | .privateKey =>
    let keyPath := expandHome home (trim form.keyPath.text)
    if keyPath = [] then .error "Enter the full path to your key file."
    else if keyPath.any isBidiOrControl then .error "Key path contains invalid characters."
    else
      let passphrase := form.passphrase.text
      .ok (.privateKey (String.ofList keyPath) (if passphrase = [] then none else some (String.ofList passphrase)))
  | .keyboardInteractive => .ok .keyboardInteractive
  | .sshAgent =>
    let path := expandHome home (trim form.agentSocket.text)
    if path.any isBidiOrControl then .error "Agent socket path contains invalid characters."
    else .ok (.sshAgent (if path = [] then none else some (String.ofList path)))

def buildPort (form : ConnectForm) : Except String Nat :=
  let portText := trim form.port.text
  if portText = [] then .ok 22
  else
    match parseU16 portText with
    | some port => if 0 < port then .ok port else .error "Enter a whole number from 1 to 65535."
    | none => .error "Enter a whole number from 1 to 65535."

def buildSettings (home : Option (List Char)) (form : ConnectForm) : Except String ConnectionSettings := do
  let host := trim form.host.text
  if host = [] then throw "Enter a server address."
  if invalidChars host then throw "Server address contains invalid characters."
  let port ← form.buildPort
  let username := trim form.username.text
  if username = [] then throw "Enter a username."
  if invalidChars username then throw "Username contains invalid characters."
  let auth ← form.buildAuth home
  return ⟨String.ofList host, port, String.ofList username, auth, form.route⟩

end ConnectForm

end MacSftp.Forms
