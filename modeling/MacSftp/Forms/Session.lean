import MacSftp.Forms.ConnectForm

namespace MacSftp.Forms

open Lib

/-- What `load_connection_settings` gives for a profile: its settings with the secret from the Keychain, or a failure. -/
abbrev LoadedSettings := Option ConnectionSettings

structure Submission where
  settings : ConnectionSettings
  profileId : Option ProfileId
  /-- The characters of the submitted password or passphrase. -/
  secret : List FieldChar

/-- The profiles of the store, which have been validated when they were loaded or saved. -/
structure SavedProfiles where
  profiles : List ConnectionProfile
  valid : ∀ profile ∈ profiles, ProfilesFile.invalidName profile.host = false ∧ ProfilesFile.invalidName profile.username = false ∧
    0 < profile.port ∧ profile.port < 65536

def SavedProfiles.findProfile (saved : SavedProfiles) (profileId : ProfileId) : Option ConnectionProfile :=
  saved.profiles.find? (fun profile => profile.id = profileId)

/-- The connect form of a workspace and the saved profiles. The profile whose secret was restored last is remembered
for the statements about it; the code does not keep it. -/
structure FormState where
  saved : SavedProfiles
  form : Option ConnectForm := none
  restoredFrom : Option ConnectionProfile := none

inductive FormOp
  | openConnectForm (cached : Option ConnectionSettings) (restored : Option RestoredTabTarget)
  | closeConnectForm
  | useProfile (profileId : ProfileId) (loaded : LoadedSettings)
  | selectConnectProfile (profileId : ProfileId) (loaded : LoadedSettings)
  | change (field : ConnectField) (value : List Char)
  | focus (field : ConnectField)
  | cycleFocus (backwards : Bool)
  | setAuthMethod (method : AuthMethodKind)
  | toggleProfilePicker
  | switchToManualEntry
  | key (keystroke : Keystroke) (clipboard : Option (List Char))
  | submit
  | profilesChanged (saved : SavedProfiles)

namespace ConnectForm

def submittedSecret (form : ConnectForm) : List FieldChar :=
  match form.authMethod with
  | .password => form.password.value
  | .privateKey => form.passphrase.value
  | .keyboardInteractive | .sshAgent => []

/-- A password that could not be loaded is not sent empty. -/
def canAutoConnect (home : Option (List Char)) (form : ConnectForm) : Bool :=
  match form.buildSettings home with
  | .error _ => false
  | .ok _ =>
    match form.authMethod with
    | .password => form.password.value ≠ []
    | .privateKey | .keyboardInteractive | .sshAgent => true

/-- The secret of the loaded settings goes into the form. -/
def restore (form : ConnectForm) (settings : ConnectionSettings) : ConnectForm :=
  let form := { form with route := settings.route }
  match settings.auth with
  | .password password => { form with password := .withChars (password.toList.map (⟨·, true⟩)) }
  | .privateKey _ (some passphrase) => { form with passphrase := .withChars (passphrase.toList.map (⟨·, true⟩)) }
  | .privateKey _ none | .keyboardInteractive => form
  | .sshAgent socketPath => { form with agentSocket := (socketPath.map fun path =>
      InputState.withValue path.toList).getD form.agentSocket }

/-- Whether an edited field no longer says what the linked profile says. -/
def targetDiverged (field : ConnectField) (value : List Char) : Option ConnectionProfile → Bool
  | none => true
  | some profile =>
    match field with
    | .host => trim value ≠ profile.host.toList
    | .port => trim value ≠ Nat.toDigits 10 profile.port
    | .username => trim value ≠ profile.username.toList
    | .keyPath =>
      match profile.auth with
      | .privateKey keyPath _ _ => trim value ≠ keyPath.chars
      | _ => true
    | .password | .passphrase | .agentSocket | .profileFilter => false

def edit (form : ConnectForm) (field : ConnectField) (value : List Char) : ConnectForm :=
  let edited := { form.setField field (.withValue value) with error := none }
  if field = .profileFilter then edited else { edited with focusedField := field }

/-- The handler of `InputEvent::Change`. The secret fields have no input of this kind. -/
def change (saved : SavedProfiles) (form : ConnectForm) (field : ConnectField) (value : List Char) : ConnectForm :=
  if field = .password ∨ field = .passphrase then form
  else
    match (form.edit field value).sourceProfileId with
    | none => form.edit field value
    | some profileId =>
      if targetDiverged field value (saved.findProfile profileId) then (form.edit field value).detachFromProfile
      else form.edit field value

/-- A key in one of the secret fields. -/
def editSecret (form : ConnectForm) (keystroke : Keystroke) (clipboard : Option (List Char)) : ConnectForm :=
  let field := form.focusedField
  if keystroke.platform ∧ keystroke.key = "v" then
    match clipboard with
    | some text => { form.setField field ((form.fieldState field).insert text) with sourceProfileId := none }
    | none => form
  else
    match (form.fieldState field).handleKeystroke keystroke with
    | none => form
    | some after =>
      let edited := form.setField field after
      { edited with
        sourceProfileId := if after.text ≠ (form.fieldState field).text then none else form.sourceProfileId
        error := none }

end ConnectForm

namespace FormState

variable (home : Option (List Char))

def onForm (s : FormState) (f : ConnectForm → ConnectForm) : FormState := { s with form := s.form.map f }

def openConnectForm (s : FormState) (cached : Option ConnectionSettings) (restored : Option RestoredTabTarget) : FormState :=
  let form : ConnectForm :=
    match cached, restored with
    | some settings, _ => .prefilled settings
    | none, some target =>
      match target.profileId.bind s.saved.findProfile with
      | some profile => .fromProfile profile
      | none =>
        { host := .withValue target.host.toList
          port := .withValue (Nat.toDigits 10 target.port)
          username := .withValue target.username.toList
          sourceProfileId := target.profileId }
    | none, none => {}
  { s with form := some form, restoredFrom := none }

def useProfile (s : FormState) (profileId : ProfileId) (loaded : LoadedSettings) : FormState :=
  match s.saved.findProfile profileId with
  | none => s
  | some profile =>
    match loaded with
    | some settings =>
      { s with
        form := some { ConnectForm.restore (.fromProfile profile) settings with profilePickerOpen := false }
        restoredFrom := some profile }
    | none => { s with form := some { ConnectForm.fromProfile profile with profilePickerOpen := false }, restoredFrom := none }

def submitConnectForm (s : FormState) : FormState × Option Submission :=
  match s.form with
  | none => (s, none)
  | some form =>
    match form.buildSettings home with
    | .ok settings =>
      let profileId := form.sourceProfileId.filter fun profileId =>
        match s.saved.findProfile profileId with
        | some profile => profile.host = settings.host ∧ profile.port = settings.port ∧ profile.username = settings.username
        | none => false
      ({ s with form := none }, some ⟨settings, profileId, form.submittedSecret⟩)
    | .error message => ({ s with form := some { form with error := some message } }, none)

/-- Enter in the open picker selects the first profile that is shown, which is an operation of its own here. -/
def handleConnectFormKey (s : FormState) (keystroke : Keystroke) (clipboard : Option (List Char)) : FormState × Option Submission :=
  match s.form with
  | none => (s, none)
  | some form =>
    if keystroke.key = "escape" then
      (if form.profilePickerOpen then s.onForm ConnectForm.closeProfilePicker else s, none)
    else if keystroke.key = "enter" ∧ keystroke.modified = false then
      if form.profilePickerOpen then (s, none) else s.submitConnectForm home
    else if keystroke.key = "tab" then (s.onForm (·.cycleFocus keystroke.shift), none)
    else if form.profilePickerOpen = true ∨ ¬ (form.focusedField = .password ∨ form.focusedField = .passphrase) then (s, none)
    else (s.onForm (·.editSecret keystroke clipboard), none)

def apply (s : FormState) : FormOp → FormState × Option Submission
  | .openConnectForm cached restored => (s.openConnectForm cached restored, none)
  | .closeConnectForm => ({ s with form := none }, none)
  | .useProfile profileId loaded => (s.useProfile profileId loaded, none)
  | .selectConnectProfile profileId loaded => ((s.useProfile profileId loaded).onForm ConnectForm.closeProfilePicker, none)
  | .change field value => (s.onForm fun form => form.change s.saved field value, none)
  | .focus field => (s.onForm fun form => if field = .profileFilter then form else { form with focusedField := field }, none)
  | .cycleFocus backwards => (s.onForm (·.cycleFocus backwards), none)
  | .setAuthMethod method => (s.onForm (·.setAuthMethod method), none)
  | .toggleProfilePicker => (s.onForm fun form => { form with profilePickerOpen := !form.profilePickerOpen }, none)
  | .switchToManualEntry => (s.onForm ConnectForm.switchToManualEntry, none)
  | .key keystroke clipboard => s.handleConnectFormKey home keystroke clipboard
  | .submit => s.submitConnectForm home
  | .profilesChanged saved => ({ s with saved := saved }, none)

def machine : Machine FormState FormOp (Option Submission) := ⟨apply home⟩

end FormState

end MacSftp.Forms
