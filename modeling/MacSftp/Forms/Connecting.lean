import MacSftp.Forms.Session
import MacSftp.Storage.ProfileIds

namespace MacSftp

open Lib

/-- Which operations fail during one call. -/
structure ProfileFaults where
  load : SecretRef → Option KeychainError := fun _ => none
  store : Option KeychainError := none
  rollback : Option KeychainError := none
  delete : SecretRef → Option KeychainError := fun _ => none
  disk : DiskFaults := {}

variable {Contents : Type} (codec : ProfilesCodec Contents)

/-- The answer and the effect of an operation of the only store, with the faults of the call. -/
def ProfileOp.replyWith (faults : ProfileFaults) :
    (op : ProfileOp) → ProfileWorld Contents Unit → op.Ans × ProfileWorld Contents Unit
  | .openOrEmpty, w => ((), w.setStore () (.openOrEmpty codec (w.stores ()).path w.disk) w.disk)
  | .store, w => (w.stores (), w)
  | .keychainLoad secretRef, w =>
    match faults.load secretRef with
    | some error => (.error error, w)
    | none => (.ok (w.keychain secretRef), w)
  | .keychainStore secretRef secret, w =>
    match faults.store with
    | some error => (.error error, w)
    | none => (.ok (), w.setSecret secretRef (some secret))
  | .keychainRollback secretRef previous, w =>
    match faults.rollback with
    | some error => (.error error, w)
    | none => (.ok (), w.setSecret secretRef previous)
  | .keychainDelete secretRef, w =>
    match faults.delete secretRef with
    | some error => (.error error, w)
    | none => (.ok (), w.setSecret secretRef none)
  | .commitTransaction transaction, w =>
    let ended := ProfileStore.commitTransaction codec faults.disk (w.stores ()) w.disk transaction
    (ended.1, w.setStore () ended.2.1 ended.2.2)

theorem ProfileOp.replyWith_does (faults : ProfileFaults) (op : ProfileOp) (w : ProfileWorld Contents Unit) :
    op.Does codec () (op.replyWith codec faults w).1 w (op.replyWith codec faults w).2 := by
  cases op with
  | openOrEmpty => rfl
  | store => exact ⟨rfl, rfl⟩
  | keychainLoad secretRef =>
    simp only [replyWith]
    split
    · exact ⟨Or.inr ⟨_, rfl⟩, rfl⟩
    · exact ⟨Or.inl rfl, rfl⟩
  | keychainStore secretRef secret =>
    simp only [replyWith]
    split
    · exact Or.inr ⟨⟨_, rfl⟩, rfl⟩
    · exact Or.inl ⟨rfl, rfl⟩
  | keychainRollback secretRef previous =>
    simp only [replyWith]
    split
    · exact Or.inr ⟨⟨_, rfl⟩, rfl⟩
    · exact Or.inl ⟨rfl, rfl⟩
  | keychainDelete secretRef =>
    simp only [replyWith]
    split
    · exact Or.inr ⟨⟨_, rfl⟩, rfl⟩
    · exact Or.inl ⟨rfl, rfl⟩
  | commitTransaction transaction => exact ⟨faults.disk, rfl⟩

/-- A call of the only store. It runs to its end before anything else happens. -/
def ProfileCall.runWith (call : ProfileCall) (faults : ProfileFaults) (w : ProfileWorld Contents Unit) :
    ProfileWorld Contents Unit × Except ProfileMutationError ProfileAnswer :=
  (call.program.play (ProfileOp.replyWith codec faults) w).2

namespace ProfileStore

/-- `hash` is the digest that stands for a key's path. -/
def profileFingerprint (hash : List Char → String) (profileId : ProfileId) (profile : ConnectionProfile) : AuthFingerprint :=
  match profile.auth with
  | .password secretRef => ⟨.password, some secretRef, none, profile.revision, some profileId, none⟩
  | .privateKey keyPath _ passphraseRef =>
    ⟨.privateKey, passphraseRef, some (hash keyPath.chars), profile.revision, some profileId, none⟩
  | .keyboardInteractive => ⟨.keyboardInteractive, none, none, profile.revision, some profileId, none⟩
  | .sshAgent _ => ⟨.sshAgent, none, none, profile.revision, some profileId, none⟩

def authFingerprint (hash : List Char → String) (store : ProfileStore) (profileId : ProfileId) : Option AuthFingerprint := do
  let profile ← store.findProfile profileId
  match profile.route with
  | .jumpHost jumpId => do
    let jump ← store.findProfile jumpId
    some { profileFingerprint hash profileId profile with jumpProfileRevision := some (jumpId, jump.revision) }
  | .direct | .proxyCommand _ => some (profileFingerprint hash profileId profile)

/-- The credential of a profile, where `load` reads the Keychain. -/
def loadAuth (load : SecretRef → Option String) : AuthMethod → Option AuthCredential
  | .password secretRef => (load secretRef).map .password
  | .privateKey keyPath _ none => some (.privateKey (String.ofList keyPath.chars) none)
  | .privateKey keyPath _ (some secretRef) =>
    (load secretRef).map fun passphrase => .privateKey (String.ofList keyPath.chars) (some passphrase)
  | .keyboardInteractive => some .keyboardInteractive
  | .sshAgent socketPath => some (.sshAgent (socketPath.map fun path => String.ofList path.chars))

/-- `load_connection_settings`: nothing stands for its errors. -/
def loadConnectionSettings (load : SecretRef → Option String) (store : ProfileStore) (profileId : ProfileId) :
    Option ConnectionSettings := do
  let profile ← store.findProfile profileId
  let auth ← loadAuth load profile.auth
  match profile.route with
  | .direct => some ⟨profile.host, profile.port, profile.username, auth, .direct⟩
  | .proxyCommand command =>
    if command.toList.all isWhitespace then none
    else some ⟨profile.host, profile.port, profile.username, auth, .proxyCommand command⟩
  | .jumpHost jumpId => do
    let jump ← store.findProfile jumpId
    -- the jump's own route ends the recursion, and with it the search for a cycle
    if jump.route = .direct then do
      let jumpAuth ← loadAuth load jump.auth
      some ⟨profile.host, profile.port, profile.username, auth,
        .jumpHost ⟨jump.host, jump.port, jump.username, jumpAuth, .direct⟩⟩
    else none

end ProfileStore

namespace Forms

/-- What a tab keeps about its connection. -/
structure TabLink where
  profileId : Option ProfileId := none
  connectionSettings : Option ConnectionSettings := none
  restoredTarget : Option RestoredTabTarget := none
  inFlight : Bool := false

/-- The windows of a process with their tabs and connect forms, and the one profile store. -/
structure ConnectApp (Contents ω : Type) where
  world : ProfileWorld Contents Unit
  forms : ω → Option ConnectForm := fun _ => none
  active : ω → Option TabId := fun _ => none
  tabs : ω → TabId → Option TabLink := fun _ _ => none
  nextSessionId : Nat := 1

inductive ConnectAppOp (ω : Type)
  | call (window : ω) (call : ProfileCall) (faults : ProfileFaults)
  | openTab (window : ω) (tabId : TabId) (restored : Option RestoredTabTarget)
  | activate (window : ω) (tabId : TabId)
  -- the connect ended, or the connection did, where the tab showed a directory or not
  | settled (window : ω) (tabId : TabId)
  | disconnected (window : ω) (tabId : TabId) (shown : Bool)
  | openConnectForm (window : ω)
  | useProfile (window : ω) (profileId : ProfileId) (select : Bool) (unreadable : SecretRef → Bool)
  | form (window : ω) (op : FormOp) (sent : Bool)
  | requestConnect (window : ω) (sent : Bool)
  | openRecentConnection (window : ω) (target : RestoredTabTarget) (unreadable : SecretRef → Bool) (sent : Bool)

/-- A `ConnectTab` command that has been sent. -/
structure Connected where
  key : ConnectionKey
  settings : ConnectionSettings

/-- The steps of the form that come from its own fields and buttons. -/
def FormOp.own : FormOp → Bool
  | .openConnectForm .. | .useProfile .. | .selectConnectProfile .. | .profilesChanged _ => false
  | .closeConnectForm | .change .. | .focus _ | .cycleFocus _ | .setAuthMethod _ | .toggleProfilePicker | .switchToManualEntry
  | .key .. | .submit => true

def TabLink.forget (profileId : ProfileId) (tab : TabLink) : TabLink :=
  { tab with
    profileId := if tab.profileId = some profileId then none else tab.profileId
    restoredTarget := tab.restoredTarget.map fun target =>
      if target.profileId = some profileId then { target with profileId := none } else target }

/-- What is browsed is remembered with the endpoint, if nothing has been restored. -/
def TabLink.disconnect (shown : Bool) (tab : TabLink) : TabLink :=
  { tab with
    inFlight := false
    restoredTarget :=
      if shown ∧ tab.restoredTarget.isNone then
        tab.connectionSettings.map fun settings => ⟨settings.host, settings.port, settings.username, tab.profileId⟩
      else tab.restoredTarget }

/-- The profiles in memory have been validated, and a port is a `u16`: nothing is left out. -/
def SavedProfiles.ofStore (store : ProfileStore) : SavedProfiles where
  profiles := store.profiles.profiles.filter fun profile =>
    ProfilesFile.invalidName profile.host = false ∧ ProfilesFile.invalidName profile.username = false ∧ 0 < profile.port ∧
      profile.port < 65536
  valid := fun profile stored => by simpa using (List.mem_filter.mp stored).2

namespace ConnectApp

variable {ω : Type} [DecidableEq ω] (home : Option (List Char)) (hash : List Char → String)

def store (s : ConnectApp Contents ω) : ProfileStore := s.world.stores ()

def activeTab (s : ConnectApp Contents ω) (window : ω) : Option (TabId × TabLink) := do
  let tabId ← s.active window
  let tab ← s.tabs window tabId
  some (tabId, tab)

/-- A step of the form of a window. -/
def onForm (s : ConnectApp Contents ω) (window : ω) (op : FormOp) : ConnectApp Contents ω × Option Submission :=
  let ended := FormState.apply home ⟨.ofStore s.store, s.forms window, none⟩ op
  ({ s with forms := Function.update s.forms window ended.1.form }, ended.2)

def setTab (s : ConnectApp Contents ω) (window : ω) (tabId : TabId) (tab : Option TabLink) : ConnectApp Contents ω :=
  { s with tabs := Function.update s.tabs window (Function.update (s.tabs window) tabId tab) }

def updateTab (s : ConnectApp Contents ω) (window : ω) (tabId : TabId) (f : TabLink → TabLink) : ConnectApp Contents ω :=
  s.setTab window tabId ((s.tabs window tabId).map f)

def connectionKey (s : ConnectApp Contents ω) (settings : ConnectionSettings) (profileId : Option ProfileId) : ConnectionKey :=
  .new settings (((profileId.bind (s.store.authFingerprint hash)).map .saved).getD (.ephemeral ⟨s.nextSessionId⟩))

def connectWith (s : ConnectApp Contents ω) (window : ω) (settings : ConnectionSettings) (profileId : Option ProfileId)
    (sent : Bool) : ConnectApp Contents ω × Option Connected :=
  match s.activeTab window with
  | none => (s, none)
  | some (tabId, tab) =>
    if tab.inFlight then (s, none)
    else if sent then
      ({ s with nextSessionId := s.nextSessionId + 1 }.updateTab window tabId fun tab =>
          { tab with profileId := profileId, connectionSettings := some settings, inFlight := true },
        some ⟨s.connectionKey hash settings profileId, settings⟩)
    else ({ s with nextSessionId := s.nextSessionId + 1 }, none)

def openConnectForm (s : ConnectApp Contents ω) (window : ω) : ConnectApp Contents ω :=
  let tab := (s.activeTab window).map Prod.snd
  (s.onForm home window (.openConnectForm (tab.bind TabLink.connectionSettings) (tab.bind TabLink.restoredTarget))).1

def call (s : ConnectApp Contents ω) (window : ω) (call : ProfileCall) (faults : ProfileFaults) : ConnectApp Contents ω :=
  let ended := call.runWith codec faults s.world
  let after := { s with world := ended.1 }
  match call, ended.2 with
  | .delete profileId, .ok (.deleted outcome) =>
    if outcome.deleted then
      { after with tabs := Function.update s.tabs window fun tabId => (s.tabs window tabId).map (TabLink.forget profileId) }
    else after
  | _, _ => after

def useProfile (s : ConnectApp Contents ω) (window : ω) (profileId : ProfileId) (select : Bool) (unreadable : SecretRef → Bool) :
    ConnectApp Contents ω :=
  let load : SecretRef → Option String := fun secretRef => if unreadable secretRef then none else s.world.keychain secretRef
  let loaded := s.store.loadConnectionSettings load profileId
  (s.onForm home window (if select then .selectConnectProfile profileId loaded else .useProfile profileId loaded)).1

/-- A recent connection fills the form of the window, and says whether the form is to be submitted. -/
def fillRecent (s : ConnectApp Contents ω) (window : ω) (target : RestoredTabTarget) (unreadable : SecretRef → Bool) :
    ConnectApp Contents ω × Bool :=
  let recalled : ConnectApp Contents ω :=
    match s.active window with
    | none => s
    | some tabId =>
      s.updateTab window tabId fun tab => { tab with profileId := target.profileId, restoredTarget := some target }
  match target.profileId.filter fun profileId => (s.store.findProfile profileId).isSome with
  | some profileId =>
    let filled := recalled.useProfile home window profileId false unreadable
    (filled, (filled.forms window).any (ConnectForm.canAutoConnect home))
  | none => (recalled.openConnectForm home window, false)

/-- What a submission of the form connects with, if it does. -/
def submits (s : ConnectApp Contents ω) (window : ω) (op : FormOp) (sent : Bool) :
    Option (ConnectionSettings × Option ProfileId) := do
  let (_, tab) ← s.activeTab window
  let submission ← (s.onForm home window op).2
  if tab.inFlight ∨ sent = false then none else some (submission.settings, submission.profileId)

def sendForm (s : ConnectApp Contents ω) (window : ω) (op : FormOp) (sent : Bool) : ConnectApp Contents ω × Option Connected :=
  let ended := s.onForm home window op
  match ended.2 with
  | some submission => ended.1.connectWith hash window submission.settings submission.profileId sent
  | none => (ended.1, none)

/-- What the step connects with, if it connects. -/
def attempt (s : ConnectApp Contents ω) (op : ConnectAppOp ω) : Option (ConnectionSettings × Option ProfileId) :=
  match op with
  | .form window op sent => if op.own then s.submits home window op sent else none
  | .requestConnect window sent => do
    let (_, tab) ← s.activeTab window
    let settings ← tab.connectionSettings
    if tab.inFlight ∨ sent = false then none else some (settings, tab.profileId)
  | .openRecentConnection window target unreadable sent =>
    let filled := s.fillRecent home window target unreadable
    if filled.2 then filled.1.submits home window .submit sent else none
  | _ => none

def step (s : ConnectApp Contents ω) (op : ConnectAppOp ω) : ConnectApp Contents ω × Option Connected :=
  match op with
  | .call window call faults => (s.call codec window call faults, none)
  | .openTab window tabId restored =>
    (s.setTab window tabId (some { restoredTarget := restored }), none)
  | .activate window tabId => ({ s with active := Function.update s.active window (some tabId) }, none)
  | .settled window tabId => (s.updateTab window tabId ({ · with inFlight := false }), none)
  | .disconnected window tabId shown => (s.updateTab window tabId (TabLink.disconnect shown), none)
  | .openConnectForm window => (s.openConnectForm home window, none)
  | .useProfile window profileId select unreadable => (s.useProfile home window profileId select unreadable, none)
  | .form window op sent => if op.own then s.sendForm home hash window op sent else (s, none)
  | .requestConnect window sent =>
    match s.activeTab window with
    | none => (s, none)
    | some (_, tab) =>
      if tab.inFlight then (s, none)
      else
        match tab.connectionSettings with
        | some settings => s.connectWith hash window settings tab.profileId sent
        | none => (s.openConnectForm home window, none)
  | .openRecentConnection window target unreadable sent =>
    let filled := s.fillRecent home window target unreadable
    if filled.2 then filled.1.sendForm home hash window .submit sent else (filled.1, none)

def machine : Machine (ConnectApp Contents ω) (ConnectAppOp ω) (Option Connected) := ⟨step codec home hash⟩

end ConnectApp

end Forms

end MacSftp
