import MacSftp.Forms.Connecting
import MacSftp.Storage.Revisions

namespace MacSftp.Forms

open Lib ProfileStore

variable {Contents ω : Type} {codec : ProfilesCodec Contents} {home : Option (List Char)} {hash : List Char → String}
    {path : String}

theorem loadAuth_congr {load load' : SecretRef → Option String} {auth : AuthMethod}
    (same : ∀ r ∈ secretRefsForAuth auth, load r = load' r) : loadAuth load auth = loadAuth load' auth := by
  cases auth with
  | password r => simp only [loadAuth, same r (List.mem_singleton_self r)]
  | privateKey keyPath hasPassphrase passphraseRef =>
    cases passphraseRef with
    | none => rfl
    | some r => simp only [loadAuth, same r (List.mem_singleton_self r)]
  | keyboardInteractive => rfl
  | sshAgent socketPath => rfl

/-- What the form of a saved profile sends when it is submitted as it is filled. -/
def ownSettings (home : Option (List Char)) (w : ProfileWorld Contents Unit) (profileId : ProfileId) :
    Option ConnectionSettings := do
  let profile ← (w.stores ()).findProfile profileId
  let form :=
    match (w.stores ()).loadConnectionSettings w.keychain profileId with
    | some settings => ConnectForm.restore (.fromProfile profile) settings
    | none => .fromProfile profile
  (form.buildSettings home).toOption

section Worlds

variable {w w' : ProfileWorld Contents Unit}

theorem record_same (current : StoreCurrent codec path w) (later : ProfileWorld.Later w w') {profileId : ProfileId}
    {profile profile' : ConnectionProfile} (found : (w.stores ()).findProfile profileId = some profile)
    (found' : (w'.stores ()).findProfile profileId = some profile') (revisions : profile.revision = profile'.revision) :
    profile' = profile ∧ ∀ r ∈ secretRefsForAuth profile.auth, w'.keychain r = w.keychain r := by
  have same := later.same (ProfileWorld.find_records.mpr ⟨profile, found, rfl⟩)
    (ProfileWorld.find_records.mpr ⟨profile', found', rfl⟩) revisions
  obtain ⟨profiles, secrets⟩ := Prod.mk.inj same
  refine ⟨profiles, fun r mem => ?_⟩
  obtain ⟨stored, rfl⟩ := ProfilesFile.findProfile_some found
  obtain ⟨kind, rfl⟩ := (fresh_valid current.fresh).owns profile stored r mem
  exact congrFun secrets kind

theorem profileFingerprint_names (hash : List Char → String) (profileId : ProfileId) (profile : ConnectionProfile) :
    (profileFingerprint hash profileId profile).savedProfileId = some profileId ∧
      (profileFingerprint hash profileId profile).profileRevision = profile.revision := by
  unfold profileFingerprint
  split <;> exact ⟨rfl, rfl⟩

theorem authFingerprint_some {store : ProfileStore} {profileId : ProfileId} {fingerprint : AuthFingerprint}
    (h : store.authFingerprint hash profileId = some fingerprint) :
    ∃ profile, store.findProfile profileId = some profile ∧ fingerprint.savedProfileId = some profileId ∧
      fingerprint.profileRevision = profile.revision ∧ ∀ jumpId, profile.route = .jumpHost jumpId →
        ∃ jump, store.findProfile jumpId = some jump ∧ fingerprint.jumpProfileRevision = some (jumpId, jump.revision) := by
  obtain ⟨profile, found, h⟩ := Option.bind_eq_some_iff.mp h
  obtain ⟨named, revision⟩ := profileFingerprint_names hash profileId profile
  refine ⟨profile, found, ?_⟩
  cases route : profile.route with
  | direct =>
    rw [route] at h
    cases h
    exact ⟨named, revision, fun _ never => by cases never⟩
  | proxyCommand command =>
    rw [route] at h
    cases h
    exact ⟨named, revision, fun _ never => by cases never⟩
  | jumpHost jumpId =>
    rw [route] at h
    obtain ⟨jump, foundJump, h⟩ := Option.bind_eq_some_iff.mp h
    cases h
    refine ⟨named, revision, ?_⟩
    rintro _ ⟨⟩
    exact ⟨jump, foundJump, rfl⟩

theorem loadConnectionSettings_congr {profileId : ProfileId} {profile : ConnectionProfile}
    (found : (w.stores ()).findProfile profileId = some profile) (found' : (w'.stores ()).findProfile profileId = some profile)
    (secrets : ∀ r ∈ secretRefsForAuth profile.auth, w'.keychain r = w.keychain r)
    (jumps : ∀ jumpId, profile.route = .jumpHost jumpId → ∃ jump, (w.stores ()).findProfile jumpId = some jump ∧
      (w'.stores ()).findProfile jumpId = some jump ∧ ∀ r ∈ secretRefsForAuth jump.auth, w'.keychain r = w.keychain r) :
    (w'.stores ()).loadConnectionSettings w'.keychain profileId = (w.stores ()).loadConnectionSettings w.keychain profileId := by
  simp only [loadConnectionSettings, found, found', loadAuth_congr secrets, Option.bind_eq_bind, Option.bind_some]
  cases route : profile.route with
  | direct => rfl
  | proxyCommand command => rfl
  | jumpHost jumpId =>
    obtain ⟨jump, foundJump, foundJump', secrets⟩ := jumps jumpId route
    simp only [foundJump, foundJump', loadAuth_congr secrets, Option.bind_some]

theorem fingerprint_settings (current : StoreCurrent codec path w) (later : ProfileWorld.Later w w')
    {profileId profileId' : ProfileId}
    {fingerprint : AuthFingerprint} (saved : (w.stores ()).authFingerprint hash profileId = some fingerprint)
    (saved' : (w'.stores ()).authFingerprint hash profileId' = some fingerprint) :
    ownSettings home w profileId = ownSettings home w' profileId' := by
  obtain ⟨profile, found, named, revision, jumps⟩ := authFingerprint_some saved
  obtain ⟨profile', found', named', revision', jumps'⟩ := authFingerprint_some saved'
  rw [named] at named'
  cases named'
  obtain ⟨rfl, secrets⟩ := record_same current later found found' (revision.symm.trans revision')
  have loaded := loadConnectionSettings_congr found found' secrets fun jumpId route => by
    obtain ⟨jump, foundJump, version⟩ := jumps jumpId route
    obtain ⟨jump', foundJump', version'⟩ := jumps' jumpId route
    rw [version] at version'
    obtain ⟨_, revisions⟩ := Prod.mk.inj (Option.some.inj version')
    obtain ⟨rfl, secrets⟩ := record_same current later foundJump foundJump' revisions
    exact ⟨_, foundJump, foundJump', secrets⟩
  simp only [ownSettings, found, found', loaded]

end Worlds

theorem runWith_later {call : ProfileCall} {faults : ProfileFaults} {w : ProfileWorld Contents Unit}
    (current : StoreCurrent codec path w)
    (room : ∀ request, call = .save request → request.profileId.raw + 1 < 2 ^ 64)
    (rolled : ∀ storage rollback, (call.runWith codec faults w).2 ≠ .error (.storageRollback storage rollback)) :
    StoreCurrent codec path (call.runWith codec faults w).1 ∧ ProfileWorld.Later w (call.runWith codec faults w).1 := by
  have ran : call.program.Run Eq (ProfileOp.Does codec ()) w _ (call.runWith codec faults w).1 (call.runWith codec faults w).2 :=
    Program.play_run (fun _ => rfl) (ProfileOp.replyWith_does codec faults) call.program w
  have safe : call.program.Safe Eq (ProfileOp.Does codec ()) (fun _ => True) (fun result w' => ∃ b c, w = b ∧
      CallEffect codec () (ProfileOp.Does codec ()) call result b c ∧ c = w') w :=
    safe_call (fun _ => rfl) call (fun profileId _ => undisturbed_alone profileId) (fun _ _ _ _ does => does)
      (fun _ _ _ _ _ _ => trivial) (fresh_valid current.fresh)
  obtain ⟨_, b, c, rfl, effect, ended⟩ := Program.Safe.run ran safe
  rw [ended] at effect
  exact call_later current effect room rolled

namespace ConnectApp

variable [DecidableEq ω] (codec home)

/-- A connect under the identity of a saved profile carries what the profile and the Keychain hold at that moment, saves do not
use up the ids, and no failed rollback leaves a secret behind. -/
def Backed (s : ConnectApp Contents ω) (op : ConnectAppOp ω) : Prop :=
  match op with
  | .call _ call faults => (∀ request, call = .save request → request.profileId.raw + 1 < 2 ^ 64) ∧
      ∀ storage rollback, (call.runWith codec faults s.world).2 ≠ .error (.storageRollback storage rollback)
  | op => ∀ settings profileId, s.attempt home op = some (settings, some profileId) → s.store.findProfile profileId ≠ none →
      ownSettings home s.world profileId = some settings

variable {codec home} {s : ConnectApp Contents ω} {op : ConnectAppOp ω}

theorem connectWith_world (window : ω) (settings : ConnectionSettings) (profileId : Option ProfileId) (sent : Bool) :
    (s.connectWith hash window settings profileId sent).1.world = s.world ∧
      s.nextSessionId ≤ (s.connectWith hash window settings profileId sent).1.nextSessionId := by
  unfold connectWith
  repeat' split
  all_goals exact ⟨rfl, by simp [updateTab, setTab]⟩

theorem connectWith_out {window : ω} {settings : ConnectionSettings} {profileId : Option ProfileId} {sent : Bool}
    {connected : Connected}
    (out : (s.connectWith hash window settings profileId sent).2 = some connected) :
    (∃ tabId tab, s.activeTab window = some (tabId, tab) ∧ ¬(tab.inFlight ∨ sent = false)) ∧
      connected = ⟨s.connectionKey hash settings profileId, settings⟩ ∧
      (s.connectWith hash window settings profileId sent).1.nextSessionId = s.nextSessionId + 1 := by
  unfold connectWith at out ⊢
  split at out
  · cases out
  · rename_i tabId tab active
    split at out
    · cases out
    · split at out
      · rename_i free sent
        cases out
        refine ⟨⟨tabId, tab, active, by simp [free, sent]⟩, rfl, ?_⟩
        rw [if_neg free, if_pos sent]
        rfl
      · cases out

theorem sendForm_world (window : ω) (op : FormOp) (sent : Bool) :
    (s.sendForm home hash window op sent).1.world = s.world ∧
      s.nextSessionId ≤ (s.sendForm home hash window op sent).1.nextSessionId := by
  unfold sendForm
  dsimp only
  split
  · exact connectWith_world window _ _ sent
  · exact ⟨rfl, Nat.le_refl _⟩

theorem sendForm_out {window : ω} {op : FormOp} {sent : Bool} {connected : Connected}
    (out : (s.sendForm home hash window op sent).2 = some connected) :
    ∃ profileId, s.submits home window op sent = some (connected.settings, profileId) ∧
      connected.key = s.connectionKey hash connected.settings profileId ∧
      (s.sendForm home hash window op sent).1.nextSessionId = s.nextSessionId + 1 := by
  unfold sendForm at out ⊢
  dsimp only at out ⊢
  split at out
  · rename_i submission submitted
    obtain ⟨⟨tabId, tab, active, free⟩, rfl, moved⟩ := connectWith_out out
    refine ⟨submission.profileId, ?_, rfl, moved⟩
    have active : s.activeTab window = some (tabId, tab) := active
    simp only [submits, active, submitted, free, if_false, Option.bind_eq_bind, Option.bind_some]
  · cases out

theorem fillRecent_kept (home : Option (List Char)) (s : ConnectApp Contents ω) (window : ω) (target : RestoredTabTarget)
    (unreadable : SecretRef → Bool) : (s.fillRecent home window target unreadable).1.world = s.world ∧
      (s.fillRecent home window target unreadable).1.nextSessionId = s.nextSessionId := by
  unfold fillRecent
  cases s.active window <;> dsimp only <;> split <;> exact ⟨rfl, rfl⟩

omit [DecidableEq ω] in
theorem connectionKey_congr {t : ConnectApp Contents ω} (world : t.world = s.world) (session : t.nextSessionId = s.nextSessionId)
    (settings : ConnectionSettings) (profileId : Option ProfileId) :
    t.connectionKey hash settings profileId = s.connectionKey hash settings profileId := by
  rw [connectionKey, connectionKey, store, store, world, session]

theorem call_world (window : ω) (call : ProfileCall) (faults : ProfileFaults) :
    (s.call codec window call faults).world = (call.runWith codec faults s.world).1 ∧
      (s.call codec window call faults).nextSessionId = s.nextSessionId := by
  unfold ConnectApp.call
  dsimp only
  split
  · split <;> exact ⟨rfl, rfl⟩
  · exact ⟨rfl, rfl⟩

theorem step_world (codec : ProfilesCodec Contents) (home : Option (List Char)) (hash : List Char → String)
    (s : ConnectApp Contents ω)
    (op : ConnectAppOp ω) :
    (∃ window call faults, op = .call window call faults ∧
      (s.step codec home hash op).1.world = (call.runWith codec faults s.world).1 ∧
        (s.step codec home hash op).2 = none ∧ (s.step codec home hash op).1.nextSessionId = s.nextSessionId) ∨
      (∀ window call faults, op ≠ .call window call faults) ∧ (s.step codec home hash op).1.world = s.world ∧
        s.nextSessionId ≤ (s.step codec home hash op).1.nextSessionId := by
  cases op with
  | call window call faults =>
    obtain ⟨world, sessions⟩ := call_world window call faults
    exact Or.inl ⟨window, call, faults, rfl, world, rfl, sessions⟩
  | form window op sent =>
    refine Or.inr ⟨fun _ _ _ never => (by cases never), ?_⟩
    simp only [step]
    split
    · exact sendForm_world window op sent
    · exact ⟨rfl, Nat.le_refl _⟩
  | openRecentConnection window target unreadable sent =>
    refine Or.inr ⟨fun _ _ _ never => (by cases never), ?_⟩
    obtain ⟨world, session⟩ := fillRecent_kept home s window target unreadable
    simp only [step]
    rw [← world, ← session]
    split
    · exact sendForm_world window _ sent
    · exact ⟨rfl, Nat.le_refl _⟩
  | requestConnect window sent =>
    refine Or.inr ⟨fun _ _ _ never => (by cases never), ?_⟩
    simp only [step]
    split
    · exact ⟨rfl, Nat.le_refl _⟩
    · split
      · exact ⟨rfl, Nat.le_refl _⟩
      · split
        · exact connectWith_world window _ _ sent
        · exact ⟨rfl, Nat.le_refl _⟩
  | _ => exact Or.inr ⟨fun _ _ _ never => (by cases never), rfl, Nat.le_refl _⟩

theorem step_out {connected : Connected} (out : (s.step codec home hash op).2 = some connected) :
    ∃ profileId, s.attempt home op = some (connected.settings, profileId) ∧
      connected.key = s.connectionKey hash connected.settings profileId ∧
      (s.step codec home hash op).1.nextSessionId = s.nextSessionId + 1 := by
  cases op with
  | form window op sent =>
    simp only [step] at out ⊢
    split at out
    · rename_i own
      rw [if_pos own]
      obtain ⟨profileId, submitted, its⟩ := sendForm_out out
      exact ⟨profileId, (if_pos own).trans submitted, its⟩
    · cases out
  | openRecentConnection window target unreadable sent =>
    obtain ⟨world, session⟩ := fillRecent_kept home s window target unreadable
    simp only [step] at out ⊢
    split at out
    · rename_i ready
      rw [if_pos ready]
      obtain ⟨profileId, submitted, key, moved⟩ := sendForm_out out
      rw [connectionKey_congr world session] at key
      exact ⟨profileId, (if_pos ready).trans submitted, key, moved.trans (congrArg Nat.succ session)⟩
    · cases out
  | requestConnect window sent =>
    simp only [step] at out ⊢
    split at out
    · cases out
    · rename_i tabId tab active
      split at out
      · cases out
      · rename_i free
        split at out
        · rename_i settings cached
          obtain ⟨⟨tabId', tab', active', free'⟩, rfl, moved⟩ := connectWith_out out
          rw [active] at active'
          cases active'
          refine ⟨tab.profileId, ?_, rfl, ?_⟩
          · simp only [attempt, active, cached, free', if_false, Option.bind_eq_bind, Option.bind_some]
          · rw [if_neg free]
            exact moved
        · cases out
  | _ => cases out

/-- What has been connected in a run. -/
def connects (log : List (ConnectAppOp ω × Option Connected)) : List Connected := log.filterMap Prod.snd

/-- What is known of a past connect: its session has been used up, or it was sent when its profile said so. -/
inductive Known (codec : ProfilesCodec Contents) (home : Option (List Char)) (hash : List Char → String) (path : String)
    (s : ConnectApp Contents ω) (connected : Connected) : Prop
  | ephemeral (session : SessionId) : connected.key.identity = .ephemeral session → session.raw < s.nextSessionId →
      Known codec home hash path s connected
  | saved {w : ProfileWorld Contents Unit} {profileId : ProfileId} {fingerprint : AuthFingerprint} : StoreCurrent codec path w →
      connected.key.identity = .saved fingerprint → (w.stores ()).authFingerprint hash profileId = some fingerprint →
      ownSettings home w profileId = some connected.settings → w.Later s.world → Known codec home hash path s connected

structure Sound (codec : ProfilesCodec Contents) (home : Option (List Char)) (hash : List Char → String) (path : String)
    (past : List (ConnectAppOp ω × Option Connected)) (s : ConnectApp Contents ω) : Prop where
  current : StoreCurrent codec path s.world
  known : ∀ connected ∈ connects past, Known codec home hash path s connected
  reused : ∀ a ∈ connects past, ∀ b ∈ connects past, a.key = b.key → a.settings = b.settings

section Step

variable {past : List (ConnectAppOp ω × Option Connected)}

omit [DecidableEq ω] in
theorem Known.later {s' : ConnectApp Contents ω} {connected : Connected} (known : Known codec home hash path s connected)
    (world : s.world.Later s'.world) (sessions : s.nextSessionId ≤ s'.nextSessionId) : Known codec home hash path s' connected := by
  cases known with
  | ephemeral session identity spent => exact .ephemeral session identity (Nat.lt_of_lt_of_le spent sessions)
  | saved current identity fingerprint own later =>
    exact .saved current identity fingerprint own (later.trans (ProfileWorld.records_marked current.sound) world)

theorem known_new (backed : s.Backed codec home op) {connected : Connected}
    (out : (s.step codec home hash op).2 = some connected) :
    connected.key.identity = .ephemeral ⟨s.nextSessionId⟩ ∨ ∃ profileId fingerprint, connected.key.identity = .saved fingerprint ∧
      s.store.authFingerprint hash profileId = some fingerprint ∧ ownSettings home s.world profileId = some connected.settings := by
  obtain ⟨profileId, attempted, key, _⟩ := step_out out
  rw [key]
  cases named : profileId with
  | none => exact Or.inl rfl
  | some profileId =>
    subst named
    cases fingerprinted : s.store.authFingerprint hash profileId with
    | none =>
      left
      simp only [connectionKey, ConnectionKey.new, Option.bind_some, fingerprinted, Option.map_none, Option.getD_none]
    | some fingerprint =>
      refine Or.inr ⟨profileId, fingerprint, ?_, fingerprinted, ?_⟩
      · simp only [connectionKey, ConnectionKey.new, Option.bind_some, fingerprinted, Option.map_some, Option.getD_some]
      · obtain ⟨profile, found, _⟩ := authFingerprint_some fingerprinted
        cases op with
        | call => cases out
        | _ => exact backed connected.settings profileId attempted (by rw [found]; simp)

theorem known_again {connected connected' : Connected} (known : Known codec home hash path s connected)
    (backed : s.Backed codec home op) (out : (s.step codec home hash op).2 = some connected')
    (same : connected.key = connected'.key) :
    connected.settings = connected'.settings := by
  have identities : connected.key.identity = connected'.key.identity := by rw [same]
  rcases known_new backed out with fresh | ⟨profileId', fingerprint', identity', saved', own'⟩
  · cases known with
    | ephemeral session identity spent =>
      rw [identity, fresh] at identities
      cases identities
      exact absurd spent (Nat.lt_irrefl _)
    | saved _ identity =>
      rw [identity, fresh] at identities
      cases identities
  · cases known with
    | ephemeral session identity spent =>
      rw [identity, identity'] at identities
      cases identities
    | saved older identity saved own later =>
      rw [identity, identity'] at identities
      cases identities
      rw [fingerprint_settings older later saved saved', own'] at own
      exact (Option.some.inj own).symm

theorem step_later (hash : List Char → String) (current : StoreCurrent codec path s.world) (backed : s.Backed codec home op) :
    StoreCurrent codec path (s.step codec home hash op).1.world ∧ s.world.Later (s.step codec home hash op).1.world ∧
      s.nextSessionId ≤ (s.step codec home hash op).1.nextSessionId := by
  rcases step_world codec home hash s op with
    ⟨window, call, faults, rfl, world, _, sessions⟩ | ⟨_, world, sessions⟩
  · obtain ⟨room, rolled⟩ := backed
    obtain ⟨current, later⟩ := runWith_later current room rolled
    rw [world]
    exact ⟨current, later, sessions.ge⟩
  · rw [world]
    exact ⟨current, .refl _, sessions⟩

omit [DecidableEq ω] in
theorem connects_concat (op : ConnectAppOp ω) (out : Option Connected) :
    connects (past ++ [(op, out)]) = connects past ++ out.toList := by
  rw [connects, List.filterMap_append]
  cases out <;> rfl

theorem sound_step (sound : Sound codec home hash path past s) (backed : s.Backed codec home op) :
    Sound codec home hash path (past ++ [(op, (s.step codec home hash op).2)]) (s.step codec home hash op).1 := by
  obtain ⟨current, later, sessions⟩ := step_later hash sound.current backed
  have old : ∀ connected ∈ connects past, Known codec home hash path (s.step codec home hash op).1 connected :=
    fun connected mem => (sound.known connected mem).later later sessions
  cases out : (s.step codec home hash op).2 with
  | none =>
    refine ⟨current, ?_, ?_⟩
    all_goals rw [connects_concat, Option.toList_none, List.append_nil]
    · exact old
    · exact sound.reused
  | some connected =>
    have again : ∀ a ∈ connects past, a.key = connected.key → a.settings = connected.settings :=
      fun a mem => known_again (sound.known a mem) backed out
    refine ⟨current, ?_, ?_⟩
    all_goals rw [connects_concat, Option.toList_some]
    · intro a mem
      rcases List.mem_append.mp mem with before | last
      · exact old a before
      · obtain rfl := List.mem_singleton.mp last
        obtain ⟨_, _, _, moved⟩ := step_out out
        rcases known_new backed out with fresh | ⟨profileId, fingerprint, identity, saved, own⟩
        · exact .ephemeral _ fresh (by rw [moved]; exact Nat.lt_succ_self _)
        · exact .saved sound.current identity saved own later
    · intro a memA b memB same
      rcases List.mem_append.mp memA with beforeA | lastA
      · rcases List.mem_append.mp memB with beforeB | lastB
        · exact sound.reused a beforeA b beforeB same
        · obtain rfl := List.mem_singleton.mp lastB
          exact again a beforeA same
      · obtain rfl := List.mem_singleton.mp lastA
        rcases List.mem_append.mp memB with beforeB | lastB
        · exact (again b beforeB same.symm).symm
        · obtain rfl := List.mem_singleton.mp lastB
          rfl

end Step

variable (codec) in
/-- A process that has just opened its profile store. -/
def start (path : String) (disk : Option Contents) (keychain : SecretRef → Option String) : ConnectApp Contents ω where
  world := .opened codec path disk keychain

/-- While every connect under a saved profile's identity carries what the profile and the Keychain hold at that moment, connects
with equal keys have equal settings. -/
theorem equal_keys_connect_alike (codec : ProfilesCodec Contents) (home : Option (List Char)) (hash : List Char → String)
    (path : String)
    (disk : Option Contents) (keychain : SecretRef → Option String)
    (marked : ∀ file, ProfilesFile.load codec disk = .ok file → file.Sound)
    (ops : List (ConnectAppOp ω))
    (backed : (machine codec home hash).Admissible (Backed codec home) (start codec path disk keychain) ops) :
    ∀ a ∈ connects ((machine codec home hash).log (start codec path disk keychain) ops),
      ∀ b ∈ connects ((machine codec home hash).log (start codec path disk keychain) ops), a.key = b.key →
        a.settings = b.settings := by
  have opened : ((start codec path disk keychain : ConnectApp Contents ω).world.stores ()).profiles.Sound := by
    change (openOrEmpty codec path disk).profiles.Sound
    unfold openOrEmpty
    split
    · exact marked _ ‹_›
    · exact new_sound
  have initially : Sound codec home hash path [] (start codec path disk keychain : ConnectApp Contents ω) :=
    ⟨⟨rfl, opened⟩, fun _ never => absurd never List.not_mem_nil, fun _ never => absurd never List.not_mem_nil⟩
  have sound := (machine codec home hash).admissible_log_invariant (I := Sound codec home hash path)
    (fun _ _ _ backed sound => sound_step sound backed) initially ops backed
  exact sound.reused

def agentSave : ProfileSaveRequest := ⟨⟨1⟩, "One", "host", 22, "user", .sshAgent none, .direct, none⟩

def agentApp : ConnectApp ProfilesFile Unit := start .plain "profiles.json" none (fun _ => none)

/-- A saved profile is used in two tabs, and submitted in the first. -/
def twoTabs : List (ConnectAppOp Unit) :=
  [.call () (.save agentSave) {}, .openTab () ⟨1⟩ none, .activate () ⟨1⟩, .useProfile () ⟨1⟩ false (fun _ => false),
    .form () .submit true, .openTab () ⟨2⟩ none, .activate () ⟨2⟩, .useProfile () ⟨1⟩ false (fun _ => false)]

/-- What the form of the profile sends. -/
def agentSettings : ConnectionSettings := ⟨"host", 22, "user", .sshAgent none, .direct⟩

theorem untouched_tabs_alike :
    (connects ((machine .plain none String.ofList).log agentApp (twoTabs ++ [.form () .submit true]))).length = 2 ∧
      ∀ a ∈ connects ((machine .plain none String.ofList).log agentApp (twoTabs ++ [.form () .submit true])),
        ∀ b ∈ connects ((machine .plain none String.ofList).log agentApp (twoTabs ++ [.form () .submit true])),
          a.key = b.key → a.settings = b.settings := by
  refine ⟨by decide +kernel, equal_keys_connect_alike .plain none String.ofList "profiles.json" none (fun _ => none) ?_ _ ?_⟩
  · rintro file ⟨⟩
    exact new_sound
  have submits : ∀ s : ConnectApp ProfilesFile Unit, s.attempt none (.form () .submit true) = some (agentSettings, some ⟨1⟩) →
      ownSettings none s.world ⟨1⟩ = some agentSettings → s.Backed .plain none (.form () .submit true) := by
    intro s attempts own settings profileId attempted _
    rw [attempts] at attempted
    cases attempted
    exact own
  refine ⟨⟨?_, ?_⟩, ?_, ?_, ?_, submits _ rfl rfl, ?_, ?_, ?_, submits _ rfl rfl, trivial⟩
  · rintro _ ⟨⟩
    decide
  · intro storage rollback failed
    have saved : (ProfileCall.runWith .plain (.save agentSave) {} agentApp.world).2.toOption ≠ none := by decide +kernel
    change (ProfileCall.runWith .plain (.save agentSave) {} agentApp.world).2 = _ at failed
    rw [failed] at saved
    exact saved rfl
  all_goals
    intro settings profileId never
    cases never

theorem edited_socket_shares_key :
    ¬∀ a ∈ connects ((machine .plain none String.ofList).log agentApp
        (twoTabs ++ [.form () (.change .agentSocket "/other".toList) true, .form () .submit true])),
      ∀ b ∈ connects ((machine .plain none String.ofList).log agentApp
        (twoTabs ++ [.form () (.change .agentSocket "/other".toList) true, .form () .submit true])),
        a.key = b.key → a.settings.auth = b.settings.auth := by
  decide +kernel

end ConnectApp

end MacSftp.Forms
