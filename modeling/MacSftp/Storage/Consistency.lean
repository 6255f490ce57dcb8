import MacSftp.Storage.Calls

namespace MacSftp

open Lib ProfileStore

variable {Contents : Type} (codec : ProfilesCodec Contents)

/-- Some profile of the file on disk refers to the secret. -/
def Referenced (disk : Option Contents) (r : SecretRef) : Prop :=
  ∃ file, ProfilesFile.load codec disk = .ok file ∧ ∃ profile ∈ file.profiles, r ∈ secretRefsForAuth profile.auth

def SecretsKept (w : ProfileWorld Contents Unit) : Prop := ∀ r, Referenced codec w.disk r → w.keychain r ≠ none

/-- What the store has in memory is what a store opened on the file now would have. -/
def Fresh (path : String) (w : ProfileWorld Contents Unit) : Prop := w.stores () = .openOrEmpty codec path w.disk

/-- The answer tells that the Keychain may keep a secret too many. -/
def Warned : Except ProfileMutationError ProfileAnswer → Prop
  | .ok (.saved outcome) => ∃ error, .keychain error ∈ outcome.cleanupWarnings
  | .ok (.deleted outcome) => outcome.cleanupWarnings ≠ []
  | .error (.storageRollback _ _) => True
  | _ => False

section Steps

variable {codec} {path : String} {w : ProfileWorld Contents Unit}

theorem fresh_loaded (fresh : Fresh codec path w) {file : ProfilesFile} (loaded : ProfilesFile.load codec w.disk = .ok file) :
    w.stores () = ⟨path, file, none⟩ := by
  rw [fresh, openOrEmpty, loaded]

theorem fresh_valid (fresh : Fresh codec path w) : (w.stores ()).profiles.Valid := by
  rw [fresh]
  exact opened_valid

theorem fresh_find (fresh : Fresh codec path w) {file : ProfilesFile} (loaded : ProfilesFile.load codec w.disk = .ok file) :
    (w.stores ()).findProfile = file.findProfile := by
  rw [fresh_loaded fresh loaded]
  rfl

theorem referenced_entry {disk : Option Contents} {file : ProfilesFile} (loaded : ProfilesFile.load codec disk = .ok file)
    {r : SecretRef} :
    Referenced codec disk r ↔ ∃ profileId profile, file.findProfile profileId = some profile ∧
      r ∈ secretRefsForAuth profile.auth := by
  constructor
  · rintro ⟨file', loaded', profile, stored, mem⟩
    rw [loaded] at loaded'
    cases loaded'
    exact ⟨profile.id, profile, (ProfilesFile.load_loaded loaded).valid.find stored, mem⟩
  · rintro ⟨profileId, profile, found, mem⟩
    exact ⟨file, loaded, profile, (ProfilesFile.findProfile_some found).1, mem⟩

theorem referenced_change {disk disk' : Option Contents} {file file' : ProfilesFile} {profileId : ProfileId}
    (loaded : ProfilesFile.load codec disk = .ok file) (loaded' : ProfilesFile.load codec disk' = .ok file')
    (others : ∀ other, other ≠ profileId → file'.findProfile other = file.findProfile other) {r : SecretRef} :
    Referenced codec disk' r ↔ (∃ profile, file'.findProfile profileId = some profile ∧ r ∈ secretRefsForAuth profile.auth) ∨
      Referenced codec disk r ∧ ¬Owns profileId r := by
  rw [referenced_entry loaded', referenced_entry loaded]
  have owned : ∀ {f : ProfilesFile} {other : ProfileId} {profile : ConnectionProfile}, f.Valid →
    f.findProfile other = some profile →
      r ∈ secretRefsForAuth profile.auth → Owns other r := by
    intro f other profile valid found mem
    obtain ⟨stored, rfl⟩ := ProfilesFile.findProfile_some found
    exact valid.owns profile stored r mem
  constructor
  · rintro ⟨other, profile, found, mem⟩
    by_cases same : other = profileId
    · subst same
      exact Or.inl ⟨profile, found, mem⟩
    · have own := owned (ProfilesFile.load_loaded loaded').valid found mem
      rw [others other same] at found
      exact Or.inr ⟨⟨other, profile, found, mem⟩, fun own' => same (owns_unique own own')⟩
  · rintro (⟨profile, found, mem⟩ | ⟨⟨other, profile, found, mem⟩, foreign⟩)
    · exact ⟨profileId, profile, found, mem⟩
    · have differ : other ≠ profileId := by
        rintro rfl
        exact foreign (owned (ProfilesFile.load_loaded loaded).valid found mem)
      exact ⟨other, profile, (others other differ).trans found, mem⟩

theorem open_fresh (fresh : Fresh codec path w) :
    Fresh codec path (w.setStore () (.openOrEmpty codec (w.stores ()).path w.disk) w.disk) := by
  have samePath : (w.stores ()).path = path := by
    rw [fresh, openOrEmpty]
    split <;> rfl
  rw [Fresh, ProfileWorld.setStore_self, ProfileWorld.setStore_disk, samePath]

theorem commit_fresh (fresh : Fresh codec path w) {transaction : TransactionKind}
    {answer : Except StorageError TransactionOutcome} {store : ProfileStore} {disk : Option Contents}
    (h : Commits codec (w.stores ()) w.disk transaction answer store disk) : Fresh codec path (w.setStore () store disk) := by
  rcases commits_split h with ⟨rfl, rfl, _⟩ | ⟨warnings, rfl⟩
  · rwa [ProfileWorld.setStore_same]
  · obtain ⟨next, changed, loaded, reload, rfl, _⟩ := commits_others h
    rw [Fresh, ProfileWorld.setStore_self, ProfileWorld.setStore_disk, fresh_loaded fresh loaded, openOrEmpty, reload]

theorem commit_secrets (kept : SecretsKept codec w) {transaction : TransactionKind}
    {answer : Except StorageError TransactionOutcome} {store : ProfileStore} {disk : Option Contents}
    (h : Commits codec (w.stores ()) w.disk transaction answer store disk)
    (held : ∀ profile, transaction = .save profile → ∀ r ∈ secretRefsForAuth profile.auth, w.keychain r ≠ none) :
    SecretsKept codec (w.setStore () store disk) := by
  rcases commits_split h with ⟨rfl, rfl, _⟩ | ⟨warnings, rfl⟩
  · rwa [ProfileWorld.setStore_same]
  · obtain ⟨next, changed, loaded, reload, rfl, others⟩ := commits_others h
    intro r referenced
    rcases (referenced_change loaded reload others).mp referenced with ⟨profile, found, mem⟩ | ⟨old, _⟩
    · cases transaction with
      | save request =>
        obtain ⟨_, never, _⟩ | ⟨_, saved, _, stored, auth⟩ := commits_save h
        · cases never
        · have same : saved = profile := Option.some.inj (stored.symm.trans found)
          rw [← same, auth] at mem
          exact held request rfl r mem
      | delete profileId =>
        obtain ⟨file, reload', absent⟩ := commits_delete h
        rw [reload] at reload'
        cases reload'
        exact absurd (absent.symm.trans found) (by simp)
    · exact kept r old

theorem resolved_held (fresh : Fresh codec path w) (kept : SecretsKept codec w) {request : ProfileSaveRequest}
    {resolved : ResolvedProfileAuth} (resolves : resolveAuth request ((w.stores ()).findProfile request.profileId) = .ok resolved)
    {r : SecretRef} (mem : r ∈ secretRefsForAuth resolved.auth) : (w.setUpdate resolved.secretUpdate).keychain r ≠ none := by
  have present : (∃ u, resolved.secretUpdate = some u ∧ u.secretRef = r) ∨ w.keychain r ≠ none := by
    rcases resolveAuth_refs resolves mem with stored | ⟨profile, found, mem'⟩
    · exact Or.inl stored
    · refine Or.inr (kept r ?_)
      cases loaded : ProfilesFile.load codec w.disk with
      | ok file =>
        rw [fresh_find fresh loaded] at found
        exact (referenced_entry loaded).mpr ⟨_, profile, found, mem'⟩
      | error error =>
        rw [fresh, openOrEmpty, loaded] at found
        cases found
  cases update : resolved.secretUpdate with
  | none =>
    rcases present with ⟨u, same, _⟩ | held
    · rw [update] at same
      cases same
    · exact held
  | some u =>
    by_cases same : r = u.secretRef
    · subst same
      simp [ProfileWorld.setUpdate]
    · rcases present with ⟨u', update', same'⟩ | held
      · rw [update] at update'
        cases update'
        exact absurd same'.symm same
      · rw [ProfileWorld.setUpdate, ProfileWorld.setSecret_other _ same]
        exact held

theorem forget_secret (kept : SecretsKept codec w) {profileId : ProfileId} {r : SecretRef} (own : Owns profileId r)
    (free : ∀ profile, w.entry codec profileId = some profile → r ∉ secretRefsForAuth profile.auth) :
    SecretsKept codec (w.setSecret r none) := by
  intro r' referenced
  have differ : r' ≠ r := by
    rintro rfl
    obtain ⟨file, loaded, _⟩ := referenced
    obtain ⟨other, profile, found, mem⟩ := (referenced_entry loaded).mp ⟨file, loaded, ‹_›⟩
    obtain ⟨stored, rfl⟩ := ProfilesFile.findProfile_some found
    have same := owns_unique own ((ProfilesFile.load_loaded loaded).valid.owns profile stored r' mem)
    refine free profile ?_ mem
    rw [same, ← found]
    exact congrFun (ProfileWorld.entry_of_load (w := w) loaded) profile.id
  rw [ProfileWorld.setSecret_other none differ]
  exact kept r' referenced

theorem store_secret (kept : SecretsKept codec w) (r : SecretRef) (secret : String) :
    SecretsKept codec (w.setSecret r (some secret)) := by
  intro r' referenced
  by_cases same : r' = r
  · subst same
    simp
  · rw [ProfileWorld.setSecret_other _ same]
    exact kept r' referenced

theorem puts_keeps {start : ProfileWorld Contents Unit} {profileId : ProfileId} {op : ProfileOp} {answer : op.Ans}
    {w' : ProfileWorld Contents Unit} (puts : Puts codec () Eq profileId start op w) (does : ProfileOp.Does codec () op answer w w')
    (fresh : Fresh codec path w) : Fresh codec path w' ∧
      (SecretsKept codec start → SecretsKept codec w → SecretsKept codec w') := by
  cases puts with
  | store =>
    obtain ⟨_, rfl⟩ := does
    exact ⟨fresh, fun _ kept => kept⟩
  | load =>
    obtain ⟨_, rfl⟩ := does
    exact ⟨fresh, fun _ kept => kept⟩
  | @replace r secret _ own =>
    rcases does with ⟨rfl, rfl⟩ | ⟨_, rfl⟩
    · exact ⟨fresh, fun _ kept => store_secret kept r secret⟩
    · exact ⟨fresh, fun _ kept => kept⟩
  | @rollback r b secret own same =>
    subst same
    rcases does with ⟨rfl, rfl⟩ | ⟨_, rfl⟩
    · rw [ProfileWorld.setSecret_setSecret, ProfileWorld.setSecret_same rfl]
      exact ⟨fresh, fun kept _ => kept⟩
    · exact ⟨fresh, fun _ kept => kept⟩
  | @clean r _ own free =>
    rcases does with ⟨rfl, rfl⟩ | ⟨_, rfl⟩
    · exact ⟨fresh, fun _ kept => forget_secret kept own free⟩
    · exact ⟨fresh, fun _ kept => kept⟩
  | @save request resolved b named same resolves =>
    subst same named
    obtain ⟨store, disk, committed, rfl⟩ := does_commit does
    refine ⟨commit_fresh fresh committed, fun kept kept' => commit_secrets kept' committed ?_⟩
    rintro _ ⟨⟩ r mem
    rw [Fresh, ProfileWorld.setUpdate_stores, ProfileWorld.setUpdate_disk] at fresh
    exact resolved_held fresh kept resolves mem
  | @delete b same found =>
    subst same
    obtain ⟨store, disk, committed, rfl⟩ := does_commit does
    exact ⟨commit_fresh fresh committed, fun _ kept => commit_secrets kept committed (fun profile never => by cases never)⟩

theorem referenced_own {disk : Option Contents} {file : ProfilesFile} (loaded : ProfilesFile.load codec disk = .ok file)
    {profileId : ProfileId} {r : SecretRef} (own : Owns profileId r) (referenced : Referenced codec disk r) :
    ∃ profile, file.findProfile profileId = some profile ∧ r ∈ secretRefsForAuth profile.auth := by
  obtain ⟨other, profile, found, mem⟩ := (referenced_entry loaded).mp referenced
  obtain ⟨stored, rfl⟩ := ProfilesFile.findProfile_some found
  have same := owns_unique own ((ProfilesFile.load_loaded loaded).valid.owns profile stored r mem)
  subst same
  exact ⟨profile, found, mem⟩

theorem left_behind {disk disk' : Option Contents} {file file' : ProfilesFile} {profileId : ProfileId} {gone : List SecretRef}
    (loaded : ProfilesFile.load codec disk = .ok file) (loaded' : ProfilesFile.load codec disk' = .ok file')
    (others : ∀ other, other ≠ profileId → file'.findProfile other = file.findProfile other)
    (cleaned : ∀ profile, file.findProfile profileId = some profile → ∀ r ∈ secretRefsForAuth profile.auth,
      (∀ profile', file'.findProfile profileId = some profile' → r ∉ secretRefsForAuth profile'.auth) → r ∈ gone)
    {r : SecretRef} (unused : ¬Referenced codec disk' r) (left : r ∉ gone) : ¬Referenced codec disk r := by
  intro referenced
  rw [referenced_change loaded loaded' others] at unused
  have own : Owns profileId r := by
    by_contra foreign
    exact unused (Or.inr ⟨referenced, foreign⟩)
  obtain ⟨profile, found, mem⟩ := referenced_own loaded own referenced
  exact left (cleaned profile found r mem fun profile' found' mem' => unused (Or.inl ⟨profile', found', mem'⟩))

theorem save_clean {start after : ProfileWorld Contents Unit} {request : ProfileSaveRequest}
    {result : Except ProfileMutationError ProfileSaveOutcome} (fresh : Fresh codec path start)
    (effect : SaveEffect codec () (ProfileOp.Does codec ()) request result start after) (quiet : ¬Warned (result.map .saved))
    {r : SecretRef} (stored : after.keychain r ≠ none) (unused : ¬Referenced codec after.disk r) :
    start.keychain r ≠ none ∧ ¬Referenced codec start.disk r := by
  cases effect with
  | refused error kind => exact ⟨stored, unused⟩
  | rollbackFailed storage rollback fails resolves update => exact absurd trivial quiet
  | @saved resolved store disk warnings profile errors gone _ resolves committed found auth sub all =>
    have clean : errors = [] := by
      by_contra some
      obtain ⟨error, mem⟩ := List.exists_mem_of_ne_nil errors some
      exact quiet ⟨error, List.mem_append_right _ (List.mem_map_of_mem mem)⟩
    obtain ⟨next, changed, loaded, reload, rfl, others⟩ := commits_others committed
    rw [ProfileWorld.forget_disk, ProfileWorld.setStore_disk] at unused
    rw [ProfileWorld.forget_keychain, ProfileWorld.setStore_keychain] at stored
    have left : r ∉ gone := fun mem => stored (if_pos mem)
    rw [if_neg left] at stored
    have foreign : r ∉ secretRefsForAuth profile.auth := fun mem =>
      unused ((referenced_entry reload).mpr ⟨_, profile, found, mem⟩)
    constructor
    · cases update : resolved.secretUpdate with
      | none => rwa [update] at stored
      | some u =>
        rw [update, ProfileWorld.setUpdate, ProfileWorld.setSecret_other] at stored
        · exact stored
        · rintro rfl
          exact foreign (auth ▸ resolveAuth_update resolves update)
    · refine left_behind loaded reload others ?_ unused left
      intro previous known r' mem free
      have known : next.findProfile request.profileId = some previous := known
      rw [all clean, fresh_find fresh loaded, known]
      exact List.mem_filter.mpr ⟨mem, by simpa using free profile found⟩

theorem delete_clean {start after : ProfileWorld Contents Unit} {profileId : ProfileId}
    {result : Except ProfileMutationError ProfileDeleteOutcome} (fresh : Fresh codec path start)
    (effect : DeleteEffect codec () profileId result start after) (quiet : ¬Warned (result.map .deleted))
    {r : SecretRef} (stored : after.keychain r ≠ none) (unused : ¬Referenced codec after.disk r) :
    start.keychain r ≠ none ∧ ¬Referenced codec start.disk r := by
  cases effect with
  | absent none => exact ⟨stored, unused⟩
  | refused error kind => exact ⟨stored, unused⟩
  | @deleted previous outcome store disk errors gone _ known committed sub all =>
    have clean : errors = [] := not_not.mp quiet
    rw [ProfileWorld.forget_disk, ProfileWorld.setStore_disk] at unused
    rw [ProfileWorld.forget_keychain, ProfileWorld.setStore_keychain] at stored
    have left : r ∉ gone := fun mem => stored (if_pos mem)
    rw [if_neg left] at stored
    refine ⟨stored, ?_⟩
    cases outcome with
    | unchanged =>
      cases committed
      exact unused
    | committed warnings =>
      obtain ⟨next, changed, loaded, reload, rfl, others⟩ := commits_others committed
      refine left_behind loaded reload others ?_ unused left
      intro profile found r' mem _
      have found : next.findProfile profileId = some profile := found
      rw [fresh_find fresh loaded, found] at known
      cases known
      rwa [all clean]

theorem call_clean {start after : ProfileWorld Contents Unit} {call : ProfileCall}
    {result : Except ProfileMutationError ProfileAnswer}
    (fresh : Fresh codec path start) (effect : CallEffect codec () (ProfileOp.Does codec ()) call result start after)
    (quiet : ¬Warned result) {r : SecretRef} (stored : after.keychain r ≠ none) (unused : ¬Referenced codec after.disk r) :
    start.keychain r ≠ none ∧ ¬Referenced codec start.disk r := by
  cases effect with
  | opened => exact ⟨stored, unused⟩
  | nextProfileId => exact ⟨stored, unused⟩
  | save effect => exact save_clean fresh effect quiet stored unused
  | delete effect => exact delete_clean fresh effect quiet stored unused

end Steps

section Single

variable {codec}

theorem undisturbed_alone (profileId : ProfileId) :
    Undisturbed codec () profileId (Eq : ProfileWorld Contents Unit → ProfileWorld Contents Unit → Prop) where
  refl _ := rfl
  trans h h' := h.trans h'
  stores h := by rw [h]
  entry h := by rw [h]
  secrets h _ := by rw [h]
  frame h _ _ := by rw [h]

/-- What holds of the only store between its operations; the secrets are kept if they were at the beginning. -/
def Agrees (codec : ProfilesCodec Contents) (path : String) (initially : Prop) (w : ProfileWorld Contents Unit) : Prop :=
  Fresh codec path w ∧ (initially → SecretsKept codec w)

def aloneContract (codec : ProfilesCodec Contents) (path : String) (initially : Prop) :
    Pool.Contract (ProfileWorld Contents Unit) Unit ProfileCall ProfileOp ProfileOp.Ans ProfileMutationError ProfileAnswer where
  Pre _ _ w := Agrees codec path initially w
  rely _ _ := Eq
  Good _ _ a := Agrees codec path initially a.before → Agrees codec path initially a.after
  Post _ call start result after := Fresh codec path start ∧ CallEffect codec () (ProfileOp.Does codec ()) call result start after

theorem alone_kept (path : String) (initially : Prop) :
    (aloneContract codec path initially).Kept (ProfileOp.Does codec) ProfileCall.program (fun _ _ _ _ => True) where
  refl _ _ _ := rfl
  trans _ _ _ _ _ h h' := h.trans h'
  stable _ _ _ _ _ _ same post := same ▸ post
  safe t call start pre := by
    refine (safe_call (R := Eq) (fun _ => rfl) call (fun profileId _ => undisturbed_alone profileId) (fun _ _ _ _ does => does)
      ?_ (fresh_valid pre.1)).mono (fun _ good => good) ?_
    · intro op before answer after puts does agrees
      cases named : call.profileId with
      | some profileId =>
        rw [CallPuts, named] at puts
        obtain ⟨fresh, kept⟩ := puts_keeps puts does agrees.1
        exact ⟨fresh, fun initially => kept (pre.2 initially) (agrees.2 initially)⟩
      | none =>
        rw [CallPuts, named] at puts
        rcases puts with rfl | rfl
        · obtain rfl := does
          exact ⟨open_fresh agrees.1, agrees.2⟩
        · obtain ⟨_, rfl⟩ := does
          exact agrees
    · rintro result after ⟨b, c, rfl, effect, rfl⟩
      exact ⟨pre.1, effect⟩
  guarantee _ _ _ _ _ differ := absurd rfl differ

/-- In every run of the calls of one store, whatever the faults: its memory is what a fresh load gives, the secrets that the
file refers to stay in the Keychain, a failed call other than a failed rollback changes nothing, and a call that tells of no
Keychain failure leaves no secret behind that is not referred to. -/
theorem single_store_consistent (codec : ProfilesCodec Contents) (path : String) (disk : Option Contents)
    (keychain : SecretRef → Option String)
    (events : List (ProfileEvent Contents Unit)) (s : ProfilePool Contents Unit)
    (runs : Pool.Runs (ProfileOp.Does codec) ProfileCall.program (fun _ _ => True)
      ⟨ProfileWorld.opened codec path disk keychain, fun _ => none⟩ events s) :
    s.world.stores () = .openOrEmpty codec path s.world.disk ∧
      (SecretsKept codec (ProfileWorld.opened codec path disk keychain) → SecretsKept codec s.world) ∧
      (∀ call start error after, .ended () call start (.error error) after ∈ events →
        (∀ storage rollback, error ≠ .storageRollback storage rollback) → after = start) ∧
      ∀ call start result after, .ended () call start result after ∈ events → ¬Warned result → ∀ r, after.keychain r ≠ none →
        ¬Referenced codec after.disk r → start.keychain r ≠ none ∧ ¬Referenced codec start.disk r := by
  obtain ⟨fulfilled, ⟨fresh, kept⟩, _⟩ := Pool.Contract.parallel
    (alone_kept path (SecretsKept codec (ProfileWorld.opened codec path disk keychain)))
    (I := fun _ w => Agrees codec path (SecretsKept codec (ProfileWorld.opened codec path disk keychain)) w)
    (fun _ _ _ _ _ does => does) (fun _ _ _ _ agrees => agrees) (fun _ _ _ _ agrees good => good agrees)
    (fun _ _ _ _ _ _ agrees _ => agrees) (fun _ _ _ _ _ agrees => ⟨agrees, fun _ _ _ _ => ⟨trivial, trivial⟩⟩)
    runs ⟨rfl, id⟩ (Pool.Contract.settled_idle fun _ => rfl)
  refine ⟨fresh, kept, ?_, ?_⟩
  · intro call start error after mem kind
    obtain ⟨_, effect⟩ := fulfilled _ mem
    rcases call_error effect with same | ⟨⟨storage, rollback, same⟩, _⟩
    · exact same
    · exact absurd same (kind storage rollback)
  · intro call start result after mem quiet r stored unused
    obtain ⟨fresh', effect⟩ := fulfilled _ mem
    exact call_clean fresh' effect quiet stored unused

end Single

def emptyWorld : ProfileWorld ProfilesFile Unit := .opened .plain "profiles.json" none fun _ => none

theorem single_store_saves :
    let ended := ProfileCall.play .plain () (.save firstSave) emptyWorld
    ended.2.2.toOption ≠ none ∧ ended.2.1.keychain (.keychainRef ⟨1⟩ "password") = some "secret" ∧
      ended.2.1.stores () = .openOrEmpty .plain "profiles.json" ended.2.1.disk :=
  ⟨by decide +kernel, by decide +kernel, (single_store_consistent .plain "profiles.json" none (fun _ => none) _ _
    (.call rfl (ProfileCall.play_run .plain () (.save firstSave) emptyWorld) trivial (fun _ _ _ => trivial) fun _ => trivial)).1⟩

end MacSftp
