import MacSftp.Storage.Calls

namespace MacSftp

open Lib ProfileStore

/-- The mark is above every stored id. -/
def ProfilesFile.Sound (file : ProfilesFile) : Prop :=
  ∀ profileId, file.findProfile profileId ≠ none → profileId.raw < file.nextProfileHighWater

section World

variable {Contents ι : Type} (codec : ProfilesCodec Contents)

/-- The mark of the file on disk, as a load gives it. -/
def mark (w : ProfileWorld Contents ι) : Nat :=
  match ProfilesFile.load codec w.disk with
  | .ok file => file.nextProfileHighWater
  | .error _ => 0

/-- No instance is ahead of the file, and the mark is above every id, on disk and in each memory. -/
structure IdsKept (w : ProfileWorld Contents ι) : Prop where
  sound : ∀ file, ProfilesFile.load codec w.disk = .ok file → file.Sound
  memory : ∀ t, (w.stores t).profiles.Sound
  behind : ∀ file, ProfilesFile.load codec w.disk = .ok file → ∀ t,
    (w.stores t).profiles.nextProfileHighWater ≤ file.nextProfileHighWater

/-- A profile may be saved under an id that the instance knows, or under the one it would hand out. -/
def MaySave (store : ProfileStore) (profileId : ProfileId) : Prop :=
  store.findProfile profileId ≠ none ∨ profileId = store.nextProfileId ∧ profileId.raw + 1 < 2 ^ 64

end World

section Steps

variable {Contents ι : Type} [DecidableEq ι] {codec : ProfilesCodec Contents} {w : ProfileWorld Contents ι}

omit [DecidableEq ι] in
theorem mark_of_load {file : ProfilesFile} (loaded : ProfilesFile.load codec w.disk = .ok file) :
    mark codec w = file.nextProfileHighWater := by
  rw [mark, loaded]

theorem new_sound : ProfilesFile.new.Sound := fun _ found => absurd rfl found

theorem open_ids (kept : IdsKept codec w) (t : ι) (path : String) :
    IdsKept codec (w.setStore t (.openOrEmpty codec path w.disk) w.disk) := by
  have opened : (openOrEmpty codec path w.disk).profiles.Sound := by
    unfold openOrEmpty
    split
    · exact kept.sound _ ‹_›
    · exact new_sound
  refine ⟨kept.sound, fun u => ?_, fun file loaded u => ?_⟩
  · by_cases same : u = t
    · subst same
      rwa [ProfileWorld.setStore_self]
    · rw [ProfileWorld.setStore_other _ _ same]
      exact kept.memory u
  · by_cases same : u = t
    · subst same
      rw [ProfileWorld.setStore_self, openOrEmpty]
      have loaded : ProfilesFile.load codec w.disk = .ok file := loaded
      rw [loaded]
    · rw [ProfileWorld.setStore_other _ _ same]
      exact kept.behind file loaded u

theorem commit_ids (kept : IdsKept codec w) {t : ι} {store : ProfileStore} {disk : Option Contents} {next changed : ProfilesFile}
    (loaded : ProfilesFile.load codec w.disk = .ok next) (reload : ProfilesFile.load codec disk = .ok changed)
    (same : store.profiles = changed) (sound : changed.Sound) (grows : next.nextProfileHighWater ≤ changed.nextProfileHighWater) :
    IdsKept codec (w.setStore t store disk) := by
  have fixed : ∀ file, ProfilesFile.load codec (w.setStore t store disk).disk = .ok file → file = changed := by
    intro file loaded'
    exact Except.ok.inj (loaded'.symm.trans reload)
  refine ⟨fun file loaded' => fixed file loaded' ▸ sound, fun u => ?_, fun file loaded' u => ?_⟩
  · by_cases own : u = t
    · subst own
      rw [ProfileWorld.setStore_self, same]
      exact sound
    · rw [ProfileWorld.setStore_other _ _ own]
      exact kept.memory u
  · rw [fixed file loaded']
    by_cases own : u = t
    · subst own
      rw [ProfileWorld.setStore_self, same]
    · rw [ProfileWorld.setStore_other _ _ own]
      exact Nat.le_trans (kept.behind next loaded u) grows

theorem water_unmoved {next changed : ProfilesFile} (loaded : next.Loaded) {profileId : ProfileId}
    (present : next.findProfile profileId ≠ none) (unmoved : changed.nextProfileId = next.nextProfileId) :
    changed.nextProfileHighWater = next.nextProfileHighWater := by
  have marked : next.nextProfileId ≠ none := by
    intro unmarked
    rw [loaded.marked unmarked] at present
    exact present rfl
  obtain ⟨value, hvalue⟩ := Option.ne_none_iff_exists'.mp marked
  rw [ProfilesFile.nextProfileHighWater, ProfilesFile.nextProfileHighWater, unmoved, hvalue]

theorem save_ids (kept : IdsKept codec w) {t : ι} {profile : ConnectionProfile} (may : MaySave (w.stores t) profile.id)
    {warnings : List StorageWarning} {store : ProfileStore} {disk : Option Contents}
    (h : Commits codec (w.stores t) w.disk (.save profile) (.ok (.committed warnings)) store disk) :
    IdsKept codec (w.setStore t store disk) ∧ mark codec w ≤ mark codec (w.setStore t store disk) ∧
      (∀ profileId, (w.setStore t store disk).entry codec profileId ≠ none →
        w.entry codec profileId ≠ none ∨ profileId = profile.id ∧ mark codec w = profile.id.raw) ∧
      ((w.stores t).findProfile profile.id = none → w.entry codec profile.id = none ∧ mark codec w = profile.id.raw ∧
        mark codec (w.setStore t store disk) = profile.id.raw + 1) := by
  obtain ⟨next, changed, loaded, applied, reload, _, rfl⟩ := commits_committed h
  obtain ⟨_, saved, same, _, stored, others, _, kind⟩ := apply_save applied
  cases same
  have known : (w.stores t).findProfile profile.id ≠ none → profile.id.raw < next.nextProfileHighWater := fun found =>
    Nat.lt_of_lt_of_le (kept.memory t profile.id found) (kept.behind next loaded t)
  rw [mark_of_load loaded, mark_of_load (w := w.setStore t _ disk) reload, ProfileWorld.entry_of_load loaded,
    ProfileWorld.entry_of_load (w := w.setStore t _ disk) reload]
  rcases kind with ⟨absent, above, moved⟩ | ⟨present, snapshot, unmoved⟩
  · have fresh : (w.stores t).findProfile profile.id = none := by
      by_contra found
      have below := known found
      omega
    obtain found | ⟨issued, room⟩ := may
    · exact absurd fresh found
    have number : profile.id.raw = next.nextProfileHighWater := by
      have least := kept.behind next loaded t
      have raw : profile.id.raw = (w.stores t).profiles.nextProfileHighWater := congrArg ProfileId.raw issued
      omega
    have water : changed.nextProfileHighWater = profile.id.raw + 1 := by
      rw [ProfilesFile.nextProfileHighWater, moved, succU64, Nat.mod_eq_of_lt room]
    have sound : changed.Sound := by
      intro other found
      by_cases same : other = profile.id
      · subst same
        omega
      · rw [others other same] at found
        have below := kept.sound next loaded other found
        omega
    refine ⟨commit_ids kept loaded reload rfl sound (by omega), by omega, ?_, fun _ => ⟨absent, number.symm, water⟩⟩
    intro other found
    by_cases same : other = profile.id
    · exact Or.inr ⟨same, number.symm⟩
    · exact Or.inl (others other same ▸ found)
  · have water := water_unmoved (ProfilesFile.load_loaded loaded) present unmoved
    have entries : ∀ other, changed.findProfile other ≠ none → next.findProfile other ≠ none := by
      intro other found
      by_cases same : other = profile.id
      · subst same
        exact present
      · exact others other same ▸ found
    have sound : changed.Sound := fun other found => water ▸ kept.sound next loaded other (entries other found)
    exact ⟨commit_ids kept loaded reload rfl sound water.ge, water.ge, fun other found => Or.inl (entries other found),
      fun fresh => absurd fresh snapshot⟩

theorem delete_ids (kept : IdsKept codec w) {t : ι} {profileId : ProfileId} {warnings : List StorageWarning} {store : ProfileStore}
    {disk : Option Contents} (h : Commits codec (w.stores t) w.disk (.delete profileId) (.ok (.committed warnings)) store disk) :
    IdsKept codec (w.setStore t store disk) ∧ mark codec w ≤ mark codec (w.setStore t store disk) ∧
      ∀ other, (w.setStore t store disk).entry codec other ≠ none → w.entry codec other ≠ none := by
  obtain ⟨next, changed, loaded, applied, reload, _, rfl⟩ := commits_committed h
  obtain ⟨_, never⟩ | ⟨_, same, present, gone, others, _, unmoved⟩ := apply_delete applied
  · cases never
  cases same
  have water := water_unmoved (ProfilesFile.load_loaded loaded) present unmoved
  have entries : ∀ other, changed.findProfile other ≠ none → next.findProfile other ≠ none := by
    intro other found
    by_cases same : other = profileId
    · subst same
      exact absurd gone found
    · exact others other same ▸ found
  have sound : changed.Sound := fun other found => water ▸ kept.sound next loaded other (entries other found)
  rw [mark_of_load loaded, mark_of_load (w := w.setStore t _ disk) reload, ProfileWorld.entry_of_load loaded,
    ProfileWorld.entry_of_load (w := w.setStore t _ disk) reload]
  exact ⟨commit_ids kept loaded reload rfl sound water.ge, water.ge, entries⟩

end Steps

section Calls

variable {Contents ι : Type} [DecidableEq ι] {codec : ProfilesCodec Contents}

/-- The profile that an operation has committed. -/
def committedSave : Asked (ProfileWorld Contents ι) ProfileOp ProfileOp.Ans → Option ConnectionProfile
  | ⟨_, .commitTransaction (.save profile), .ok (.committed _), _⟩ => some profile
  | _ => none

/-- What an operation of `t` does to the ids. -/
structure IdStep (codec : ProfilesCodec Contents) (t : ι) (a : Asked (ProfileWorld Contents ι) ProfileOp ProfileOp.Ans) : Prop where
  others : ∀ u, u ≠ t → a.after.stores u = a.before.stores u
  kept : IdsKept codec a.before → IdsKept codec a.after ∧ mark codec a.before ≤ mark codec a.after
  entries : IdsKept codec a.before → ∀ profileId, a.after.entry codec profileId ≠ none → a.before.entry codec profileId ≠ none ∨
    mark codec a.before = profileId.raw ∧ profileId.raw < mark codec a.after
  created : IdsKept codec a.before → ∀ profile, committedSave a = some profile → (a.before.stores t).findProfile profile.id = none →
    a.before.entry codec profile.id = none ∧ mark codec a.before = profile.id.raw ∧ mark codec a.after = profile.id.raw + 1

omit [DecidableEq ι] in
theorem idStep_quiet {t : ι} {op : ProfileOp} {before after : ProfileWorld Contents ι} {answer : op.Ans}
    (disk : after.disk = before.disk) (others : ∀ u, u ≠ t → after.stores u = before.stores u)
    (kept : IdsKept codec before → IdsKept codec after) (none : committedSave ⟨before, op, answer, after⟩ = none) :
    IdStep codec t ⟨before, op, answer, after⟩ where
  others := others
  kept ids := ⟨kept ids, by rw [mark, mark, disk]⟩
  entries _ profileId found := by
    rw [ProfileWorld.entry_congr disk] at found
    exact Or.inl found
  created _ profile committed := by
    rw [none] at committed
    cases committed

omit [DecidableEq ι] in
theorem idsKept_congr {w w' : ProfileWorld Contents ι} (disk : w'.disk = w.disk) (stores : w'.stores = w.stores)
    (kept : IdsKept codec w) : IdsKept codec w' := by
  constructor
  · rw [disk]
    exact kept.sound
  · rw [stores]
    exact kept.memory
  · rw [disk, stores]
    exact kept.behind

theorem idStep_apart {t : ι} {op : ProfileOp} {before after : ProfileWorld Contents ι} {answer : op.Ans} (apart : op.Apart)
    (does : op.Does codec t answer before after) : IdStep codec t ⟨before, op, answer, after⟩ := by
  obtain ⟨disk, stores⟩ := apart_frame apart does
  refine idStep_quiet disk (fun u _ => by rw [stores]) (idsKept_congr disk stores) ?_
  cases op with
  | commitTransaction transaction => exact apart.elim
  | _ => rfl

theorem idStep_open {t : ι} {before after : ProfileWorld Contents ι} {answer : ProfileOp.openOrEmpty.Ans}
    (does : ProfileOp.openOrEmpty.Does codec t answer before after) : IdStep codec t ⟨before, .openOrEmpty, answer, after⟩ := by
  obtain rfl := does
  exact idStep_quiet rfl (fun u other => ProfileWorld.setStore_other _ _ other) (fun kept => open_ids kept t _) rfl

theorem idStep_commit {t : ι} {transaction : TransactionKind} {before after : ProfileWorld Contents ι}
    {answer : (ProfileOp.commitTransaction transaction).Ans} (may : ∀ profile, transaction = .save profile →
      MaySave (before.stores t) profile.id) (does : (ProfileOp.commitTransaction transaction).Does codec t answer before after) :
    IdStep codec t ⟨before, .commitTransaction transaction, answer, after⟩ := by
  obtain ⟨store, disk, committed, rfl⟩ := does_commit does
  rcases commits_split committed with ⟨rfl, rfl, unanswered⟩ | ⟨warnings, rfl⟩
  · rw [ProfileWorld.setStore_same]
    refine idStep_quiet rfl (fun _ _ => rfl) id ?_
    rcases answer with error | outcome
    · cases transaction <;> rfl
    · cases outcome with
      | unchanged => cases transaction <;> rfl
      | committed warnings => exact absurd rfl (unanswered warnings)
  · cases transaction with
    | save profile =>
      have all := fun kept : IdsKept codec before => save_ids kept (may profile rfl) committed
      refine ⟨fun u other => ProfileWorld.setStore_other _ _ other, fun kept => ⟨(all kept).1, (all kept).2.1⟩, ?_, ?_⟩
      · intro kept profileId found
        obtain ⟨after, _, entries, _⟩ := all kept
        rcases entries profileId found with old | ⟨rfl, water⟩
        · exact Or.inl old
        · refine Or.inr ⟨water, ?_⟩
          obtain ⟨next, changed, _, reload, _, _⟩ := commits_others committed
          rw [mark_of_load (w := before.setStore t store disk) reload]
          exact after.sound changed reload profile.id
            (ProfileWorld.entry_of_load (w := before.setStore t store disk) reload ▸ found)
      · rintro kept _ ⟨⟩ fresh
        exact (all kept).2.2.2 fresh
    | delete profileId =>
      have all := fun kept : IdsKept codec before => delete_ids kept committed
      exact ⟨fun u other => ProfileWorld.setStore_other _ _ other, fun kept => ⟨(all kept).1, (all kept).2.1⟩,
        fun kept profileId found => Or.inl ((all kept).2.2 profileId found), fun _ profile never => by cases never⟩

end Calls

section Programs

def SaveOf (profileId : ProfileId) (op : ProfileOp) : Prop :=
  ∃ profile : ConnectionProfile, profile.id = profileId ∧ op = .commitTransaction (.save profile)

theorem uses_lift {K : ProfileOp → Prop} {ε α : Type} (wrap : ε → ProfileMutationError) (result : Except ε α) :
    (lift wrap result).Uses K := by
  cases result <;> trivial

section Asks

variable {K : ProfileOp → Prop}

theorem uses_askStore (kind : K .store) : askStore.Uses K := ⟨kind, fun _ => trivial⟩

theorem uses_askLoad {r : SecretRef} (kind : K (.keychainLoad r)) : (askLoad r).Uses K := ⟨kind, fun _ => trivial⟩

theorem uses_askStoreSecret {r : SecretRef} {secret : String} (kind : K (.keychainStore r secret)) :
    (askStoreSecret r secret).Uses K :=
  ⟨kind, fun _ => trivial⟩

theorem uses_askRollback {r : SecretRef} {previous : Option String} (kind : K (.keychainRollback r previous)) :
    (askRollback r previous).Uses K := ⟨kind, fun _ => trivial⟩

theorem uses_askDelete {r : SecretRef} (kind : K (.keychainDelete r)) : (askDelete r).Uses K := ⟨kind, fun _ => trivial⟩

theorem uses_askCommit {transaction : TransactionKind} (kind : K (.commitTransaction transaction)) :
    (askCommit transaction).Uses K :=
  ⟨kind, fun _ => trivial⟩

end Asks

theorem uses_deleteSecrets (refs : List SecretRef) : (deleteSecrets refs).Uses ProfileOp.Apart := by
  induction refs with
  | nil => trivial
  | cons r rest ih =>
    apply (uses_askDelete trivial).bind
    intro deleted
    apply ih.bind
    intro errors
    cases deleted <;> trivial

theorem uses_replaceSecret (update : Option SecretUpdate) : (replaceSecret update).Uses ProfileOp.Apart := by
  cases update with
  | none => trivial
  | some u =>
    apply (uses_askLoad trivial).bind
    intro loaded
    apply (uses_lift _ loaded).bind
    intro previous
    apply (uses_askStoreSecret trivial).bind
    intro stored
    exact (uses_lift _ stored).bind fun _ => trivial

theorem uses_restoreSecret (storage : StorageError) (previous : Option String) (update : Option SecretUpdate) :
    (restoreSecret storage previous update).Uses ProfileOp.Apart := by
  cases update with
  | none => trivial
  | some u =>
    apply (uses_askRollback trivial).bind
    intro rolled
    cases rolled <;> trivial

theorem uses_finishSave (profileId : ProfileId) (previous : Option ConnectionProfile) (warnings : List StorageWarning) :
    (finishSave profileId previous warnings).Uses ProfileOp.Apart := by
  apply (uses_askStore trivial).bind
  intro store
  cases found : store.findProfile profileId with
  | none => trivial
  | some saved => exact (uses_deleteSecrets _).bind fun _ => trivial

theorem once_saveRequest (request : ProfileSaveRequest) :
    (saveRequest request).Once ProfileOp.Apart (SaveOf request.profileId) := by
  apply (uses_askStore trivial).once_bind
  intro store
  apply (uses_lift _ _).once_bind
  intro _
  apply (uses_lift _ _).once_bind
  intro _
  apply (uses_lift _ _).once_bind
  intro resolved
  apply (uses_replaceSecret _).once_bind
  intro previous
  apply Program.once_ask ⟨requestedProfile request resolved.auth, rfl, rfl⟩
  rintro (error | outcome)
  · exact uses_restoreSecret _ _ _
  · cases outcome with
    | unchanged => trivial
    | committed warnings => exact uses_finishSave _ _ _

def DeleteOf (profileId : ProfileId) (op : ProfileOp) : Prop := op.Apart ∨ op = .commitTransaction (.delete profileId)

theorem uses_deleteProfile (profileId : ProfileId) : (deleteProfile profileId).Uses (DeleteOf profileId) := by
  apply (uses_askStore (Or.inl trivial)).bind
  intro store
  apply (uses_lift _ _).bind
  intro _
  apply (uses_askCommit (Or.inr rfl)).bind
  intro outcome
  exact (uses_lift _ outcome).bind fun _ => trivial

theorem uses_delete (profileId : ProfileId) : (deleteProfileAndCredentials profileId).Uses (DeleteOf profileId) := by
  apply (uses_askStore (Or.inl trivial)).bind
  intro store
  cases found : store.findProfile profileId with
  | none => trivial
  | some previous =>
    apply (uses_deleteProfile profileId).bind
    intro _
    have deletes := (uses_deleteSecrets (secretRefsForAuth previous.auth)).mono fun op apart =>
      (Or.inl apart : DeleteOf profileId op)
    exact deletes.bind fun _ => trivial

end Programs

section Runs

variable {Contents ι : Type} [DecidableEq ι]

/-- Each save is of a profile that the instance knows, or of a new one under the id the instance hands out at that moment. -/
def IssuedIds (s : ProfilePool Contents ι) : ProfileEvent Contents ι → Prop
  | .started t (.save request) => MaySave (s.world.stores t) request.profileId
  | _ => True

/-- Some profile of the file has had the id, at the beginning or after an operation so far. -/
def Occurred (codec : ProfilesCodec Contents) (w : ProfileWorld Contents ι) (past : List (ProfileEvent Contents ι))
    (profileId : ProfileId) : Prop :=
  w.entry codec profileId ≠ none ∨ ∃ t call a, .asked t call a ∈ past ∧ a.after.entry codec profileId ≠ none

/-- What the claim is about, event by event: the ids handed out, the profiles created, and the mark. -/
def IdsFresh (codec : ProfilesCodec Contents) (w : ProfileWorld Contents ι) (past : List (ProfileEvent Contents ι)) :
    ProfileEvent Contents ι → Prop
  | .started _ _ => True
  | .asked t _ a => mark codec a.before ≤ mark codec a.after ∧
      ∀ profile, committedSave a = some profile → (a.before.stores t).findProfile profile.id = none →
        ¬Occurred codec w past profile.id ∧ a.before.entry codec profile.id = none ∧
          mark codec a.before = profile.id.raw ∧ mark codec a.after = profile.id.raw + 1
  | .ended t _ _ result after => ∀ profileId, result = .ok (.nextProfileId profileId) →
      ProfilesFile.load codec after.disk = .ok (after.stores t).profiles → ¬Occurred codec w past profileId

variable {codec : ProfilesCodec Contents}

def idContract (ι : Type) [DecidableEq ι] (codec : ProfilesCodec Contents) :
    Pool.Contract (ProfileWorld Contents ι) ι ProfileCall ProfileOp ProfileOp.Ans ProfileMutationError ProfileAnswer where
  Pre t call w := ∀ request, call = .save request → MaySave (w.stores t) request.profileId
  rely t _ w w' := w'.stores t = w.stores t
  Good t _ a := IdStep codec t a
  Post t _ _ result w := ∀ profileId, result = .ok (.nextProfileId profileId) → profileId = (w.stores t).nextProfileId

theorem idContract_safe (t : ι) (call : ProfileCall) (w : ProfileWorld Contents ι)
    (pre : ∀ request, call = .save request → MaySave (w.stores t) request.profileId) :
    call.program.Safe (fun v v' => v'.stores t = v.stores t) (ProfileOp.Does codec t) (fun a => IdStep codec t a)
      (fun result v => ∀ profileId, result = .ok (.nextProfileId profileId) → profileId = (v.stores t).nextProfileId) w := by
  cases call with
  | openStore =>
    apply Program.safe_ask
    intro before answer after _ does
    exact ⟨idStep_open does, fun profileId never => by cases never⟩
  | nextProfileId =>
    apply Program.safe_ask
    intro before answer after _ does
    refine ⟨idStep_apart trivial does, ?_⟩
    obtain ⟨rfl, rfl⟩ := does
    rintro profileId ⟨⟩
    rfl
  | save request =>
    have saves : (saveRequest request).Safe (fun v v' => v'.stores t = v.stores t) (ProfileOp.Does codec t)
        (fun a => IdStep codec t a) (fun _ _ => True) w := (once_saveRequest request).safe
      (J := fun v => MaySave (v.stores t) request.profileId)
      (fun v v' same may => same ▸ may)
      (fun op before answer after apart does => ⟨idStep_apart apart does, fun may => (apart_frame apart does).2 ▸ may⟩)
      (by
        rintro _ before answer after ⟨profile, named, rfl⟩ may does
        apply idStep_commit _ does
        rintro _ ⟨⟩
        rw [named]
        exact may) (pre request rfl)
    apply safe_map saves
    intro result w' _ profileId never
    cases result <;> cases never
  | delete profileId =>
    have deletes : (deleteProfileAndCredentials profileId).Safe (fun v v' => v'.stores t = v.stores t) (ProfileOp.Does codec t)
        (fun a => IdStep codec t a) (fun _ _ => True) w := (uses_delete profileId).safe
      (by
        rintro op before answer after (apart | rfl) does
        · exact idStep_apart apart does
        · exact idStep_commit (fun profile never => by cases never) does) w
    apply safe_map deletes
    intro result w' _ profileId never
    cases result <;> cases never

theorem idContract_kept (codec : ProfilesCodec Contents) :
    (idContract ι codec).Kept (ProfileOp.Does codec) ProfileCall.program (fun _ _ _ _ => True) where
  refl _ _ _ := rfl
  trans _ _ _ _ _ h h' := h'.trans h
  stable _ _ _ _ _ _ same post profileId issued := by
    rw [same]
    exact post profileId issued
  safe t call w pre := idContract_safe t call w pre
  guarantee t _ _ _ _ differ _ step := step.others t differ

omit [DecidableEq ι] in
theorem entry_below {w : ProfileWorld Contents ι} (kept : IdsKept codec w) {profileId : ProfileId}
    (found : w.entry codec profileId ≠ none) : profileId.raw < mark codec w := by
  cases loaded : ProfilesFile.load codec w.disk with
  | error error =>
    rw [ProfileWorld.entry, loaded] at found
    exact absurd rfl found
  | ok file =>
    rw [ProfileWorld.entry_of_load loaded] at found
    rw [mark_of_load loaded]
    exact kept.sound file loaded profileId found

omit [DecidableEq ι] in
theorem occurred_concat {w : ProfileWorld Contents ι} {past : List (ProfileEvent Contents ι)} {event : ProfileEvent Contents ι}
    {profileId : ProfileId} (h : Occurred codec w (past ++ [event]) profileId) :
    Occurred codec w past profileId ∨ ∃ t call a, event = .asked t call a ∧ a.after.entry codec profileId ≠ none := by
  rcases h with first | ⟨t, call, a, mem, found⟩
  · exact Or.inl (Or.inl first)
  · rcases List.mem_append.mp mem with old | new
    · exact Or.inl (Or.inr ⟨t, call, a, old, found⟩)
    · exact Or.inr ⟨t, call, a, (List.mem_singleton.mp new).symm, found⟩

/-- The ids of the run so far are below the mark. -/
structure IdsBelow (codec : ProfilesCodec Contents) (w : ProfileWorld Contents ι) (past : List (ProfileEvent Contents ι))
    (now : ProfileWorld Contents ι) : Prop where
  kept : IdsKept codec now
  below : ∀ profileId, Occurred codec w past profileId → profileId.raw < mark codec now
  fresh : Pool.Every (IdsFresh codec w) past

omit [DecidableEq ι] in
theorem idsBelow_idle {w now : ProfileWorld Contents ι} {past : List (ProfileEvent Contents ι)} {event : ProfileEvent Contents ι}
    (ids : IdsBelow codec w past now) (idle : ∀ t call a, event ≠ .asked t call a) (fresh : IdsFresh codec w past event) :
    IdsBelow codec w (past ++ [event]) now where
  kept := ids.kept
  below profileId occurred := by
    rcases occurred_concat occurred with old | ⟨t, call, a, same, _⟩
    · exact ids.below profileId old
    · exact absurd same (idle t call a)
  fresh := Pool.every_concat ids.fresh fresh

omit [DecidableEq ι] in
theorem idsBelow_asked {w : ProfileWorld Contents ι} {past : List (ProfileEvent Contents ι)} {t : ι} {call : ProfileCall}
    {a : Asked (ProfileWorld Contents ι) ProfileOp ProfileOp.Ans} (ids : IdsBelow codec w past a.before) (step : IdStep codec t a) :
    IdsBelow codec w (past ++ [.asked t call a]) a.after := by
  obtain ⟨kept, grows⟩ := step.kept ids.kept
  refine ⟨kept, ?_, Pool.every_concat ids.fresh ⟨grows, ?_⟩⟩
  · intro profileId occurred
    rcases occurred_concat occurred with old | ⟨_, _, _, same, found⟩
    · exact Nat.lt_of_lt_of_le (ids.below profileId old) grows
    · cases same
      exact entry_below kept found
  · intro profile committed unknown
    obtain ⟨absent, number, moved⟩ := step.created ids.kept profile committed unknown
    refine ⟨fun occurred => ?_, absent, number, moved⟩
    have below := ids.below profile.id occurred
    omega

omit [DecidableEq ι] in
theorem opened_ids {path : String} {disk : Option Contents} {keychain : SecretRef → Option String}
    (sound : ∀ file, ProfilesFile.load codec disk = .ok file → file.Sound) :
    IdsKept codec (ProfileWorld.opened codec path disk keychain : ProfileWorld Contents ι) := by
  refine ⟨sound, fun _ => ?_, fun file loaded _ => ?_⟩
  · rw [ProfileWorld.opened, openOrEmpty]
    split
    · exact sound _ ‹_›
    · exact new_sound
  · have loaded : ProfilesFile.load codec disk = .ok file := loaded
    rw [ProfileWorld.opened, openOrEmpty, loaded]

/-- Ids are not reused. The file is one whose mark is above its ids; every instance may save, delete, hand out ids and be opened
again, in any interleaving. -/
theorem profile_ids_fresh (codec : ProfilesCodec Contents) (path : String) (disk : Option Contents)
    (keychain : SecretRef → Option String) (sound : ∀ file, ProfilesFile.load codec disk = .ok file → file.Sound)
    (events : List (ProfileEvent Contents ι)) (s : ProfilePool Contents ι)
    (runs : Pool.Runs (ProfileOp.Does codec) ProfileCall.program IssuedIds
      ⟨ProfileWorld.opened codec path disk keychain, fun _ => none⟩ events s) :
    Pool.Every (IdsFresh codec (ProfileWorld.opened codec path disk keychain)) events ∧
      (∀ profileId, Occurred codec (ProfileWorld.opened codec path disk keychain) events profileId →
        profileId.raw < mark codec s.world) ∧
      ∀ profileId, s.world.entry codec profileId ≠ none → profileId.raw < mark codec s.world := by
  obtain ⟨_, ids, _⟩ := Pool.Contract.parallel (idContract_kept codec)
    (I := IdsBelow codec (ProfileWorld.opened codec path disk keychain)) (fun _ _ _ _ _ does => does)
    (fun _ _ _ _ ids => idsBelow_idle ids (by simp) trivial)
    (fun _ _ _ _ ids step => idsBelow_asked ids step)
    (fun past w t call start result ids post => idsBelow_idle ids (by simp) (by
      intro profileId issued current occurred
      have below := ids.below profileId occurred
      rw [post profileId issued, mark_of_load current] at below
      exact absurd below (Nat.lt_irrefl _)))
    (fun past s t call legal _ => ⟨fun request same => by subst same; exact legal, fun _ _ _ _ => ⟨trivial, trivial⟩⟩)
    runs ⟨opened_ids sound, fun profileId occurred => by
      rcases occurred with first | ⟨_, _, _, never, _⟩
      · exact entry_below (opened_ids sound) first
      · exact absurd never List.not_mem_nil, Pool.every_nil⟩ (Pool.Contract.settled_idle fun _ => rfl)
  exact ⟨ids.fresh, ids.below, fun profileId found => entry_below ids.kept found⟩

end Runs

theorem water_above {profiles : List ConnectionProfile} {bound : Nat} (room : ∀ profile ∈ profiles, profile.id.raw + 1 < bound)
    (positive : 1 < bound) :
    (∀ profile ∈ profiles, profile.id.raw ≤ (profiles.map (fun profile => profile.id.raw)).foldr max 0) ∧
      (profiles.map (fun profile => profile.id.raw)).foldr max 0 + 1 < bound := by
  induction profiles with
  | nil => exact ⟨fun profile never => absurd never List.not_mem_nil, positive⟩
  | cons first rest ih =>
    obtain ⟨head, tail⟩ := List.forall_mem_cons.mp room
    obtain ⟨above, below⟩ := ih tail
    simp only [List.map_cons, List.foldr_cons]
    refine ⟨List.forall_mem_cons.mpr ⟨le_max_left _ _, fun profile mem => le_trans (above profile mem) (le_max_right _ _)⟩, ?_⟩
    rw [Nat.max_def]
    split <;> omega

theorem accept_sound {parsed file : ProfilesFile} (h : parsed.accept = .ok file) (unmarked : parsed.nextProfileId = none)
    (room : ∀ profile ∈ parsed.profiles, profile.id.raw + 1 < 2 ^ 64) : file.Sound := by
  have migrated : parsed.migrate.nextProfileId = none ∧ ∀ profile ∈ parsed.migrate.profiles, profile.id.raw + 1 < 2 ^ 64 := by
    unfold ProfilesFile.migrate
    split
    · refine ⟨unmarked, fun profile mem => ?_⟩
      obtain ⟨old, stored, rfl⟩ := List.mem_map.mp mem
      exact room old stored
    · exact ⟨unmarked, room⟩
  obtain ⟨above, below⟩ := water_above migrated.2 (by decide)
  unfold ProfilesFile.accept at h
  split at h
  · cases h
  split at h
  · cases h
  cases h
  intro profileId found
  obtain ⟨profile, same⟩ := Option.ne_none_iff_exists'.mp found
  obtain ⟨stored, rfl⟩ := ProfilesFile.findProfile_some same
  have largest := above profile stored
  simp only [ProfilesFile.nextProfileHighWater, migrated.1, succU64]
  rw [Nat.mod_eq_of_lt below]
  omega

def afterFirst : ProfileWorld ProfilesFile Bool := (ProfileCall.play .plain true (.save firstSave) twoStores).2.1

theorem firstSave_runs : Pool.Runs (ProfileOp.Does .plain) ProfileCall.program IssuedIds ⟨twoStores, fun _ => none⟩
    (eventsOf true (.save firstSave) twoStores) ⟨afterFirst, fun _ => none⟩ := by
  have issued : MaySave (twoStores.stores true) firstSave.profileId := Or.inr ⟨by decide, by decide⟩
  exact eventsOf_runs issued (fun _ _ _ => trivial) fun _ => trivial

theorem profile_ids_fresh_created :
    mark .plain afterFirst = 2 ∧ Pool.Every (IdsFresh .plain twoStores) (eventsOf true (.save firstSave) twoStores) :=
  ⟨by decide +kernel, (profile_ids_fresh .plain "profiles.json" none (fun _ => none) (by rintro _ ⟨⟩; exact new_sound) _ _
    firstSave_runs).1⟩

/-- The other instance has not seen the new profile and hands its id out once more. -/
theorem stale_instance_repeats_id : ∃ events s, Pool.Runs (ProfileOp.Does .plain) ProfileCall.program IssuedIds
    ⟨twoStores, fun _ => none⟩ events s ∧ ∃ start profileId after,
      .ended false .nextProfileId start (.ok (.nextProfileId profileId)) after ∈ events ∧
        after.entry .plain profileId ≠ none := by
  have again := @eventsOf_runs false .nextProfileId afterFirst IssuedIds trivial (fun _ _ _ => trivial) fun _ => trivial
  have issued : (afterFirst.stores false).nextProfileId = ⟨1⟩ := by decide +kernel
  have present : afterFirst.entry .plain ⟨1⟩ ≠ none := by decide +kernel
  rw [← issued] at present
  refine ⟨_, _, firstSave_runs.append again, afterFirst, _, afterFirst, ?_, present⟩
  apply List.mem_append_right
  exact List.mem_cons_of_mem _ (List.mem_append_right _ (List.mem_singleton.mpr rfl))

end MacSftp
