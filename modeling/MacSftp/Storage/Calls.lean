import MacSftp.Storage.SharedStore

namespace MacSftp

open Lib ProfileStore

variable {Contents ι : Type} {codec : ProfilesCodec Contents} {i : ι}

theorem does_commit [DecidableEq ι] {transaction : TransactionKind} {answer : Except StorageError TransactionOutcome}
    {w w' : ProfileWorld Contents ι} (h : ProfileOp.Does codec i (.commitTransaction transaction) answer w w') :
    ∃ store disk, Commits codec (w.stores i) w.disk transaction answer store disk ∧ w' = w.setStore i store disk := by
  obtain ⟨faults, same⟩ := h
  cases same
  exact ⟨_, _, commitTransaction_commits faults (w.stores i) w.disk transaction, rfl⟩

/-- The operations on the Keychain and the reading of the memory. -/
def ProfileOp.Apart : ProfileOp → Prop
  | .openOrEmpty | .commitTransaction _ => False
  | _ => True

theorem apart_frame [DecidableEq ι] {t : ι} {op : ProfileOp} {before after : ProfileWorld Contents ι} {answer : op.Ans}
    (apart : op.Apart)
    (does : op.Does codec t answer before after) : after.disk = before.disk ∧ after.stores = before.stores := by
  cases op with
  | openOrEmpty => exact apart.elim
  | commitTransaction transaction => exact apart.elim
  | store =>
    obtain ⟨_, rfl⟩ := does
    exact ⟨rfl, rfl⟩
  | keychainLoad r =>
    obtain ⟨_, rfl⟩ := does
    exact ⟨rfl, rfl⟩
  | keychainStore r secret => rcases does with ⟨_, rfl⟩ | ⟨_, rfl⟩ <;> exact ⟨rfl, rfl⟩
  | keychainRollback r previous => rcases does with ⟨_, rfl⟩ | ⟨_, rfl⟩ <;> exact ⟨rfl, rfl⟩
  | keychainDelete r => rcases does with ⟨_, rfl⟩ | ⟨_, rfl⟩ <;> exact ⟨rfl, rfl⟩

/-- What the others may do during a call of `i` on a profile: nothing to what `i` has in memory, nothing to the entry of the
profile, and nothing to its secrets or depending on them. -/
structure Undisturbed (codec : ProfilesCodec Contents) (i : ι) (profileId : ProfileId)
    (R : ProfileWorld Contents ι → ProfileWorld Contents ι → Prop) : Prop where
  refl : ∀ w, R w w
  trans : ∀ {u v w}, R u v → R v w → R u w
  stores : ∀ {v w}, R v w → w.stores i = v.stores i
  entry : ∀ {v w}, R v w → w.entry codec profileId = v.entry codec profileId
  secrets : ∀ {v w r}, R v w → Owns profileId r → w.keychain r = v.keychain r
  frame : ∀ {v w r}, R v w → Owns profileId r → ∀ secret, R (v.setSecret r secret) (w.setSecret r secret)

namespace Undisturbed

variable {profileId : ProfileId} {R : ProfileWorld Contents ι → ProfileWorld Contents ι → Prop}
  (calm : Undisturbed codec i profileId R)

include calm

theorem back {v w : ProfileWorld Contents ι} {r : SecretRef} {secret : Option String} (h : R (v.setSecret r secret) w)
    (own : Owns profileId r) : ∃ v', R v v' ∧ w = v'.setSecret r secret := by
  refine ⟨w.setSecret r (v.keychain r), ?_, ?_⟩
  · have undone := calm.frame h own (v.keychain r)
    rwa [ProfileWorld.setSecret_setSecret, ProfileWorld.setSecret_same rfl] at undone
  · have kept := calm.secrets h own
    rw [ProfileWorld.setSecret_keychain] at kept
    rw [ProfileWorld.setSecret_setSecret, ProfileWorld.setSecret_same kept]

theorem back_update {v w : ProfileWorld Contents ι} {update : Option SecretUpdate} (h : R (v.setUpdate update) w)
    (own : ∀ u, update = some u → Owns profileId u.secretRef) : ∃ v', R v v' ∧ w = v'.setUpdate update := by
  cases update with
  | none => exact ⟨w, h, rfl⟩
  | some u => exact calm.back h (own u rfl)

end Undisturbed

/-- The operations that a call on a profile, made in `start`, puts, and the world each is put in. -/
inductive Puts (codec : ProfilesCodec Contents) (i : ι) (R : ProfileWorld Contents ι → ProfileWorld Contents ι → Prop)
    (profileId : ProfileId) (start : ProfileWorld Contents ι) : ProfileOp → ProfileWorld Contents ι → Prop
  | store (w : ProfileWorld Contents ι) : Puts codec i R profileId start .store w
  | load {r : SecretRef} (w : ProfileWorld Contents ι) : Owns profileId r → Puts codec i R profileId start (.keychainLoad r) w
  | replace {r : SecretRef} (secret : String) (w : ProfileWorld Contents ι) : Owns profileId r →
      Puts codec i R profileId start (.keychainStore r secret) w
  | rollback {r : SecretRef} {b : ProfileWorld Contents ι} (secret : String) : Owns profileId r → R start b →
      Puts codec i R profileId start (.keychainRollback r (b.keychain r)) (b.setSecret r (some secret))
  | clean {r : SecretRef} {w : ProfileWorld Contents ι} : Owns profileId r →
      (∀ profile, w.entry codec profileId = some profile → r ∉ secretRefsForAuth profile.auth) →
      Puts codec i R profileId start (.keychainDelete r) w
  | save {request : ProfileSaveRequest} {resolved : ResolvedProfileAuth} {b : ProfileWorld Contents ι} :
      request.profileId = profileId → R start b → resolveAuth request ((b.stores i).findProfile profileId) = .ok resolved →
      Puts codec i R profileId start (.commitTransaction (.save (requestedProfile request resolved.auth)))
        (b.setUpdate resolved.secretUpdate)
  | delete {b : ProfileWorld Contents ι} : R start b → (b.stores i).findProfile profileId ≠ none →
      Puts codec i R profileId start (.commitTransaction (.delete profileId)) b

theorem resolveAuth_owns {request : ProfileSaveRequest} {previous : Option ConnectionProfile} {resolved : ResolvedProfileAuth}
    (h : resolveAuth request previous = .ok resolved) :
    ∀ u, resolved.secretUpdate = some u → Owns request.profileId u.secretRef := by
  intro u update
  unfold resolveAuth at h
  split at h
  · split at h
    · cases h
      cases update
      exact ⟨_, rfl⟩
    · split at h <;> cases h
      cases update
  · split at h
    · split at h <;> cases h <;> cases update
    · cases h
      cases update
    · cases h
      cases update
    · cases h
      cases update
      exact ⟨_, rfl⟩
  · cases h
    cases update
  · cases h
    cases update

theorem resolveAuth_error {request : ProfileSaveRequest} {previous : Option ConnectionProfile} {storage : StorageError}
    {rollback : KeychainError} : resolveAuth request previous ≠ .error (.storageRollback storage rollback) := by
  intro h
  unfold resolveAuth at h
  repeat' split at h
  all_goals cases h

theorem resolveAuth_refs {request : ProfileSaveRequest} {previous : Option ConnectionProfile} {resolved : ResolvedProfileAuth}
    (h : resolveAuth request previous = .ok resolved) {r : SecretRef} (mem : r ∈ secretRefsForAuth resolved.auth) :
    (∃ u, resolved.secretUpdate = some u ∧ u.secretRef = r) ∨ ∃ profile, previous = some profile ∧
      r ∈ secretRefsForAuth profile.auth := by
  have kept : ∀ {auth : AuthMethod}, previous.map ConnectionProfile.auth = some auth → r ∈ secretRefsForAuth auth →
      ∃ profile, previous = some profile ∧ r ∈ secretRefsForAuth profile.auth := by
    intro auth same mem
    obtain ⟨profile, rfl, rfl⟩ := Option.map_eq_some_iff.mp same
    exact ⟨profile, rfl, mem⟩
  unfold resolveAuth at h
  split at h
  · split at h
    · cases h
      exact Or.inl ⟨_, rfl, (List.mem_singleton.mp mem).symm⟩
    · split at h
      · rename_i found
        cases h
        exact Or.inr (kept found mem)
      · cases h
  · split at h
    · split at h
      · rename_i found
        cases h
        exact Or.inr (kept found mem)
      · cases h
        exact absurd mem List.not_mem_nil
    · cases h
      exact absurd mem List.not_mem_nil
    · cases h
      exact absurd mem List.not_mem_nil
    · cases h
      exact Or.inl ⟨_, rfl, (List.mem_singleton.mp mem).symm⟩
  · cases h
    exact absurd mem List.not_mem_nil
  · cases h
    exact absurd mem List.not_mem_nil

theorem resolveAuth_update {request : ProfileSaveRequest} {previous : Option ConnectionProfile} {resolved : ResolvedProfileAuth}
    (h : resolveAuth request previous = .ok resolved) {u : SecretUpdate} (update : resolved.secretUpdate = some u) :
    u.secretRef ∈ secretRefsForAuth resolved.auth := by
  unfold resolveAuth at h
  split at h
  · split at h
    · cases h
      cases update
      exact List.mem_singleton_self _
    · split at h <;> cases h
      cases update
  · split at h
    · split at h <;> cases h <;> cases update
    · cases h
      cases update
    · cases h
      cases update
    · cases h
      cases update
      exact List.mem_singleton_self _
  · cases h
    cases update
  · cases h
    cases update

theorem orphans_owns {file : ProfilesFile} (valid : file.Valid) (profileId : ProfileId) (current : AuthMethod) :
    ∀ r ∈ orphans (file.findProfile profileId) current, Owns profileId r := by
  intro r mem
  cases found : file.findProfile profileId with
  | none =>
    rw [found] at mem
    exact absurd mem List.not_mem_nil
  | some previous =>
    rw [found] at mem
    obtain ⟨stored, named⟩ := ProfilesFile.findProfile_some found
    rw [← named]
    exact valid.owns previous stored r (List.mem_filter.mp mem).1

theorem orphans_free {previous : Option ConnectionProfile} {current : AuthMethod} :
    ∀ r ∈ orphans previous current, r ∉ secretRefsForAuth current := by
  intro r mem
  cases previous with
  | none => exact absurd mem List.not_mem_nil
  | some previous =>
    have kept := (List.mem_filter.mp mem).2
    simpa using kept

/-- The environment lets the rollback of a secret fail. -/
def RollbackFails (does : (op : ProfileOp) → op.Ans → ProfileWorld Contents ι → ProfileWorld Contents ι → Prop) : Prop :=
  ∃ secretRef previous error before after, does (.keychainRollback secretRef previous) (.error error) before after

/-- What a save comes to when it is seen as one step. -/
inductive SaveEffect [DecidableEq ι] (codec : ProfilesCodec Contents) (i : ι)
    (does : (op : ProfileOp) → op.Ans → ProfileWorld Contents ι → ProfileWorld Contents ι → Prop) (request : ProfileSaveRequest) :
    Except ProfileMutationError ProfileSaveOutcome → ProfileWorld Contents ι → ProfileWorld Contents ι → Prop
  | refused (error : ProfileMutationError) (w : ProfileWorld Contents ι) :
      (∀ storage rollback, error ≠ .storageRollback storage rollback) → SaveEffect codec i does request (.error error) w w
  | rollbackFailed {resolved : ResolvedProfileAuth} {update : SecretUpdate} (storage : StorageError) (rollback : KeychainError)
      (w : ProfileWorld Contents ι) : RollbackFails does →
      resolveAuth request ((w.stores i).findProfile request.profileId) = .ok resolved → resolved.secretUpdate = some update →
      SaveEffect codec i does request (.error (.storageRollback storage rollback)) w
        (w.setSecret update.secretRef (some update.secret))
  | saved {resolved : ResolvedProfileAuth} {store : ProfileStore} {disk : Option Contents} {warnings : List StorageWarning}
      {profile : ConnectionProfile} {errors : List KeychainError} {gone : List SecretRef} (w : ProfileWorld Contents ι) :
      resolveAuth request ((w.stores i).findProfile request.profileId) = .ok resolved →
      Commits codec (w.stores i) w.disk (.save (requestedProfile request resolved.auth)) (.ok (.committed warnings)) store disk →
      store.findProfile request.profileId = some profile → profile.auth = resolved.auth →
      gone ⊆ orphans ((w.stores i).findProfile request.profileId) profile.auth →
      (errors = [] → gone = orphans ((w.stores i).findProfile request.profileId) profile.auth) →
      SaveEffect codec i does request (.ok ⟨profile, warnings ++ errors.map .keychain⟩) w
        (((w.setUpdate resolved.secretUpdate).setStore i store disk).forget gone)

/-- What a delete comes to when it is seen as one step. -/
inductive DeleteEffect [DecidableEq ι] (codec : ProfilesCodec Contents) (i : ι) (profileId : ProfileId) :
    Except ProfileMutationError ProfileDeleteOutcome → ProfileWorld Contents ι → ProfileWorld Contents ι → Prop
  | absent (w : ProfileWorld Contents ι) : (w.stores i).findProfile profileId = none →
      DeleteEffect codec i profileId (.ok ⟨false, []⟩) w w
  | refused (error : ProfileMutationError) (w : ProfileWorld Contents ι) :
      (∀ storage rollback, error ≠ .storageRollback storage rollback) → DeleteEffect codec i profileId (.error error) w w
  | deleted {previous : ConnectionProfile} {outcome : TransactionOutcome} {store : ProfileStore} {disk : Option Contents}
      {errors : List KeychainError} {gone : List SecretRef} (w : ProfileWorld Contents ι) :
      (w.stores i).findProfile profileId = some previous →
      Commits codec (w.stores i) w.disk (.delete profileId) (.ok outcome) store disk →
      gone ⊆ secretRefsForAuth previous.auth → (errors = [] → gone = secretRefsForAuth previous.auth) →
      DeleteEffect codec i profileId (.ok ⟨true, errors⟩) w ((w.setStore i store disk).forget gone)

section Safe

variable [DecidableEq ι] {profileId : ProfileId} {R : ProfileWorld Contents ι → ProfileWorld Contents ι → Prop}
    (calm : Undisturbed codec i profileId R)
  {does : (op : ProfileOp) → op.Ans → ProfileWorld Contents ι → ProfileWorld Contents ι → Prop}
  (real : ∀ op answer w w', does op answer w w' → ProfileOp.Does codec i op answer w w')
  {Good : Asked (ProfileWorld Contents ι) ProfileOp ProfileOp.Ans → Prop} {start : ProfileWorld Contents ι}
  (good : ∀ op before answer after, Puts codec i R profileId start op before → does op answer before after →
    Good ⟨before, op, answer, after⟩)

include calm real good

theorem safe_deleteSecrets (refs : List SecretRef) (own : ∀ r ∈ refs, Owns profileId r) {c w : ProfileWorld Contents ι}
    (free : ∀ r ∈ refs, ∀ profile, c.entry codec profileId = some profile → r ∉ secretRefsForAuth profile.auth)
    (between : R c w) :
    (deleteSecrets refs).Safe R does Good (fun result w' => ∃ errors gone, result = .ok errors ∧ gone ⊆ refs ∧
      (errors = [] → gone = refs) ∧ R (c.forget gone) w') w := by
  induction refs generalizing c w with
  | nil => exact ⟨[], [], rfl, List.nil_subset _, fun _ => rfl, between⟩
  | cons r rest ih =>
    obtain ⟨first, others⟩ := List.forall_mem_cons.mp own
    obtain ⟨unused, free⟩ := List.forall_mem_cons.mp free
    apply Program.safe_ask
    intro before answer after passed step
    have now := calm.trans between passed
    refine ⟨good _ before answer after (.clean first ?_) step, ?_⟩
    · rw [calm.entry now]
      exact unused
    rcases real _ _ _ _ step with ⟨rfl, rfl⟩ | ⟨⟨error, rfl⟩, rfl⟩
    · apply Program.safe_bind (ih (c := c.setSecret r none) others free (calm.frame now first none))
      · rintro errors w' ⟨_, gone, ⟨⟩, sub, all, left⟩
        exact ⟨errors, r :: gone, rfl, List.cons_subset_cons r sub, fun none => congrArg (r :: ·) (all none), left⟩
      · rintro _ w' ⟨errors, gone, ⟨⟩, _⟩
    · apply Program.safe_bind (ih others free now)
      · rintro errors w' ⟨_, gone, ⟨⟩, sub, all, left⟩
        exact ⟨error :: errors, gone, rfl, fun x hx => List.mem_cons_of_mem r (sub hx), by simp, left⟩
      · rintro _ w' ⟨errors, gone, ⟨⟩, _⟩

omit [DecidableEq ι] calm real good in
theorem safe_lift {ε α β : Type} {wrap : ε → ProfileMutationError} {result : Except ε α} {f : α → ProfileProgram β}
    {Post : Except ProfileMutationError β → ProfileWorld Contents ι → Prop} {w : ProfileWorld Contents ι}
    (ok : ∀ a, result = .ok a → (f a).Safe R does Good Post w) (error : ∀ e, result = .error e → Post (.error (wrap e)) w) :
    (lift wrap result >>= f).Safe R does Good Post w := by
  cases result with
  | ok a => exact ok a rfl
  | error e => exact error e rfl

theorem safe_replaceSecret {update : Option SecretUpdate} (own : ∀ u, update = some u → Owns profileId u.secretRef)
    {w : ProfileWorld Contents ι} (between : R start w) :
    (replaceSecret update).Safe R does Good (Program.ends
      (fun previous w' => ∃ v, R start v ∧ w' = v.setUpdate update ∧ ∀ u, update = some u → previous = v.keychain u.secretRef)
      (fun error w' => R start w' ∧ ∃ keychain, error = .keychain keychain)) w := by
  cases update with
  | none => exact ⟨w, between, rfl, fun u never => by cases never⟩
  | some u =>
    apply Program.safe_ask
    intro before answer after passed step
    refine ⟨good _ before answer after (.load before (own u rfl)) step, ?_⟩
    obtain ⟨answered, rfl⟩ := real _ _ _ _ step
    have now := calm.trans between passed
    apply safe_lift
    · rintro previous loaded
      apply Program.safe_ask
      intro before' answer' after' later step'
      refine ⟨good _ before' answer' after' (.replace u.secret before' (own u rfl)) step', ?_⟩
      rcases real _ _ _ _ step' with ⟨rfl, rfl⟩ | ⟨⟨error, rfl⟩, rfl⟩
      · refine ⟨before', calm.trans now later, rfl, ?_⟩
        rintro _ ⟨⟩
        rcases answered with rfl | ⟨error, rfl⟩
        · cases loaded
          exact (calm.secrets later (own u rfl)).symm
        · cases loaded
      · exact ⟨calm.trans now later, error, rfl⟩
    · rintro error rfl
      exact ⟨now, error, rfl⟩

theorem safe_restoreSecret {update : Option SecretUpdate} (own : ∀ u, update = some u → Owns profileId u.secretRef)
    {v : ProfileWorld Contents ι} {previous : Option String} (storage : StorageError) (between : R start v)
    (loaded : ∀ u, update = some u → previous = v.keychain u.secretRef) :
    (restoreSecret storage previous update).Safe R does Good (Program.ends (fun _ _ => False)
      (fun error w' => error = .storage storage ∧ R start w' ∨
        ∃ u rollback b, update = some u ∧ error = .storageRollback storage rollback ∧ RollbackFails does ∧ R start b ∧
          w' = b.setSecret u.secretRef (some u.secret))) (v.setUpdate update) := by
  cases update with
  | none => exact Or.inl ⟨rfl, between⟩
  | some u =>
    apply Program.safe_ask
    intro before answer after passed step
    obtain ⟨b, now, rfl⟩ := calm.back passed (own u rfl)
    have known : b.keychain u.secretRef = previous := by rw [loaded u rfl, calm.secrets now (own u rfl)]
    subst known
    refine ⟨good _ _ answer after (.rollback u.secret (own u rfl) (calm.trans between now)) step, ?_⟩
    rcases real _ _ _ _ step with ⟨rfl, rfl⟩ | ⟨⟨error, rfl⟩, rfl⟩
    · refine Or.inl ⟨rfl, ?_⟩
      rw [ProfileWorld.setSecret_setSecret, ProfileWorld.setSecret_same rfl]
      exact calm.trans between now
    · exact Or.inr ⟨u, error, b, rfl, rfl, ⟨_, _, _, _, _, step⟩, calm.trans between now, rfl⟩

theorem safe_finishSave {previous : Option ConnectionProfile} {warnings : List StorageWarning} {c : ProfileWorld Contents ι}
    {saved : ConnectionProfile} (found : (c.stores i).findProfile profileId = some saved)
    (stored : c.entry codec profileId = some saved) (own : ∀ r ∈ orphans previous saved.auth, Owns profileId r) :
    (finishSave profileId previous warnings).Safe R does Good (Program.ends
      (fun outcome w' => ∃ errors gone, outcome = ⟨saved, warnings ++ errors.map .keychain⟩ ∧
        gone ⊆ orphans previous saved.auth ∧ (errors = [] → gone = orphans previous saved.auth) ∧ R (c.forget gone) w')
      (fun _ _ => False)) c := by
  apply Program.safe_ask
  intro before answer after passed step
  refine ⟨good _ before answer after (.store before) step, ?_⟩
  obtain ⟨rfl, rfl⟩ := real _ _ _ _ step
  rw [calm.stores passed, found]
  have free : ∀ r ∈ orphans previous saved.auth, ∀ profile, c.entry codec profileId = some profile →
      r ∉ secretRefsForAuth profile.auth := by
    intro r mem profile same
    rw [stored] at same
    cases same
    exact orphans_free r mem
  apply Program.safe_bind (safe_deleteSecrets calm real good _ own free passed)
  · rintro errors w' ⟨_, gone, ⟨⟩, sub, all, left⟩
    exact ⟨errors, gone, rfl, sub, all, left⟩
  · rintro _ w' ⟨errors, gone, ⟨⟩, _⟩

omit calm real good in
theorem commits_save {store store' : ProfileStore} {disk disk' : Option Contents} {profile : ConnectionProfile}
    {answer : Except StorageError TransactionOutcome} (h : Commits codec store disk (.save profile) answer store' disk') :
    (∃ error, answer = .error error ∧ store' = store ∧ disk' = disk) ∨
      ∃ warnings saved, answer = .ok (.committed warnings) ∧ store'.findProfile profile.id = some saved ∧
        saved.auth = profile.auth := by
  cases h with
  | failed error _ => exact Or.inl ⟨error, rfl, rfl, rfl⟩
  | unchanged _ applied =>
    obtain ⟨changed, saved, never, _⟩ := apply_save applied
    cases never
  | committed warnings _ applied _ =>
    obtain ⟨changed, saved, same, auth, found, _⟩ := apply_save applied
    cases same
    exact Or.inr ⟨warnings, saved, rfl, found, auth⟩

theorem safe_saveRequest {request : ProfileSaveRequest} (named : request.profileId = profileId)
    (valid : (start.stores i).profiles.Valid) :
    (saveRequest request).Safe R does Good
      (fun result w' => ∃ b c, R start b ∧ SaveEffect codec i does request result b c ∧ R c w') start := by
  subst named
  have refuse : ∀ error v, (∀ storage rollback, error ≠ .storageRollback storage rollback) → R start v →
      ∃ b c, R start b ∧ SaveEffect codec i does request (.error error) b c ∧ R c v :=
    fun error v kind between => ⟨v, v, between, .refused error v kind, calm.refl v⟩
  apply Program.safe_ask
  intro w answer after now step
  refine ⟨good _ w answer after (.store w) step, ?_⟩
  obtain ⟨rfl, rfl⟩ := real _ _ _ _ step
  apply safe_lift
  · intro _ _
    apply safe_lift
    · intro _ _
      apply safe_lift
      · intro resolved resolves
        have own := resolveAuth_owns resolves
        apply Program.safe_bind (safe_replaceSecret calm real good own now)
        · rintro previous _ ⟨v, reached, rfl, loaded⟩
          apply Program.safe_ask
          intro before answer' after' between step'
          obtain ⟨b, later, rfl⟩ := calm.back_update between own
          have until_commit := calm.trans reached later
          have snapshot : b.stores i = after.stores i := by rw [calm.stores until_commit, calm.stores now]
          rw [← snapshot] at resolves
          refine ⟨good _ _ answer' after' (.save rfl until_commit resolves) step', ?_⟩
          obtain ⟨store, disk, committed, rfl⟩ := does_commit (real _ _ _ _ step')
          rw [ProfileWorld.setUpdate_stores, ProfileWorld.setUpdate_disk] at committed
          rcases commits_save committed with ⟨error, rfl, rfl, rfl⟩ | ⟨warnings, saved, rfl, found, auth⟩
          · have still : (b.setUpdate resolved.secretUpdate).setStore i (b.stores i) b.disk =
              b.setUpdate resolved.secretUpdate := by
              rw [← ProfileWorld.setUpdate_stores (w := b) resolved.secretUpdate,
                ← ProfileWorld.setUpdate_disk (w := b) resolved.secretUpdate, ProfileWorld.setStore_same]
            rw [still]
            have known : ∀ u, resolved.secretUpdate = some u → previous = b.keychain u.secretRef := by
              intro u update
              rw [loaded u update, calm.secrets later (own u update)]
            refine (safe_restoreSecret calm real good own error until_commit known).mono (fun _ good => good) ?_
            rintro (failure | outcome) w' ended
            · rcases ended with ⟨rfl, back⟩ | ⟨u, rollback, c, update, rfl, fails, reach, rfl⟩
              · exact refuse _ _ (by simp) back
              · refine ⟨c, _, reach, .rollbackFailed error rollback c fails ?_ update, calm.refl _⟩
                rw [calm.stores reach, ← calm.stores until_commit]
                exact resolves
            · exact ended.elim
          · have owned := orphans_owns (calm.stores now ▸ valid) request.profileId saved.auth
            obtain ⟨next, changed, _, _, reload, _, rfl⟩ := commits_committed committed
            have stored : ((b.setUpdate resolved.secretUpdate).setStore i { b.stores i with profiles := changed } disk).entry codec
                request.profileId = some saved := by
              rw [ProfileWorld.entry_of_load reload]
              exact found
            have here : ((((b.setUpdate resolved.secretUpdate).setStore i { b.stores i with profiles := changed } disk).stores
                i).findProfile request.profileId) = some saved := by
              rw [ProfileWorld.setStore_self]
              exact found
            refine (safe_finishSave calm real good here stored owned).mono (fun _ good => good) ?_
            rintro (failure | outcome) w' ended
            · exact ended.elim
            · obtain ⟨errors, gone, rfl, sub, all, left⟩ := ended
              refine ⟨b, _, until_commit, ?_, left⟩
              refine .saved b resolves committed found auth ?_ ?_
              · rw [snapshot]
                exact sub
              · rw [snapshot]
                exact all
        · rintro error w' ⟨reached, keychain, rfl⟩
          exact refuse _ _ (by simp) reached
      · intro error unresolved
        apply refuse _ _ _ now
        rintro storage rollback rfl
        exact resolveAuth_error unresolved
    · intro error _
      exact refuse _ _ (by simp) now
  · intro error _
    exact refuse _ _ (by simp) now

omit calm real good in
theorem commits_delete {store store' : ProfileStore} {disk disk' : Option Contents} {outcome : TransactionOutcome}
    (h : Commits codec store disk (.delete profileId) (.ok outcome) store' disk') :
    ∃ file, ProfilesFile.load codec disk' = .ok file ∧ file.findProfile profileId = none := by
  cases outcome with
  | unchanged =>
    cases h with
    | unchanged loaded applied =>
      obtain ⟨absent, _⟩ | ⟨_, never, _⟩ := apply_delete applied
      · exact ⟨_, loaded, absent⟩
      · cases never
  | committed warnings =>
    obtain ⟨next, changed, _, applied, reload, _, _⟩ := commits_committed h
    obtain ⟨_, never⟩ | ⟨_, same, _, gone, _⟩ := apply_delete applied
    · cases never
    · cases same
      exact ⟨changed, reload, gone⟩

theorem safe_deleteProfile (known : (start.stores i).findProfile profileId ≠ none) {w : ProfileWorld Contents ι}
    (between : R start w) :
    (deleteProfile profileId).Safe R does Good (Program.ends
      (fun _ w' => ∃ b outcome store disk, R start b ∧
        Commits codec (b.stores i) b.disk (.delete profileId) (.ok outcome) store disk ∧ w' = b.setStore i store disk)
      (fun error w' => R start w' ∧ ∃ storage, error = .storage storage)) w := by
  apply Program.safe_ask
  intro before answer after passed step
  refine ⟨good _ before answer after (.store before) step, ?_⟩
  obtain ⟨rfl, rfl⟩ := real _ _ _ _ step
  have now := calm.trans between passed
  apply safe_lift
  · intro _ _
    apply Program.safe_ask
    intro b answer' after' later step'
    have reached := calm.trans now later
    refine ⟨good _ b answer' after' (.delete reached (calm.stores reached ▸ known)) step', ?_⟩
    obtain ⟨store, disk, committed, rfl⟩ := does_commit (real _ _ _ _ step')
    apply safe_lift
    · rintro outcome rfl
      exact ⟨b, outcome, store, disk, reached, committed, rfl⟩
    · rintro error rfl
      cases committed
      rw [ProfileWorld.setStore_same]
      exact ⟨reached, error, rfl⟩
  · intro error _
    exact ⟨now, error, rfl⟩

theorem safe_deleteProfileAndCredentials (valid : (start.stores i).profiles.Valid) :
    (deleteProfileAndCredentials profileId).Safe R does Good
      (fun result w' => ∃ b c, R start b ∧ DeleteEffect codec i profileId result b c ∧ R c w') start := by
  apply Program.safe_ask
  intro before answer after now step
  refine ⟨good _ before answer after (.store before) step, ?_⟩
  obtain ⟨rfl, rfl⟩ := real _ _ _ _ step
  cases found : (after.stores i).findProfile profileId with
  | none => exact ⟨after, after, now, .absent after found, calm.refl after⟩
  | some previous =>
    have known : (start.stores i).findProfile profileId = some previous := by
      rw [← calm.stores now]
      exact found
    apply Program.safe_bind (safe_deleteProfile calm real good (by simp [known]) now)
    · rintro _ _ ⟨b, outcome, store, disk, reached, committed, rfl⟩
      have own : ∀ r ∈ secretRefsForAuth previous.auth, Owns profileId r := by
        obtain ⟨stored, named⟩ := ProfilesFile.findProfile_some known
        rw [← named]
        exact valid.owns previous stored
      have snapshot : (b.stores i).findProfile profileId = some previous := by
        rw [calm.stores reached]
        exact known
      have gone : (b.setStore i store disk).entry codec profileId = none := by
        obtain ⟨file, reload, absent⟩ := commits_delete committed
        rw [ProfileWorld.entry_of_load reload]
        exact absent
      apply Program.safe_bind (safe_deleteSecrets calm real good (secretRefsForAuth previous.auth) own ?_ (calm.refl _))
      · rintro errors w' ⟨_, gone, ⟨⟩, sub, all, left⟩
        exact ⟨b, _, reached, .deleted b snapshot committed sub all, left⟩
      · rintro _ w' ⟨errors, gone, ⟨⟩, _⟩
      · intro r _ profile never
        rw [gone] at never
        cases never
    · rintro error w' ⟨reached, storage, rfl⟩
      exact ⟨w', w', reached, .refused _ w' (by simp), calm.refl w'⟩

end Safe

def ProfileCall.profileId : ProfileCall → Option ProfileId
  | .openStore | .nextProfileId => none
  | .save request => some request.profileId
  | .delete profileId => some profileId

/-- What a call comes to when it is seen as one step. -/
inductive CallEffect [DecidableEq ι] (codec : ProfilesCodec Contents) (i : ι)
    (does : (op : ProfileOp) → op.Ans → ProfileWorld Contents ι → ProfileWorld Contents ι → Prop) :
    ProfileCall → Except ProfileMutationError ProfileAnswer → ProfileWorld Contents ι → ProfileWorld Contents ι → Prop
  | opened (w : ProfileWorld Contents ι) :
      CallEffect codec i does .openStore (.ok .opened) w (w.setStore i (.openOrEmpty codec (w.stores i).path w.disk) w.disk)
  | nextProfileId (w : ProfileWorld Contents ι) :
      CallEffect codec i does .nextProfileId (.ok (.nextProfileId (w.stores i).nextProfileId)) w w
  | save {request : ProfileSaveRequest} {result : Except ProfileMutationError ProfileSaveOutcome} {w w' : ProfileWorld Contents ι} :
      SaveEffect codec i does request result w w' → CallEffect codec i does (.save request) (result.map .saved) w w'
  | delete {profileId : ProfileId} {result : Except ProfileMutationError ProfileDeleteOutcome} {w w' : ProfileWorld Contents ι} :
      DeleteEffect codec i profileId result w w' → CallEffect codec i does (.delete profileId) (result.map .deleted) w w'

/-- The operations of a call, made in `start`, and the world each is put in. -/
def CallPuts (codec : ProfilesCodec Contents) (i : ι) (R : ProfileWorld Contents ι → ProfileWorld Contents ι → Prop)
    (call : ProfileCall) (start : ProfileWorld Contents ι) (op : ProfileOp) (w : ProfileWorld Contents ι) : Prop :=
  match call.profileId with
  | some profileId => Puts codec i R profileId start op w
  | none => op = .openOrEmpty ∨ op = .store

section Calls

variable [DecidableEq ι] {R : ProfileWorld Contents ι → ProfileWorld Contents ι → Prop}
  {does : (op : ProfileOp) → op.Ans → ProfileWorld Contents ι → ProfileWorld Contents ι → Prop}
  {Good : Asked (ProfileWorld Contents ι) ProfileOp ProfileOp.Ans → Prop} {start : ProfileWorld Contents ι}

omit [DecidableEq ι] in
theorem safe_map {α β : Type} {p : ProfileProgram α} {f : α → β}
    {E : Except ProfileMutationError α → ProfileWorld Contents ι → Prop}
    {Post : Except ProfileMutationError β → ProfileWorld Contents ι → Prop} {w : ProfileWorld Contents ι}
    (h : p.Safe R does Good E w) (ended : ∀ result w', E result w' → Post (result.map f) w') :
    (p >>= fun a => pure (f a)).Safe R does Good Post w :=
  Program.safe_bind h (fun a w' post => ended (.ok a) w' post) (fun e w' post => ended (.error e) w' post)

theorem safe_call (refl : ∀ w, R w w) (call : ProfileCall)
    (calm : ∀ profileId, call.profileId = some profileId → Undisturbed codec i profileId R)
    (real : ∀ op answer w w', does op answer w w' → ProfileOp.Does codec i op answer w w')
    (good : ∀ op before answer after, CallPuts codec i R call start op before → does op answer before after →
      Good ⟨before, op, answer, after⟩) (valid : (start.stores i).profiles.Valid) :
    call.program.Safe R does Good
      (fun result w' => ∃ b c, R start b ∧ CallEffect codec i does call result b c ∧ R c w') start := by
  cases call with
  | openStore =>
    apply Program.safe_ask
    intro before answer after between step
    refine ⟨good _ before answer after (Or.inl rfl) step, ?_⟩
    obtain rfl := real _ _ _ _ step
    exact ⟨before, _, between, .opened before, refl _⟩
  | nextProfileId =>
    apply Program.safe_ask
    intro before answer after between step
    refine ⟨good _ before answer after (Or.inr rfl) step, ?_⟩
    obtain ⟨rfl, rfl⟩ := real _ _ _ _ step
    exact ⟨after, _, between, .nextProfileId after, refl _⟩
  | save request =>
    apply safe_map (safe_saveRequest (calm request.profileId rfl) real good rfl valid)
    rintro result w' ⟨b, c, reached, effect, left⟩
    exact ⟨b, c, reached, .save effect, left⟩
  | delete profileId =>
    apply safe_map (safe_deleteProfileAndCredentials (calm profileId rfl) real good valid)
    rintro result w' ⟨b, c, reached, effect, left⟩
    exact ⟨b, c, reached, .delete effect, left⟩

theorem call_error {call : ProfileCall} {error : ProfileMutationError} {b c : ProfileWorld Contents ι}
    (effect : CallEffect codec i does call (.error error) b c) :
    c = b ∨ (∃ storage rollback, error = .storageRollback storage rollback) ∧ RollbackFails does := by
  generalize same : (.error error : Except ProfileMutationError ProfileAnswer) = result at effect
  cases effect with
  | opened => cases same
  | nextProfileId => exact Or.inl rfl
  | save effect =>
    cases effect with
    | refused => exact Or.inl rfl
    | rollbackFailed storage rollback _ fails =>
      cases same
      exact Or.inr ⟨⟨storage, rollback, rfl⟩, fails⟩
    | saved => cases same
  | delete effect =>
    cases effect with
    | absent => exact Or.inl rfl
    | refused => exact Or.inl rfl
    | deleted => cases same

end Calls

end MacSftp
