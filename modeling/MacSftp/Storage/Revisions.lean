import MacSftp.Lib.Revisions
import MacSftp.Storage.Consistency
import MacSftp.Storage.ProfileIds

namespace MacSftp

open Lib ProfileStore

variable {Contents : Type} {codec : ProfilesCodec Contents}

theorem saveProfile_revision {file changed : ProfilesFile} {profile saved stored : ConnectionProfile}
    (h : file.saveProfile profile = .ok (changed, saved)) (found : file.findProfile profile.id = some stored) :
    saved.revision = stored.revision + 1 := by
  rw [ProfilesFile.findProfile, List.find?_eq_bind_findIdx?_getElem?, Option.bind_eq_some_iff] at found
  obtain ⟨index, placed, here⟩ := found
  unfold ProfilesFile.saveProfile at h
  rw [placed] at h
  simp only [here] at h
  split at h
  · cases h
    rfl
  · cases h

theorem apply_revision {snapshot next changed : ProfilesFile} {profile saved stored : ConnectionProfile}
    (h : applyTransaction snapshot next (.save profile) = .ok (some changed)) (found : next.findProfile profile.id = some stored)
    (after : changed.findProfile profile.id = some saved) : saved.revision = stored.revision + 1 := by
  simp only [applyTransaction, found] at h
  split at h
  · cases h
  · obtain ⟨⟨file, profile'⟩, done, same⟩ := map_changedFile h
    cases same
    obtain ⟨_, entry, _⟩ := ProfilesFile.saveProfile_ok done
    rw [entry] at after
    cases after
    exact saveProfile_revision done found

/-- What a save does to the mark and to the revision of its profile. -/
theorem apply_saved {snapshot next changed : ProfilesFile} {profile : ConnectionProfile} (loaded : next.Loaded) (sound : next.Sound)
    (h : applyTransaction snapshot next (.save profile) = .ok (some changed)) (room : profile.id.raw + 1 < 2 ^ 64) :
    changed.Sound ∧ next.nextProfileHighWater ≤ changed.nextProfileHighWater ∧
      (next.findProfile profile.id = none → next.nextProfileHighWater ≤ profile.id.raw) ∧
      ∀ stored, next.findProfile profile.id = some stored →
        ∃ saved, changed.findProfile profile.id = some saved ∧ stored.revision < saved.revision := by
  obtain ⟨_, saved, same, _, after, others, _, kind⟩ := apply_save h
  cases same
  rcases kind with ⟨absent, above, moved⟩ | ⟨present, _, unmoved⟩
  · have water : changed.nextProfileHighWater = profile.id.raw + 1 := by
      rw [ProfilesFile.nextProfileHighWater, moved, succU64, Nat.mod_eq_of_lt room]
    refine ⟨?_, by omega, fun _ => above, fun stored found => ?_⟩
    · intro other found
      by_cases same : other = profile.id
      · subst same
        omega
      · rw [others other same] at found
        have below := sound other found
        omega
    · rw [absent] at found
      cases found
  · have water := water_unmoved loaded present unmoved
    refine ⟨?_, water.ge, fun absent => absurd absent present, fun stored found => ?_⟩
    · intro other found
      rw [water]
      by_cases same : other = profile.id
      · subst same
        exact sound _ present
      · exact sound other (others other same ▸ found)
    · have next_revision := apply_revision h found after
      exact ⟨saved, after, by omega⟩

/-- A profile with the secrets that belong to it. -/
abbrev ProfileRecord := ConnectionProfile × (String → Option String)

def ProfileRecord.revision (record : ProfileRecord) : Nat := record.1.revision

namespace ProfileWorld

variable (w : ProfileWorld Contents Unit)

def records : Records ProfileId ProfileRecord where
  find profileId := ((w.stores ()).findProfile profileId).map fun profile =>
    (profile, fun kind => w.keychain (.keychainRef profileId kind))
  mark := (w.stores ()).profiles.nextProfileHighWater

/-- What may have become of the profiles and their secrets. -/
abbrev Later (w w' : ProfileWorld Contents Unit) : Prop :=
  Records.Later ProfileId.raw ProfileRecord.revision w.records w'.records

variable {w}

theorem find_records {profileId : ProfileId} {record : ProfileRecord} :
    w.records.find profileId = some record ↔ ∃ profile, (w.stores ()).findProfile profileId = some profile ∧
      record = (profile, fun kind => w.keychain (.keychainRef profileId kind)) := by
  rw [records, Option.map_eq_some_iff]
  constructor
  · rintro ⟨profile, found, rfl⟩
    exact ⟨profile, found, rfl⟩
  · rintro ⟨profile, found, rfl⟩
    exact ⟨profile, found, rfl⟩

theorem records_none {profileId : ProfileId} : w.records.find profileId = none ↔ (w.stores ()).findProfile profileId = none := by
  simp only [records, Option.map_eq_none_iff]

theorem records_marked (sound : (w.stores ()).profiles.Sound) : w.records.Marked ProfileId.raw := by
  intro profileId found
  exact sound profileId fun absent => found (records_none.mpr absent)

end ProfileWorld

open ProfileWorld

/-- What is true of the only store between its calls. -/
structure StoreCurrent (codec : ProfilesCodec Contents) (path : String) (w : ProfileWorld Contents Unit) : Prop where
  fresh : Fresh codec path w
  sound : (w.stores ()).profiles.Sound

section Effects

variable {path : String} {w w' : ProfileWorld Contents Unit}

/-- A call changes one profile, and the secrets of no other. -/
structure Touches (profileId : ProfileId) (w w' : ProfileWorld Contents Unit) : Prop where
  find : ∀ other, other ≠ profileId → (w'.stores ()).findProfile other = (w.stores ()).findProfile other
  secrets : ∀ r, ¬Owns profileId r → w'.keychain r = w.keychain r

theorem Touches.records {profileId other : ProfileId} (touches : Touches profileId w w') (differ : other ≠ profileId) :
    w'.records.find other = w.records.find other := by
  have secrets : (fun kind => w'.keychain (.keychainRef other kind)) = fun kind => w.keychain (.keychainRef other kind) := by
    funext kind
    apply touches.secrets
    rintro ⟨kind', same⟩
    exact differ (keychainRef_inj same)
  simp only [ProfileWorld.records, touches.find other differ, secrets]

theorem setUpdate_secrets {update : Option SecretUpdate} {profileId : ProfileId} {r : SecretRef}
    (own : ∀ u, update = some u → Owns profileId u.secretRef) (foreign : ¬Owns profileId r) :
    (w.setUpdate update).keychain r = w.keychain r := by
  cases update with
  | none => rfl
  | some u =>
    refine setSecret_other _ ?_
    rintro rfl
    exact foreign (own u rfl)

theorem forget_secrets {gone : List SecretRef} {profileId : ProfileId} {r : SecretRef} (own : ∀ r ∈ gone, Owns profileId r)
    (foreign : ¬Owns profileId r) : (w.forget gone).keychain r = w.keychain r := by
  rw [forget_keychain, if_neg fun mem => foreign (own r mem)]

/-- The records of a store whose memory has been replaced, and whose secrets of one profile have been touched. -/
theorem touches_stored {profileId : ProfileId} (store : ProfileStore) (disk : Option Contents) (update : Option SecretUpdate)
    (gone : List SecretRef) (others : ∀ other, other ≠ profileId → store.findProfile other = (w.stores ()).findProfile other)
    (own : ∀ u, update = some u → Owns profileId u.secretRef) (cleaned : ∀ r ∈ gone, Owns profileId r) :
    Touches profileId w (((w.setUpdate update).setStore () store disk).forget gone) where
  find other differ := by
    rw [forget_stores, setStore_self]
    exact others other differ
  secrets r foreign := by
    rw [forget_secrets cleaned foreign, setStore_keychain]
    exact setUpdate_secrets own foreign

/-- What is left to show of a call that has touched one profile. -/
theorem later_touches {profileId : ProfileId} (touches : Touches profileId w w')
    (mark : (w.stores ()).profiles.nextProfileHighWater ≤ (w'.stores ()).profiles.nextProfileHighWater)
    (gone : (w.stores ()).findProfile profileId = none → profileId.raw < (w.stores ()).profiles.nextProfileHighWater →
      (w'.stores ()).findProfile profileId = none)
    (found : ∀ profile, (w.stores ()).findProfile profileId = some profile → (w'.stores ()).findProfile profileId = none ∨
      ∃ saved, (w'.stores ()).findProfile profileId = some saved ∧ profile.revision < saved.revision) : Later w w' where
  mark := mark
  gone other absent below := by
    by_cases same : other = profileId
    · subst same
      exact records_none.mpr (gone (records_none.mp absent) below)
    · rw [touches.records same]
      exact absent
  found other record here := by
    by_cases same : other = profileId
    · subst same
      obtain ⟨profile, stored, rfl⟩ := find_records.mp here
      rcases found profile stored with absent | ⟨saved, stored', older⟩
      · exact Or.inl (records_none.mpr absent)
      · exact Or.inr ⟨_, find_records.mpr ⟨saved, stored', rfl⟩, Or.inl older⟩
    · refine Or.inr ⟨record, ?_, Or.inr rfl⟩
      rw [touches.records same]
      exact here

theorem save_later (current : StoreCurrent codec path w)
    {does : (op : ProfileOp) → op.Ans → ProfileWorld Contents Unit → ProfileWorld Contents Unit → Prop}
    {request : ProfileSaveRequest} {result : Except ProfileMutationError ProfileSaveOutcome}
    (effect : SaveEffect codec () does request result w w') (room : request.profileId.raw + 1 < 2 ^ 64)
    (rolled : ∀ storage rollback, result ≠ .error (.storageRollback storage rollback)) :
    StoreCurrent codec path w' ∧ Later w w' := by
  cases effect with
  | refused error kind => exact ⟨current, .refl _⟩
  | rollbackFailed storage rollback => exact absurd rfl (rolled storage rollback)
  | @saved resolved store disk warnings profile errors gone _ resolves committed found auth sub all =>
    have owned := resolveAuth_owns resolves
    have cleaned : ∀ r ∈ gone, Owns request.profileId r := fun r mem =>
      orphans_owns (fresh_valid current.fresh) request.profileId profile.auth r (sub mem)
    have fresh := commit_fresh (w := w) current.fresh committed
    obtain ⟨next, changed, loaded, applied, reload, _, rfl⟩ := commits_committed committed
    have memory := fresh_loaded current.fresh loaded
    obtain ⟨_, _, same, _, _, others, _⟩ := apply_save applied
    cases same
    have sound : next.Sound := by
      have sound := current.sound
      rwa [memory] at sound
    obtain ⟨sound, mark, above, older⟩ := apply_saved (ProfilesFile.load_loaded loaded) sound applied room
    have touches := touches_stored (w := w) { w.stores () with profiles := changed } disk resolved.secretUpdate gone
      (fun other differ => by rw [fresh_find current.fresh loaded]; exact others other differ) owned cleaned
    have stores : (((w.setUpdate resolved.secretUpdate).setStore () { w.stores () with profiles := changed }
        disk).forget gone).stores () =
        { w.stores () with profiles := changed } := by rw [forget_stores, setStore_self]
    refine ⟨⟨?_, ?_⟩, later_touches touches ?_ ?_ ?_⟩
    · rw [Fresh, stores, forget_disk]
      rwa [Fresh, setStore_self] at fresh
    · rw [stores]
      exact sound
    · rw [stores, memory]
      exact mark
    · intro absent below
      rw [fresh_find current.fresh loaded] at absent
      rw [memory] at below
      exact absurd below (Nat.not_lt.mpr (above absent))
    · intro profile known
      rw [fresh_find current.fresh loaded] at known
      rw [stores]
      exact Or.inr (older profile known)

theorem delete_later (current : StoreCurrent codec path w) {profileId : ProfileId}
    {result : Except ProfileMutationError ProfileDeleteOutcome}
    (effect : DeleteEffect codec () profileId result w w') : StoreCurrent codec path w' ∧ Later w w' := by
  cases effect with
  | absent _ => exact ⟨current, .refl _⟩
  | refused error kind => exact ⟨current, .refl _⟩
  | @deleted previous outcome store disk errors gone _ known committed sub all =>
    have cleaned : ∀ r ∈ gone, Owns profileId r := by
      intro r mem
      obtain ⟨stored, rfl⟩ := ProfilesFile.findProfile_some known
      exact (fresh_valid current.fresh).owns previous stored r (sub mem)
    have fresh := commit_fresh current.fresh committed
    cases outcome with
    | unchanged =>
      exfalso
      cases committed with
      | unchanged loaded applied =>
        rw [fresh_find current.fresh loaded] at known
        rcases apply_delete applied with ⟨absent, _⟩ | ⟨_, never, _⟩
        · rw [absent] at known
          cases known
        · cases never
    | committed warnings =>
      obtain ⟨next, changed, loaded, applied, reload, _, rfl⟩ := commits_committed committed
      have memory := fresh_loaded current.fresh loaded
      obtain ⟨_, never⟩ | ⟨_, same, present, absent, others, _, unmoved⟩ := apply_delete applied
      · cases never
      cases same
      have water := water_unmoved (ProfilesFile.load_loaded loaded) present unmoved
      have touches := touches_stored (w := w) { w.stores () with profiles := changed } disk none gone
        (fun other differ => by rw [fresh_find current.fresh loaded]; exact others other differ)
        (fun u never => by cases never) cleaned
      have stores : ((w.setStore () { w.stores () with profiles := changed } disk).forget gone).stores () =
          { w.stores () with profiles := changed } := by rw [forget_stores, setStore_self]
      refine ⟨⟨?_, ?_⟩, later_touches touches ?_ ?_ ?_⟩
      · rw [Fresh, stores, forget_disk]
        rwa [Fresh, setStore_self] at fresh
      · rw [stores]
        intro other found
        have sound := current.sound other
        rw [memory] at sound
        rw [water]
        by_cases same : other = profileId
        · subst same
          exact absurd absent found
        · exact sound (others other same ▸ found)
      · change _ ≤ (((w.setStore ()
          { w.stores () with profiles := changed } disk).forget gone).stores ()).profiles.nextProfileHighWater
        rw [stores, memory]
        exact water.ge
      · intro _ _
        change (((w.setStore () { w.stores () with profiles := changed } disk).forget gone).stores ()).findProfile profileId = none
        rw [stores]
        exact absent
      · intro profile _
        change (((w.setStore () { w.stores () with profiles := changed } disk).forget gone).stores ()).findProfile
            profileId = none ∨ _
        rw [stores]
        exact Or.inl absent

theorem call_later (current : StoreCurrent codec path w)
    {does : (op : ProfileOp) → op.Ans → ProfileWorld Contents Unit → ProfileWorld Contents Unit → Prop} {call : ProfileCall}
    {result : Except ProfileMutationError ProfileAnswer} (effect : CallEffect codec () does call result w w')
    (room : ∀ request, call = .save request → request.profileId.raw + 1 < 2 ^ 64)
    (rolled : ∀ storage rollback, result ≠ .error (.storageRollback storage rollback)) :
    StoreCurrent codec path w' ∧ Later w w' := by
  cases effect with
  | opened =>
    have fresh := current.fresh
    have samePath : (w.stores ()).path = path := by
      rw [fresh, openOrEmpty]
      split <;> rfl
    have same : w.setStore () (.openOrEmpty codec (w.stores ()).path w.disk) w.disk = w := by
      rw [samePath, ← fresh, setStore_same]
    rw [same]
    exact ⟨current, .refl _⟩
  | nextProfileId => exact ⟨current, .refl _⟩
  | @save request result _ _ effect =>
    refine save_later current effect (room request rfl) ?_
    rintro storage rollback rfl
    exact rolled storage rollback rfl
  | delete effect => exact delete_later current effect

end Effects

end MacSftp
