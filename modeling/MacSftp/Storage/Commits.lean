import Mathlib.Data.List.Pairwise
import Mathlib.Data.List.TakeWhile
import MacSftp.Storage.Profiles

namespace MacSftp

theorem digits_before_colon (n : Nat) (rest : List Char) :
    (Nat.toDigits 10 n ++ ':' :: rest).takeWhile (fun ch => ch != ':') = Nat.toDigits 10 n := by
  have noColon : ∀ ch ∈ Nat.toDigits 10 n, (ch != ':') = true := by
    intro ch mem
    have digit := Nat.isDigit_of_mem_toDigits (by decide) (by decide) mem
    rw [bne_iff_ne]
    rintro rfl
    exact absurd digit (by decide)
  rw [List.takeWhile_append_of_pos noColon]
  simp

theorem keychainRef_toList (profileId : ProfileId) (kind : String) :
    (SecretRef.keychainRef profileId kind).value.toList =
      "keychain:macsftp:".toList ++ (Nat.toDigits 10 profileId.raw ++ ':' :: kind.toList) := by
  have parts : (SecretRef.keychainRef profileId kind).value =
      "keychain:macsftp:" ++ toString profileId.raw ++ ":" ++ kind := rfl
  have colon : ":".toList = [':'] := by simp
  rw [parts]
  generalize "keychain:macsftp:" = lead
  rw [String.toList_append, String.toList_append, String.toList_append, colon, Nat.toString_eq_repr, Nat.toList_repr,
    List.append_assoc, List.append_assoc, List.singleton_append]

theorem keychainRef_inj {a b : ProfileId} {kind kind' : String} (h : SecretRef.keychainRef a kind = SecretRef.keychainRef b kind') :
    a = b := by
  have texts := congrArg (fun r : SecretRef => r.value.toList) h
  simp only [keychainRef_toList, List.append_cancel_left_eq] at texts
  have digits := congrArg (fun l : List Char => l.takeWhile (fun ch => ch != ':')) texts
  simp only [digits_before_colon] at digits
  have raws := congrArg (fun l : List Char => Nat.ofDigitChars 10 l 0) digits
  simp only [Nat.ofDigitChars_ten_toDigits] at raws
  cases a
  cases b
  cases raws
  rfl

/-- The Keychain entries that belong to a profile. -/
def Owns (profileId : ProfileId) (secretRef : SecretRef) : Prop := ∃ kind, secretRef = SecretRef.keychainRef profileId kind

theorem owns_unique {a b : ProfileId} {secretRef : SecretRef} (ha : Owns a secretRef) (hb : Owns b secretRef) : a = b := by
  obtain ⟨kind, rfl⟩ := ha
  obtain ⟨kind', same⟩ := hb
  exact keychainRef_inj same

namespace ProfilesFile

theorem validateFrom_congr {f g : ProfilesFile} (same : f.profiles = g.profiles) (profiles : List ConnectionProfile) :
    f.validateFrom profiles = g.validateFrom profiles := by
  have route : f.validateRoute = g.validateRoute := by
    funext profile
    simp only [validateRoute, findProfile, same]
  have profile : f.validateProfile = g.validateProfile := by
    funext profile
    simp only [validateProfile, route]
  induction profiles with
  | nil => rfl
  | cons first rest ih => simp only [validateFrom, profile, ih]

theorem validate_congr {f g : ProfilesFile} (same : f.profiles = g.profiles) : f.validate = g.validate := by
  rw [validate, validate, same]
  exact validateFrom_congr same _

theorem validateFrom_ok {file : ProfilesFile} {profiles : List ConnectionProfile} (h : file.validateFrom profiles = .ok ()) :
    profiles.Pairwise (fun a b => a.id ≠ b.id) ∧ ∀ profile ∈ profiles, file.validateProfile profile = .ok () := by
  induction profiles with
  | nil => exact ⟨List.Pairwise.nil, fun profile never => absurd never List.not_mem_nil⟩
  | cons first rest ih =>
    rw [validateFrom] at h
    split at h
    · cases h
    · rename_i alone
      cases valid : file.validateProfile first with
      | error error =>
        rw [valid] at h
        cases h
      | ok _ =>
        rw [valid] at h
        obtain ⟨apart, all⟩ := ih h
        refine ⟨List.pairwise_cons.mpr ⟨?_, apart⟩, List.forall_mem_cons.mpr ⟨valid, all⟩⟩
        intro other mem same
        have none := List.find?_eq_none.mp alone other mem
        simp [same] at none

theorem checkRef_ok {profileId : ProfileId} {secretRef : SecretRef} {kind : String}
    (h : checkRef profileId secretRef kind = .ok ()) :
    secretRef = SecretRef.keychainRef profileId kind := by
  by_contra differ
  simp [checkRef, differ] at h

theorem validateAuth_ok {auth : AuthMethod} {profileId : ProfileId} (h : validateAuth auth profileId = .ok ()) :
    ∀ secretRef ∈ secretRefsForAuth auth, Owns profileId secretRef := by
  intro secretRef mem
  cases auth with
  | password stored =>
    rw [secretRefsForAuth, List.mem_singleton] at mem
    subst mem
    exact ⟨_, checkRef_ok h⟩
  | privateKey keyPath hasPassphrase passphraseRef =>
    cases passphraseRef with
    | none => exact absurd mem List.not_mem_nil
    | some stored =>
      rw [secretRefsForAuth, Option.toList_some, List.mem_singleton] at mem
      subst mem
      cases checked : checkRef profileId secretRef "passphrase" with
      | ok _ => exact ⟨_, checkRef_ok checked⟩
      | error error =>
        simp only [validateAuth, checked] at h
        cases h
  | keyboardInteractive => exact absurd mem List.not_mem_nil
  | sshAgent socketPath => exact absurd mem List.not_mem_nil

theorem validateProfile_auth {file : ProfilesFile} {profile : ConnectionProfile} (h : file.validateProfile profile = .ok ()) :
    validateAuth profile.auth profile.id = .ok () := by
  cases checked : validateAuth profile.auth profile.id with
  | ok _ => rfl
  | error error =>
    exfalso
    unfold validateProfile at h
    rw [checked] at h
    repeat' split at h
    all_goals cases h

/-- What a validated file promises to the store: its profiles differ in their ids and refer to their own secrets. -/
structure Valid (file : ProfilesFile) : Prop where
  unique : file.profiles.Pairwise (fun a b => a.id ≠ b.id)
  owns : ∀ profile ∈ file.profiles, ∀ secretRef ∈ secretRefsForAuth profile.auth, Owns profile.id secretRef

theorem valid_of_validate {file : ProfilesFile} (h : file.validate = .ok ()) : file.Valid := by
  obtain ⟨unique, all⟩ := validateFrom_ok h
  exact ⟨unique, fun profile mem => validateAuth_ok (validateProfile_auth (all profile mem))⟩

theorem findProfile_some {file : ProfilesFile} {profileId : ProfileId} {profile : ConnectionProfile}
    (found : file.findProfile profileId = some profile) : profile ∈ file.profiles ∧ profile.id = profileId := by
  refine ⟨List.mem_of_find?_eq_some found, ?_⟩
  have named := List.find?_some found
  simpa using named

theorem Valid.find {file : ProfilesFile} (valid : file.Valid) {profile : ConnectionProfile} (mem : profile ∈ file.profiles) :
    file.findProfile profile.id = some profile := by
  cases found : file.findProfile profile.id with
  | none =>
    have absent := List.find?_eq_none.mp found profile mem
    simp at absent
  | some other =>
    obtain ⟨mem', same⟩ := findProfile_some found
    by_contra differ
    have symm : Std.Symm (fun a b : ConnectionProfile => a.id ≠ b.id) := ⟨fun _ _ apart => apart.symm⟩
    exact valid.unique.forall mem' mem (fun h => differ (congrArg some h)) same

/-- What `load` gives. -/
structure Loaded (file : ProfilesFile) : Prop where
  validated : file.validate = .ok ()
  version : file.version = currentVersion
  marked : file.nextProfileId = none → file = .new

section Load

variable {Contents : Type} {codec : ProfilesCodec Contents}

theorem accept_loaded {parsed file : ProfilesFile} (h : parsed.accept = .ok file) : file.Loaded := by
  unfold accept at h
  split at h
  · cases h
  · split at h
    · cases h
    · rename_i valid
      cases h
      refine ⟨?_, rfl, fun never => absurd never (by simp)⟩
      rw [← valid]
      exact validate_congr rfl

theorem load_loaded {disk : Option Contents} {file : ProfilesFile} (h : load codec disk = .ok file) : file.Loaded := by
  cases disk with
  | none =>
    cases h
    exact ⟨rfl, rfl, fun _ => rfl⟩
  | some contents =>
    rw [load, parse] at h
    split at h
    · cases h
    · exact accept_loaded h

theorem accept_self {file : ProfilesFile} (loaded : file.Loaded) (marked : file.nextProfileId.isSome) :
    file.accept = .ok file := by
  have known : ¬(file.version = 0 ∨ currentVersion < file.version) := by
    rw [loaded.version]
    decide
  have same : file.migrate = file := by
    rw [migrate, loaded.version]
    rfl
  rw [accept, if_neg known, same, loaded.validated]
  obtain ⟨mark, hmark⟩ := Option.isSome_iff_exists.mp marked
  have water : file.nextProfileHighWater = mark := by rw [nextProfileHighWater, hmark]
  simp only [water]
  rw [← loaded.version, ← hmark]

theorem load_written {file : ProfilesFile} {contents : Contents} (written : file.serialize codec = .ok contents)
    (version : file.version = currentVersion) (marked : file.nextProfileId.isSome) :
    load codec (some contents) = .ok file ∧ file.Loaded := by
  unfold serialize at written
  split at written
  · cases written
  · rename_i valid
    cases written
    have loaded : file.Loaded := ⟨valid, version, fun none => by simp [none] at marked⟩
    refine ⟨?_, loaded⟩
    rw [load, parse, codec.fromStr_toStringPretty]
    exact accept_self loaded marked

theorem Loaded.valid {file : ProfilesFile} (loaded : file.Loaded) : file.Valid := valid_of_validate loaded.validated

end Load

theorem find_set {α : Type} {p : α → Bool} {xs : List α} {i : Nat} {x : α} (at_i : xs.findIdx? p = some i) (hx : p x = true) :
    (xs.set i x).find? p = some x := by
  induction xs generalizing i with
  | nil => simp at at_i
  | cons y ys ih =>
    rw [List.findIdx?_cons] at at_i
    by_cases hy : p y = true
    · rw [if_pos hy] at at_i
      cases at_i
      simp [hx]
    · rw [if_neg hy] at at_i
      obtain ⟨j, hj, rfl⟩ := Option.map_eq_some_iff.mp at_i
      simp [hy, ih hj]

theorem find_set_other {α : Type} {p q : α → Bool} {xs : List α} {i : Nat} {x : α} (at_i : xs.findIdx? p = some i)
    (hx : q x = false) (apart : ∀ y, p y = true → q y = false) : (xs.set i x).find? q = xs.find? q := by
  induction xs generalizing i with
  | nil => rfl
  | cons y ys ih =>
    rw [List.findIdx?_cons] at at_i
    by_cases hy : p y = true
    · rw [if_pos hy] at at_i
      cases at_i
      simp [hx, apart y hy]
    · rw [if_neg hy] at at_i
      obtain ⟨j, hj, rfl⟩ := Option.map_eq_some_iff.mp at_i
      simp [List.find?_cons, ih hj]

theorem saveProfile_ok {file changed : ProfilesFile} {profile saved : ConnectionProfile}
    (h : file.saveProfile profile = .ok (changed, saved)) :
    saved.auth = profile.auth ∧ changed.findProfile profile.id = some saved ∧
      (∀ other, other ≠ profile.id → changed.findProfile other = file.findProfile other) ∧
      changed.version = file.version ∧ changed.nextProfileId = file.nextProfileId := by
  unfold saveProfile at h
  split at h
  · rename_i index placed
    split at h
    · rename_i stored _
      split at h
      · cases h
        refine ⟨rfl, find_set placed (by simp), fun other differ => ?_, rfl, rfl⟩
        refine find_set_other placed (decide_eq_false (Ne.symm differ)) fun y hy => ?_
        have named : y.id = profile.id := by simpa using hy
        rw [named]
        exact decide_eq_false (Ne.symm differ)
      · cases h
    · cases h
  · rename_i absent
    cases h
    have none : file.profiles.find? (fun stored => stored.id = profile.id) = none := by
      rw [List.find?_eq_none]
      exact fun stored mem => Bool.eq_false_iff.mp (List.findIdx?_eq_none_iff.mp absent stored mem)
    refine ⟨rfl, ?_, fun other differ => ?_, rfl, rfl⟩
    · rw [findProfile, List.find?_append, none]
      simp
    · rw [findProfile, List.find?_append]
      simp [findProfile, Ne.symm differ]

end ProfilesFile

def TransactionKind.profileId : TransactionKind → ProfileId
  | .save profile => profile.id
  | .delete profileId => profileId

namespace ProfileStore

open ProfilesFile

variable {snapshot next changed : ProfilesFile}

theorem map_changedFile {result : Except StorageError (ProfilesFile × ConnectionProfile)} {file : Option ProfilesFile}
    (h : result.map changedFile = .ok file) : ∃ saved, result = .ok saved ∧ file = some saved.1 := by
  cases result with
  | error error => cases h
  | ok saved =>
    cases h
    exact ⟨saved, rfl, rfl⟩

theorem apply_save {profile : ConnectionProfile} {file : Option ProfilesFile}
    (h : applyTransaction snapshot next (.save profile) = .ok file) :
    ∃ changed saved, file = some changed ∧ saved.auth = profile.auth ∧ changed.findProfile profile.id = some saved ∧
      (∀ other, other ≠ profile.id → changed.findProfile other = next.findProfile other) ∧ changed.version = next.version ∧
      (next.findProfile profile.id = none ∧ next.nextProfileHighWater ≤ profile.id.raw ∧
          changed.nextProfileId = some (succU64 profile.id.raw) ∨
        next.findProfile profile.id ≠ none ∧ snapshot.findProfile profile.id ≠ none ∧
          changed.nextProfileId = next.nextProfileId) := by
  simp only [applyTransaction] at h
  split at h
  · rename_i old found
    split at h
    · cases h
    · rename_i known
      obtain ⟨⟨changed, saved⟩, done, rfl⟩ := map_changedFile h
      obtain ⟨auth, entry, others, version, mark⟩ := saveProfile_ok done
      refine ⟨changed, saved, rfl, auth, entry, others, version, Or.inr ⟨by simp [found], ?_, mark⟩⟩
      intro absent
      simp [absent] at known
  · rename_i absent
    split at h
    · cases h
    · rename_i fresh
      obtain ⟨⟨changed, saved⟩, done, rfl⟩ := map_changedFile h
      obtain ⟨auth, entry, others, version, mark⟩ := saveProfile_ok done
      exact ⟨changed, saved, rfl, auth, entry, others, version, Or.inl ⟨absent, Nat.le_of_not_lt fresh, mark⟩⟩

theorem apply_delete {profileId : ProfileId} {file : Option ProfilesFile}
    (h : applyTransaction snapshot next (.delete profileId) = .ok file) :
    next.findProfile profileId = none ∧ file = none ∨
      ∃ changed, file = some changed ∧ next.findProfile profileId ≠ none ∧ changed.findProfile profileId = none ∧
        (∀ other, other ≠ profileId → changed.findProfile other = next.findProfile other) ∧
        changed.version = next.version ∧ changed.nextProfileId = next.nextProfileId := by
  simp only [applyTransaction] at h
  split at h
  · rename_i absent
    cases h
    exact Or.inl ⟨absent, rfl⟩
  · rename_i old found
    split at h
    · cases h
    · cases h
      refine Or.inr ⟨_, rfl, by simp [found], ?_, fun other differ => ?_, rfl, rfl⟩
      · rw [ProfilesFile.findProfile, List.find?_eq_none]
        intro profile mem
        simpa using (List.mem_filter.mp mem).2
      · rw [ProfilesFile.findProfile, ProfilesFile.findProfile, List.find?_filter]
        congr 1
        funext profile
        by_cases same : profile.id = other
        · simp [same, differ]
        · simp [same]

section Commit

variable {Contents : Type} {codec : ProfilesCodec Contents}

/-- What a transaction can do. When it fails over a file that can be read, the error is the conflict or one of the disk. -/
inductive Commits (codec : ProfilesCodec Contents) (store : ProfileStore) (disk : Option Contents) (transaction : TransactionKind) :
    Except StorageError TransactionOutcome → ProfileStore → Option Contents → Prop
  | failed (error : StorageError) : (∀ next conflict, ProfilesFile.load codec disk = .ok next →
      applyTransaction store.profiles next transaction = .error conflict → error = conflict ∨ ∃ path message,
        error = .io path message) →
      Commits codec store disk transaction (.error error) store disk
  | unchanged {next : ProfilesFile} : ProfilesFile.load codec disk = .ok next →
      applyTransaction store.profiles next transaction = .ok none → Commits codec store disk transaction (.ok .unchanged) store disk
  | committed {next changed : ProfilesFile} {contents : Contents} (warnings : List StorageWarning) :
      ProfilesFile.load codec disk = .ok next → applyTransaction store.profiles next transaction = .ok (some changed) →
      changed.serialize codec = .ok contents →
      Commits codec store disk transaction (.ok (.committed warnings)) { store with profiles := changed } (some contents)

theorem commitTransaction_commits (faults : DiskFaults) (store : ProfileStore) (disk : Option Contents)
    (transaction : TransactionKind) :
    Commits codec store disk transaction (commitTransaction codec faults store disk transaction).1
      (commitTransaction codec faults store disk transaction).2.1 (commitTransaction codec faults store disk transaction).2.2 := by
  unfold commitTransaction
  cases faults.lock with
  | some message => exact .failed _ fun _ _ _ _ => Or.inr ⟨_, _, rfl⟩
  | none =>
    cases faults.read with
    | some message => exact .failed _ fun _ _ _ _ => Or.inr ⟨_, _, rfl⟩
    | none =>
      cases loaded : ProfilesFile.load codec disk with
      | error error => exact .failed _ fun next _ never => by cases loaded.symm.trans never
      | ok next =>
        cases applied : applyTransaction store.profiles next transaction with
        | error error =>
          simp only [applied]
          refine .failed _ fun next' conflict loaded' applied' => ?_
          cases loaded.symm.trans loaded'
          cases applied.symm.trans applied'
          exact Or.inl rfl
        | ok file =>
          have clear : ∀ next' conflict, ProfilesFile.load codec disk = .ok next' →
              applyTransaction store.profiles next' transaction ≠ .error conflict := by
            intro next' conflict loaded' never
            cases loaded.symm.trans loaded'
            cases applied.symm.trans never
          cases file with
          | none => simp only [applied]; exact .unchanged loaded applied
          | some changed =>
            cases written : changed.serialize codec with
            | error error =>
              simp only [applied, written]
              exact .failed _ fun next' conflict loaded' never => absurd never (clear next' conflict loaded')
            | ok contents =>
              simp only [applied, written]
              cases faults.write with
              | notCommitted message => exact .failed _ fun _ _ _ _ => Or.inr ⟨_, _, rfl⟩
              | written => exact .committed _ loaded applied written
              | replacedButNotDurable message => exact .committed _ loaded applied written

theorem commits_committed {store store' : ProfileStore} {disk disk' : Option Contents} {transaction : TransactionKind}
    {warnings : List StorageWarning} (h : Commits codec store disk transaction (.ok (.committed warnings)) store' disk') :
    ∃ next changed, ProfilesFile.load codec disk = .ok next ∧
      applyTransaction store.profiles next transaction = .ok (some changed) ∧
      ProfilesFile.load codec disk' = .ok changed ∧ changed.Loaded ∧ store' = { store with profiles := changed } := by
  cases h with
  | @committed next changed contents _ loaded applied written =>
    have before := load_loaded loaded
    have marked : next.findProfile transaction.profileId ≠ none → next.nextProfileId.isSome := by
      intro found
      rw [Option.isSome_iff_ne_none]
      intro unmarked
      rw [before.marked unmarked] at found
      exact found rfl
    have kept : changed.version = next.version ∧ changed.nextProfileId.isSome := by
      cases transaction with
      | save profile =>
        obtain ⟨_, _, same, _, _, _, version, created | ⟨found, _, mark⟩⟩ := apply_save applied <;> cases same
        · exact ⟨version, by rw [created.2.2]; rfl⟩
        · exact ⟨version, by rw [mark]; exact marked found⟩
      | delete profileId =>
        obtain ⟨_, never⟩ | ⟨_, same, found, _, _, version, mark⟩ := apply_delete applied
        · cases never
        · cases same
          exact ⟨version, by rw [mark]; exact marked found⟩
    obtain ⟨reload, after⟩ := load_written written (kept.1.trans before.version) kept.2
    exact ⟨next, changed, loaded, applied, reload, after, rfl⟩

theorem commits_split {store store' : ProfileStore} {disk disk' : Option Contents} {transaction : TransactionKind}
    {answer : Except StorageError TransactionOutcome} (h : Commits codec store disk transaction answer store' disk') :
    (store' = store ∧ disk' = disk ∧ ∀ warnings, answer ≠ .ok (.committed warnings)) ∨
      ∃ warnings, answer = .ok (.committed warnings) := by
  cases h with
  | failed error _ => exact Or.inl ⟨rfl, rfl, by simp⟩
  | unchanged _ _ => exact Or.inl ⟨rfl, rfl, by simp⟩
  | committed warnings _ _ _ => exact Or.inr ⟨warnings, rfl⟩

theorem commits_others {store store' : ProfileStore} {disk disk' : Option Contents} {transaction : TransactionKind}
    {warnings : List StorageWarning} (h : Commits codec store disk transaction (.ok (.committed warnings)) store' disk') :
    ∃ next changed, ProfilesFile.load codec disk = .ok next ∧ ProfilesFile.load codec disk' = .ok changed ∧
      store' = { store with profiles := changed } ∧
      ∀ other, other ≠ transaction.profileId → changed.findProfile other = next.findProfile other := by
  obtain ⟨next, changed, loaded, applied, reload, _, rfl⟩ := commits_committed h
  refine ⟨next, changed, loaded, reload, rfl, ?_⟩
  cases transaction with
  | save profile =>
    obtain ⟨_, _, same, _, _, others, _⟩ := apply_save applied
    cases same
    exact others
  | delete profileId =>
    obtain ⟨_, never⟩ | ⟨_, same, _, _, others, _⟩ := apply_delete applied
    · cases never
    · cases same
      exact others

end Commit

end ProfileStore

end MacSftp
