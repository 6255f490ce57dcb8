import MacSftp.Lib.Pools
import MacSftp.Storage.Commits

namespace MacSftp

open Lib

/-- One `profiles.json` and one Keychain, and what each store instance has in memory. -/
structure ProfileWorld (Contents ι : Type) where
  disk : Option Contents
  keychain : SecretRef → Option String
  stores : ι → ProfileStore

namespace ProfileWorld

variable {Contents ι : Type} (codec : ProfilesCodec Contents)

def entry (w : ProfileWorld Contents ι) (profileId : ProfileId) : Option ConnectionProfile :=
  match ProfilesFile.load codec w.disk with
  | .ok file => file.findProfile profileId
  | .error _ => none

/-- Every instance has just been opened. -/
def opened (path : String) (disk : Option Contents) (keychain : SecretRef → Option String) : ProfileWorld Contents ι :=
  ⟨disk, keychain, fun _ => .openOrEmpty codec path disk⟩

def setSecret (w : ProfileWorld Contents ι) (secretRef : SecretRef) (secret : Option String) : ProfileWorld Contents ι :=
  { w with keychain := Function.update w.keychain secretRef secret }

def setUpdate (w : ProfileWorld Contents ι) : Option SecretUpdate → ProfileWorld Contents ι
  | none => w
  | some update => w.setSecret update.secretRef (some update.secret)

def forget (w : ProfileWorld Contents ι) : List SecretRef → ProfileWorld Contents ι
  | [] => w
  | secretRef :: rest => (w.setSecret secretRef none).forget rest

def setStore [DecidableEq ι] (w : ProfileWorld Contents ι) (i : ι) (store : ProfileStore) (disk : Option Contents) :
    ProfileWorld Contents ι :=
  ⟨disk, w.keychain, Function.update w.stores i store⟩

end ProfileWorld

variable {Contents ι : Type}

/-- What an operation of one instance does. Keychain operations take effect or fail without one. -/
def ProfileOp.Does [DecidableEq ι] (codec : ProfilesCodec Contents) (i : ι) :
    (op : ProfileOp) → op.Ans → ProfileWorld Contents ι → ProfileWorld Contents ι → Prop
  | .openOrEmpty, _, w, w' => w' = w.setStore i (.openOrEmpty codec (w.stores i).path w.disk) w.disk
  | .store, answer, w, w' => answer = w.stores i ∧ w' = w
  | .keychainLoad secretRef, answer, w, w' => (answer = .ok (w.keychain secretRef) ∨ ∃ error, answer = .error error) ∧ w' = w
  | .keychainStore secretRef secret, answer, w, w' =>
    answer = .ok () ∧ w' = w.setSecret secretRef (some secret) ∨ (∃ error, answer = .error error) ∧ w' = w
  | .keychainRollback secretRef previous, answer, w, w' =>
    answer = .ok () ∧ w' = w.setSecret secretRef previous ∨ (∃ error, answer = .error error) ∧ w' = w
  | .keychainDelete secretRef, answer, w, w' =>
    answer = .ok () ∧ w' = w.setSecret secretRef none ∨ (∃ error, answer = .error error) ∧ w' = w
  | .commitTransaction transaction, answer, w, w' =>
    ∃ faults, (answer, w') = ((ProfileStore.commitTransaction codec faults (w.stores i) w.disk transaction).1,
      w.setStore i (ProfileStore.commitTransaction codec faults (w.stores i) w.disk transaction).2.1
        (ProfileStore.commitTransaction codec faults (w.stores i) w.disk transaction).2.2)

/-- The answer and the effect of an operation when nothing fails. -/
def ProfileOp.reply [DecidableEq ι] (codec : ProfilesCodec Contents) (i : ι) :
    (op : ProfileOp) → ProfileWorld Contents ι → op.Ans × ProfileWorld Contents ι
  | .openOrEmpty, w => ((), w.setStore i (.openOrEmpty codec (w.stores i).path w.disk) w.disk)
  | .store, w => (w.stores i, w)
  | .keychainLoad secretRef, w => (.ok (w.keychain secretRef), w)
  | .keychainStore secretRef secret, w => (.ok (), w.setSecret secretRef (some secret))
  | .keychainRollback secretRef previous, w => (.ok (), w.setSecret secretRef previous)
  | .keychainDelete secretRef, w => (.ok (), w.setSecret secretRef none)
  | .commitTransaction transaction, w =>
    let ended := ProfileStore.commitTransaction codec {} (w.stores i) w.disk transaction
    (ended.1, w.setStore i ended.2.1 ended.2.2)

theorem ProfileOp.reply_does [DecidableEq ι] (codec : ProfilesCodec Contents) (i : ι) (op : ProfileOp)
    (w : ProfileWorld Contents ι) :
    op.Does codec i (op.reply codec i w).1 w (op.reply codec i w).2 := by
  cases op with
  | openOrEmpty => rfl
  | store => exact ⟨rfl, rfl⟩
  | keychainLoad secretRef => exact ⟨Or.inl rfl, rfl⟩
  | keychainStore secretRef secret => exact Or.inl ⟨rfl, rfl⟩
  | keychainRollback secretRef previous => exact Or.inl ⟨rfl, rfl⟩
  | keychainDelete secretRef => exact Or.inl ⟨rfl, rfl⟩
  | commitTransaction transaction => exact ⟨{}, rfl⟩

/-- A run of a call in which nothing fails and nobody else moves. -/
def ProfileCall.play [DecidableEq ι] (codec : ProfilesCodec Contents) (i : ι) (call : ProfileCall) (w : ProfileWorld Contents ι) :
    List (Asked (ProfileWorld Contents ι) ProfileOp ProfileOp.Ans) × ProfileWorld Contents ι ×
      Except ProfileMutationError ProfileAnswer := call.program.play (ProfileOp.reply codec i) w

theorem ProfileCall.play_run [DecidableEq ι] (codec : ProfilesCodec Contents) (i : ι) (call : ProfileCall)
    (w : ProfileWorld Contents ι) :
    call.program.Run Eq (ProfileOp.Does codec i) w (call.play codec i w).1 (call.play codec i w).2.1 (call.play codec i w).2.2 :=
  Program.play_run (fun _ => rfl) (ProfileOp.reply_does codec i) call.program w

abbrev ProfilePool (Contents ι : Type) :=
  Pool (ProfileWorld Contents ι) ι ProfileCall ProfileOp ProfileOp.Ans ProfileMutationError ProfileAnswer

abbrev ProfileEvent (Contents ι : Type) :=
  PoolEvent (ProfileWorld Contents ι) ι ProfileCall ProfileOp ProfileOp.Ans ProfileMutationError ProfileAnswer

/-- A file whose contents are the record. -/
def ProfilesCodec.plain : ProfilesCodec ProfilesFile := ⟨id, .ok, fun _ => rfl⟩

/-- The first profile of a store, with a password. -/
def firstSave : ProfileSaveRequest :=
  ⟨⟨1⟩, "One", "host", 22, "user", .password (some "secret"), .direct, none⟩

def twoStores : ProfileWorld ProfilesFile Bool := .opened .plain "profiles.json" none fun _ => none

/-- One call in which nothing fails, as events. -/
def eventsOf (t : Bool) (call : ProfileCall) (w : ProfileWorld ProfilesFile Bool) : List (ProfileEvent ProfilesFile Bool) :=
  let ended := call.play .plain t w
  .started t call :: (ended.1.map (.asked t call) ++ [.ended t call w ended.2.2 ended.2.1])

theorem eventsOf_runs {t : Bool} {call : ProfileCall} {w : ProfileWorld ProfilesFile Bool}
    {ok : ProfilePool ProfilesFile Bool → ProfileEvent ProfilesFile Bool → Prop} (made : ok ⟨w, fun _ => none⟩ (.started t call))
    (legal : ∀ s a, a.answer = (ProfileOp.reply .plain t a.op a.before).1 → ok s (.asked t call a))
    (last : ∀ s, ok s (.ended t call w (call.play .plain t w).2.2 (call.play .plain t w).2.1)) :
    Pool.Runs (ProfileOp.Does .plain) ProfileCall.program ok ⟨w, fun _ => none⟩ (eventsOf t call w)
      ⟨(call.play .plain t w).2.1, fun _ => none⟩ :=
  .call rfl (ProfileCall.play_run .plain t call w) made
    (fun s a mem => legal s a (Program.play_asked (ProfileOp.reply .plain t) call.program w a mem)) last

theorem opened_valid {codec : ProfilesCodec Contents} {path : String} {disk : Option Contents} :
    (ProfileStore.openOrEmpty codec path disk).profiles.Valid := by
  unfold ProfileStore.openOrEmpty
  split
  · exact (ProfilesFile.load_loaded ‹_›).valid
  · exact ⟨List.Pairwise.nil, fun profile never => absurd never List.not_mem_nil⟩

namespace ProfileWorld

variable {w : ProfileWorld Contents ι} {codec : ProfilesCodec Contents}

@[simp] theorem setSecret_disk (r : SecretRef) (v : Option String) : (w.setSecret r v).disk = w.disk := rfl

@[simp] theorem setSecret_stores (r : SecretRef) (v : Option String) : (w.setSecret r v).stores = w.stores := rfl

@[simp] theorem setSecret_entry (r : SecretRef) (v : Option String) : (w.setSecret r v).entry codec = w.entry codec := rfl

@[simp] theorem setSecret_keychain (r : SecretRef) (v : Option String) : (w.setSecret r v).keychain r = v := by
  simp [setSecret]

theorem setSecret_other {r r' : SecretRef} (v : Option String) (differ : r' ≠ r) :
    (w.setSecret r v).keychain r' = w.keychain r' := by
  simp [setSecret, differ]

theorem setSecret_setSecret (r : SecretRef) (v v' : Option String) : (w.setSecret r v).setSecret r v' = w.setSecret r v' := by
  simp [setSecret]

theorem setSecret_same {r : SecretRef} {v : Option String} (same : w.keychain r = v) : w.setSecret r v = w := by
  subst same
  simp [setSecret]

theorem setUpdate_disk (update : Option SecretUpdate) : (w.setUpdate update).disk = w.disk := by
  cases update <;> rfl

theorem setUpdate_stores (update : Option SecretUpdate) : (w.setUpdate update).stores = w.stores := by
  cases update <;> rfl

theorem setUpdate_entry (update : Option SecretUpdate) : (w.setUpdate update).entry codec = w.entry codec := by
  cases update <;> rfl

theorem forget_disk (refs : List SecretRef) : (w.forget refs).disk = w.disk := by
  induction refs generalizing w with
  | nil => rfl
  | cons r rest ih => exact ih

theorem forget_stores (refs : List SecretRef) : (w.forget refs).stores = w.stores := by
  induction refs generalizing w with
  | nil => rfl
  | cons r rest ih => exact ih

theorem forget_keychain (refs : List SecretRef) (r : SecretRef) :
    (w.forget refs).keychain r = if r ∈ refs then none else w.keychain r := by
  induction refs generalizing w with
  | nil => simp [forget]
  | cons first rest ih =>
    rw [forget, ih]
    by_cases later : r ∈ rest
    · simp [later]
    · by_cases same : r = first
      · subst same
        simp [later]
      · simp [later, same, setSecret_other none same]

theorem entry_congr {w w' : ProfileWorld Contents ι} (same : w.disk = w'.disk) : w.entry codec = w'.entry codec := by
  funext profileId
  rw [entry, entry, same]

theorem entry_of_load {file : ProfilesFile} (loaded : ProfilesFile.load codec w.disk = .ok file) :
    w.entry codec = file.findProfile := by
  funext profileId
  rw [entry, loaded]

section SetStore

variable [DecidableEq ι]

@[simp] theorem setStore_keychain (i : ι) (store : ProfileStore) (disk : Option Contents) :
    (w.setStore i store disk).keychain = w.keychain := rfl

@[simp] theorem setStore_disk (i : ι) (store : ProfileStore) (disk : Option Contents) : (w.setStore i store disk).disk = disk := rfl

@[simp] theorem setStore_self (i : ι) (store : ProfileStore) (disk : Option Contents) :
    (w.setStore i store disk).stores i = store := by
  simp [setStore]

theorem setStore_other {i j : ι} (store : ProfileStore) (disk : Option Contents) (differ : j ≠ i) :
    (w.setStore i store disk).stores j = w.stores j := by
  simp [setStore, differ]

theorem setStore_same (i : ι) : w.setStore i (w.stores i) w.disk = w := by
  simp [setStore]

end SetStore

end ProfileWorld

end MacSftp
