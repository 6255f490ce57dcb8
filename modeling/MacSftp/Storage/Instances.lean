import MacSftp.Storage.Calls

namespace MacSftp

open Lib ProfileStore

variable {Contents ι : Type} (codec : ProfilesCodec Contents)

/-- The profile that an operation has changed in the file. -/
def committedProfile : Asked (ProfileWorld Contents ι) ProfileOp ProfileOp.Ans → Option ProfileId
  | ⟨_, .commitTransaction transaction, .ok (.committed _), _⟩ => some transaction.profileId
  | _ => none

/-- The error for a change that the instance has not seen, or one of the disk. -/
def ConflictOrIo (error : StorageError) : Prop :=
  (∃ message, error = .concurrentModification message) ∨ ∃ path message, error = .io path message

/-- The instance is not behind the file on the profile of the call. A save may find the profile deleted. -/
def UpToDate (t : ι) (w : ProfileWorld Contents ι) : ProfileCall → Prop
  | .openStore | .nextProfileId => True
  | .save request => ∀ stored, w.entry codec request.profileId = some stored →
      (w.stores t).findProfile request.profileId ≠ none → (w.stores t).findProfile request.profileId = some stored
  | .delete profileId => (w.stores t).findProfile profileId ≠ none →
      w.entry codec profileId = (w.stores t).findProfile profileId

def RollbackTaken : (op : ProfileOp) → op.Ans → Prop
  | .keychainRollback _ _, answer => answer = .ok ()
  | _, _ => True

/-- A call is made where its instance is not behind the file on the profile, and where no other call on that profile is in
progress. The Keychain takes a rollback. -/
def Careful (s : ProfilePool Contents ι) : ProfileEvent Contents ι → Prop
  | .started t call => UpToDate codec t s.world call ∧ ∀ profileId, call.profileId = some profileId →
      ∀ u task, u ≠ t → s.running u = some task → task.call.profileId ≠ some profileId
  | .asked _ _ a => RollbackTaken a.op a.answer
  | .ended .. => True

/-- What an operation of a call does to the others. -/
structure NoDamage (t : ι) (call : ProfileCall) (a : Asked (ProfileWorld Contents ι) ProfileOp ProfileOp.Ans) : Prop where
  /-- what is overwritten has been seen -/
  seen : ∀ profileId stored, committedProfile a = some profileId → a.before.entry codec profileId = some stored →
    (a.before.stores t).findProfile profileId = some stored
  /-- what has not been seen is a conflict -/
  unseen : ∀ before profile answer after stored, a = ⟨before, .commitTransaction (.save profile), answer, after⟩ →
    before.entry codec profile.id = some stored → (before.stores t).findProfile profile.id ≠ some stored →
    ∃ error, answer = .error error ∧ ConflictOrIo error
  /-- the secrets of other profiles are left alone -/
  secrets : ∀ profileId r, call.profileId ≠ some profileId → Owns profileId r → a.after.keychain r = a.before.keychain r

/-- What a call that has ended leaves. -/
structure NoTrace (t : ι) (call : ProfileCall) (start : ProfileWorld Contents ι)
    (result : Except ProfileMutationError ProfileAnswer)
    (after : ProfileWorld Contents ι) : Prop where
  /-- a call that has failed leaves the secrets of its profile as they were -/
  failed : ∀ error, result = .error error → ∀ profileId r, call.profileId = some profileId → Owns profileId r →
    after.keychain r = start.keychain r
  /-- what has been reported as deleted is not found -/
  deleted : ∀ profileId outcome, call = .delete profileId → result = .ok (.deleted outcome) → outcome.deleted = true →
    (after.stores t).findProfile profileId = none

def Undamaged : ProfileEvent Contents ι → Prop
  | .started _ _ => True
  | .asked t call a => NoDamage codec t call a
  | .ended t call start result after => NoTrace t call start result after

section Steps

variable [DecidableEq ι] {codec}

def Elsewhere (codec : ProfilesCodec Contents) (t : ι) (call : ProfileCall) (w w' : ProfileWorld Contents ι) : Prop :=
  w'.stores t = w.stores t ∧ ∀ profileId, call.profileId = some profileId →
    w'.entry codec profileId = w.entry codec profileId ∧ ∀ r, Owns profileId r → w'.keychain r = w.keychain r

section Elsewhere

omit [DecidableEq ι]

theorem elsewhere_refl (t : ι) (call : ProfileCall) (w : ProfileWorld Contents ι) : Elsewhere codec t call w w :=
  ⟨rfl, fun _ _ => ⟨rfl, fun _ _ => rfl⟩⟩

theorem elsewhere_trans {t : ι} {call : ProfileCall} {u v w : ProfileWorld Contents ι} (h : Elsewhere codec t call u v)
    (h' : Elsewhere codec t call v w) : Elsewhere codec t call u w := by
  refine ⟨h'.1.trans h.1, fun profileId named => ?_⟩
  obtain ⟨entry, secrets⟩ := h.2 profileId named
  obtain ⟨entry', secrets'⟩ := h'.2 profileId named
  exact ⟨entry'.trans entry, fun r own => (secrets' r own).trans (secrets r own)⟩

theorem undisturbed_elsewhere {t : ι} {call : ProfileCall} {profileId : ProfileId} (named : call.profileId = some profileId) :
    Undisturbed codec t profileId (Elsewhere codec t call) where
  refl := elsewhere_refl t call
  trans := elsewhere_trans
  stores h := h.1
  entry h := (h.2 profileId named).1
  secrets h own := (h.2 profileId named).2 _ own
  frame {v w r} h own secret := by
    refine ⟨h.1, fun other named' => ⟨(h.2 other named').1, fun r' own' => ?_⟩⟩
    by_cases same : r' = r
    · subst same
      rw [ProfileWorld.setSecret_keychain, ProfileWorld.setSecret_keychain]
    · rw [ProfileWorld.setSecret_other _ same, ProfileWorld.setSecret_other _ same]
      exact (h.2 other named').2 r' own'

end Elsewhere

/-- An operation of a call: what the others can see of it, and that the memories stay valid. -/
structure InstanceStep (codec : ProfilesCodec Contents) (t : ι) (call : ProfileCall)
    (a : Asked (ProfileWorld Contents ι) ProfileOp ProfileOp.Ans) : Prop where
  others : ∀ u, u ≠ t → a.after.stores u = a.before.stores u
  entries : ∀ profileId, call.profileId ≠ some profileId → a.after.entry codec profileId = a.before.entry codec profileId
  valid : (∀ u, (a.before.stores u).profiles.Valid) → ∀ u, (a.after.stores u).profiles.Valid
  damage : NoDamage codec t call a

omit [DecidableEq ι] in
theorem noDamage_apart {t : ι} {call : ProfileCall} {op : ProfileOp} {before after : ProfileWorld Contents ι} {answer : op.Ans}
    (apart : op.Apart) (secrets : ∀ profileId r, call.profileId ≠ some profileId → Owns profileId r →
      after.keychain r = before.keychain r) : NoDamage codec t call ⟨before, op, answer, after⟩ where
  seen profileId stored committed := by
    cases op with
    | commitTransaction transaction => exact apart.elim
    | _ => cases committed
  unseen _ _ _ _ _ same := by
    cases same
    exact apart.elim
  secrets := secrets

theorem instanceStep_apart {t : ι} {call : ProfileCall} {op : ProfileOp} {before after : ProfileWorld Contents ι} {answer : op.Ans}
    (apart : op.Apart) (does : op.Does codec t answer before after) (secrets : ∀ profileId r, call.profileId ≠ some profileId →
      Owns profileId r → after.keychain r = before.keychain r) : InstanceStep codec t call ⟨before, op, answer, after⟩ := by
  obtain ⟨disk, stores⟩ := apart_frame apart does
  refine ⟨fun u _ => by rw [stores], fun profileId _ => ?_, fun valid u => by rw [stores]; exact valid u,
    noDamage_apart apart secrets⟩
  exact congrFun (ProfileWorld.entry_congr disk) profileId

omit [DecidableEq ι] in
theorem noDamage_open {t : ι} {call : ProfileCall} {before after : ProfileWorld Contents ι} {answer : ProfileOp.openOrEmpty.Ans}
    (same : after.keychain = before.keychain) : NoDamage codec t call ⟨before, .openOrEmpty, answer, after⟩ where
  seen _ _ committed := by cases committed
  unseen _ _ _ _ _ same := by cases same
  secrets _ _ _ _ := by rw [same]

omit [DecidableEq ι] in
theorem secrets_own {profileId : ProfileId} {call : ProfileCall} (named : call.profileId = some profileId) {r : SecretRef}
    (own : Owns profileId r) {before : ProfileWorld Contents ι} (secret : Option String) :
    ∀ other r', call.profileId ≠ some other → Owns other r' → (before.setSecret r secret).keychain r' = before.keychain r' := by
  intro other r' differ own'
  apply ProfileWorld.setSecret_other
  rintro rfl
  exact differ (named.trans (congrArg some (owns_unique own own')))

theorem instanceStep_commit {t : ι} {call : ProfileCall} {transaction : TransactionKind} {before after : ProfileWorld Contents ι}
    {answer : (ProfileOp.commitTransaction transaction).Ans} (named : call.profileId = some transaction.profileId)
    (current : ∀ stored, before.entry codec transaction.profileId = some stored →
      (before.stores t).findProfile transaction.profileId ≠ none →
        (before.stores t).findProfile transaction.profileId = some stored)
    (known : ∀ profileId, transaction = .delete profileId → (before.stores t).findProfile profileId ≠ none)
    (does : (ProfileOp.commitTransaction transaction).Does codec t answer before after) :
    InstanceStep codec t call ⟨before, .commitTransaction transaction, answer, after⟩ := by
  obtain ⟨store, disk, committed, rfl⟩ := does_commit does
  refine ⟨fun u other => ProfileWorld.setStore_other _ _ other, ?_, ?_, ?_, ?_, fun _ _ _ _ => rfl⟩
  · intro profileId differ
    rcases commits_split committed with ⟨rfl, rfl, _⟩ | ⟨warnings, rfl⟩
    · rw [ProfileWorld.setStore_same]
    · obtain ⟨next, changed, loaded, reload, _, others⟩ := commits_others committed
      rw [ProfileWorld.entry_of_load loaded, ProfileWorld.entry_of_load (w := before.setStore t store disk) reload]
      apply others
      rintro rfl
      exact differ named
  · intro valid u
    rcases commits_split committed with ⟨rfl, rfl, _⟩ | ⟨warnings, rfl⟩
    · rw [ProfileWorld.setStore_same]
      exact valid u
    · obtain ⟨next, changed, _, reload, rfl, _⟩ := commits_others committed
      by_cases own : u = t
      · subst own
        rw [ProfileWorld.setStore_self]
        exact (ProfilesFile.load_loaded reload).valid
      · rw [ProfileWorld.setStore_other _ _ own]
        exact valid u
  · intro profileId stored done found
    rcases commits_split committed with ⟨rfl, rfl, unanswered⟩ | ⟨warnings, rfl⟩
    · rcases answer with error | outcome
      · cases done
      · cases outcome with
        | unchanged => cases done
        | committed warnings => exact absurd rfl (unanswered warnings)
    · cases done
      apply current stored found
      cases transaction with
      | delete profileId => exact known profileId rfl
      | save profile =>
        obtain ⟨next, changed, loaded, applied, _⟩ := commits_committed committed
        rw [ProfileWorld.entry_of_load loaded] at found
        obtain ⟨_, _, _, _, _, _, _, ⟨absent, _⟩ | ⟨_, snapshot, _⟩⟩ := apply_save applied
        · exact absurd (found.symm.trans absent) (by simp)
        · exact snapshot
  · rintro _ profile _ _ stored ⟨⟩ found unseen
    have unknown : (before.stores t).findProfile profile.id = none := by
      by_contra known
      exact unseen (current stored found known)
    cases loaded : ProfilesFile.load codec before.disk with
    | error error =>
      rw [ProfileWorld.entry, loaded] at found
      cases found
    | ok next =>
      rw [ProfileWorld.entry_of_load loaded] at found
      have conflict : applyTransaction (before.stores t).profiles next (.save profile) = .error (createdElsewhere profile.id) := by
        have none : (before.stores t).profiles.findProfile profile.id = none := unknown
        simp only [applyTransaction, found, none, Option.isNone_none, if_true]
      cases committed with
      | failed error reason =>
        refine ⟨error, rfl, ?_⟩
        rcases reason next _ loaded conflict with rfl | io
        · exact Or.inl ⟨_, rfl⟩
        · exact Or.inr io
      | unchanged loaded' applied =>
        cases loaded.symm.trans loaded'
        cases conflict.symm.trans applied
      | committed warnings loaded' applied =>
        cases loaded.symm.trans loaded'
        cases conflict.symm.trans applied

omit [DecidableEq ι] in
theorem upToDate_later {t : ι} {call : ProfileCall} {start b : ProfileWorld Contents ι} (current : UpToDate codec t start call)
    {profileId : ProfileId} (named : call.profileId = some profileId) (reached : Elsewhere codec t call start b) :
    ∀ stored, b.entry codec profileId = some stored → (b.stores t).findProfile profileId ≠ none →
      (b.stores t).findProfile profileId = some stored := by
  intro stored found known
  rw [reached.1] at known ⊢
  rw [(reached.2 profileId named).1] at found
  cases call with
  | openStore => cases named
  | nextProfileId => cases named
  | save request =>
    cases named
    exact current stored found known
  | delete profileId' =>
    cases named
    exact (current known).symm.trans found

theorem instanceStep_puts {t : ι} {call : ProfileCall} {start before after : ProfileWorld Contents ι} {op : ProfileOp}
    {answer : op.Ans} (current : UpToDate codec t start call)
    (puts : CallPuts codec t (Elsewhere codec t call) call start op before)
    (does : op.Does codec t answer before after) : InstanceStep codec t call ⟨before, op, answer, after⟩ := by
  cases named : call.profileId with
  | none =>
    rw [CallPuts, named] at puts
    rcases puts with rfl | rfl
    · obtain rfl := does
      refine ⟨fun u other => ProfileWorld.setStore_other _ _ other, fun _ _ => rfl, fun valid u => ?_, noDamage_open rfl⟩
      by_cases own : u = t
      · subst own
        rw [ProfileWorld.setStore_self]
        exact opened_valid
      · rw [ProfileWorld.setStore_other _ _ own]
        exact valid u
    · obtain ⟨_, rfl⟩ := does
      exact instanceStep_apart trivial ⟨‹_›, rfl⟩ fun _ _ _ _ => rfl
  | some profileId =>
    rw [CallPuts, named] at puts
    have effect := does
    cases puts with
    | store =>
      obtain ⟨_, rfl⟩ := effect
      exact instanceStep_apart trivial does fun _ _ _ _ => rfl
    | load _ own =>
      obtain ⟨_, rfl⟩ := effect
      exact instanceStep_apart trivial does fun _ _ _ _ => rfl
    | replace secret _ own =>
      rcases effect with ⟨_, rfl⟩ | ⟨_, rfl⟩
      · exact instanceStep_apart trivial does (secrets_own named own _)
      · exact instanceStep_apart trivial does fun _ _ _ _ => rfl
    | rollback secret own _ =>
      rcases effect with ⟨_, rfl⟩ | ⟨_, rfl⟩
      · exact instanceStep_apart trivial does (secrets_own named own _)
      · exact instanceStep_apart trivial does fun _ _ _ _ => rfl
    | clean own _ =>
      rcases effect with ⟨_, rfl⟩ | ⟨_, rfl⟩
      · exact instanceStep_apart trivial does (secrets_own named own _)
      · exact instanceStep_apart trivial does fun _ _ _ _ => rfl
    | @save request resolved b same reached resolves =>
      have named : call.profileId = some (requestedProfile request resolved.auth).id := by
        rw [named, ← same]
        rfl
      refine instanceStep_commit named ?_ (fun profileId never => by cases never) does
      rw [ProfileWorld.setUpdate_entry, ProfileWorld.setUpdate_stores]
      exact upToDate_later current named reached
    | @delete _ reached found =>
      refine instanceStep_commit named (upToDate_later current named reached) ?_ does
      rintro _ ⟨⟩
      exact found

end Steps

section Runs

variable [DecidableEq ι] {codec}

/-- The Keychain takes every rollback. -/
def Answers (codec : ProfilesCodec Contents) (t : ι) (op : ProfileOp) (answer : op.Ans) (w w' : ProfileWorld Contents ι) : Prop :=
  op.Does codec t answer w w' ∧ RollbackTaken op answer

theorem rollback_taken {t : ι} : ¬RollbackFails (Answers codec t : (op : ProfileOp) → op.Ans → ProfileWorld Contents ι → _ →
    Prop) := by
  rintro ⟨secretRef, previous, error, before, after, _, taken⟩
  cases taken

theorem noTrace {t : ι} {call : ProfileCall} {start b c after : ProfileWorld Contents ι}
    {result : Except ProfileMutationError ProfileAnswer} (current : UpToDate codec t start call)
    (reached : Elsewhere codec t call start b) (effect : CallEffect codec t (Answers codec t) call result b c)
    (left : Elsewhere codec t call c after) : NoTrace t call start result after where
  failed error same profileId r named own := by
    subst same
    rcases call_error effect with rfl | ⟨_, fails⟩
    · rw [(left.2 profileId named).2 r own, (reached.2 profileId named).2 r own]
    · exact absurd fails rollback_taken
  deleted profileId outcome made same gone := by
    subst made
    rw [findProfile, left.1]
    cases effect with
    | @delete _ result' _ _ effect =>
      cases effect with
      | absent =>
        cases same
        cases gone
      | refused => cases same
      | @deleted previous outcome' store disk errors forgotten _ known committed _ _ =>
        rw [ProfileWorld.forget_stores, ProfileWorld.setStore_self]
        obtain ⟨file, reload, absent⟩ := commits_delete committed
        cases outcome' with
        | committed warnings =>
          obtain ⟨_, changed, _, reload', rfl, _⟩ := commits_others committed
          cases reload.symm.trans reload'
          exact absent
        | unchanged =>
          -- the profile was on disk when the call was made, and nobody else has deleted it
          exfalso
          have snapshot := reached.1
          have entry := (reached.2 profileId rfl).1
          have there : start.entry codec profileId = (start.stores t).findProfile profileId := by
            apply current
            rw [← snapshot, known]
            simp
          have same_disk : disk = b.disk := by
            cases committed
            rfl
          rw [same_disk] at reload
          rw [ProfileWorld.entry_of_load reload, there, ← snapshot, known, absent] at entry
          cases entry

def instanceContract (ι : Type) [DecidableEq ι] (codec : ProfilesCodec Contents) :
    Pool.Contract (ProfileWorld Contents ι) ι ProfileCall ProfileOp ProfileOp.Ans ProfileMutationError ProfileAnswer where
  Pre t call w := (∀ u, (w.stores u).profiles.Valid) ∧ UpToDate codec t w call
  rely t call := Elsewhere codec t call
  Good t call a := InstanceStep codec t call a
  Post t call start result after := NoTrace t call start result after

omit [DecidableEq ι] in
theorem noTrace_elsewhere {t : ι} {call : ProfileCall} {start v w : ProfileWorld Contents ι}
    {result : Except ProfileMutationError ProfileAnswer} (between : Elsewhere codec t call v w)
    (trace : NoTrace t call start result v) : NoTrace t call start result w where
  failed error same profileId r named own :=
      ((between.2 profileId named).2 r own).trans (trace.failed error same profileId r named own)
  deleted profileId outcome made same gone := by
    rw [between.1]
    exact trace.deleted profileId outcome made same gone

theorem instanceContract_kept (codec : ProfilesCodec Contents) :
    (instanceContract ι codec).Kept (Answers codec) ProfileCall.program
      (fun _ call _ call' => ∀ profileId, call.profileId = some profileId → call'.profileId ≠ some profileId) where
  refl t call w := elsewhere_refl t call w
  trans _ _ _ _ _ h h' := elsewhere_trans h h'
  stable _ _ _ _ _ _ between trace := noTrace_elsewhere between trace
  safe t call w pre := by
    refine (safe_call (R := Elsewhere codec t call) (elsewhere_refl t call) call
      (fun profileId named => undisturbed_elsewhere named) (fun _ _ _ _ answers => answers.1)
      (fun _ _ _ _ puts answers => instanceStep_puts pre.2 puts answers.1) (pre.1 t)).mono (fun _ good => good) ?_
    rintro result after ⟨b, c, reached, effect, left⟩
    exact noTrace pre.2 reached effect left
  guarantee t call t' call' a differ apart step := by
    refine ⟨step.others t differ, fun profileId named => ⟨step.entries profileId (apart profileId named), fun r own => ?_⟩⟩
    exact step.damage.secrets profileId r (apart profileId named) own

/-- In every interleaving of the calls of any number of instances in which calls on one profile do not overlap and start up to
date, no change is overwritten unseen, failed calls leave the secrets as they were, and what is deleted is not found. -/
theorem instances_undamaged (codec : ProfilesCodec Contents) (path : String) (disk : Option Contents)
    (keychain : SecretRef → Option String) (events : List (ProfileEvent Contents ι)) (s : ProfilePool Contents ι)
    (runs : Pool.Runs (ProfileOp.Does codec) ProfileCall.program (Careful codec)
      ⟨ProfileWorld.opened codec path disk keychain, fun _ => none⟩ events s) : ∀ event ∈ events, Undamaged codec event := by
  obtain ⟨fulfilled, _⟩ := Pool.Contract.parallel (instanceContract_kept codec)
    (I := fun _ w => ∀ u, (w.stores u).profiles.Valid) (fun _ _ _ _ taken does => ⟨does, taken⟩) (fun _ _ _ _ valid => valid)
    (fun _ _ _ _ valid step => step.valid valid) (fun _ _ _ _ _ _ valid _ => valid)
    (fun past s t call legal valid => ⟨⟨valid, legal.1⟩, fun t' task differ running =>
      ⟨fun profileId named => legal.2 profileId named t' task differ running, fun profileId named named' =>
        legal.2 profileId named' t' task differ running named⟩⟩)
    runs (fun _ => opened_valid) (Pool.Contract.settled_idle fun _ => rfl)
  intro event mem
  cases event with
  | started t call => trivial
  | asked t call a => exact (fulfilled _ mem).damage
  | ended t call start result after => exact fulfilled _ mem

end Runs

theorem careful_reply (t : Bool) (call : ProfileCall) (s : ProfilePool ProfilesFile Bool)
    (a : Asked (ProfileWorld ProfilesFile Bool) ProfileOp ProfileOp.Ans)
    (answered : a.answer = (ProfileOp.reply .plain t a.op a.before).1) : Careful .plain s (.asked t call a) := by
  obtain ⟨before, op, answer, after⟩ := a
  cases op with
  | keychainRollback r previous => exact answered
  | _ => trivial

theorem instances_undamaged_created : (ProfileCall.play .plain true (.save firstSave) twoStores).2.2.toOption ≠ none ∧
    ∀ event ∈ eventsOf true (.save firstSave) twoStores, Undamaged .plain event := by
  have made : Careful .plain ⟨twoStores, fun _ => none⟩ (.started true (.save firstSave)) := by
    refine ⟨fun stored never => ?_, fun _ _ _ _ _ never => by cases never⟩
    cases never
  exact ⟨by decide +kernel, instances_undamaged .plain "profiles.json" none (fun _ => none) _ _
    (eventsOf_runs made (careful_reply true _) fun _ => trivial)⟩

def sharedFile : ProfilesFile :=
  ⟨5, [{ id := ⟨1⟩, name := "One", host := "host", username := "user", auth := .keyboardInteractive }], some 2⟩

def bothOpen : ProfileWorld ProfilesFile Bool := .opened .plain "profiles.json" (some sharedFile) fun _ => none

def rename (name : String) : ProfileCall := .save ⟨⟨1⟩, name, "host", 22, "user", .keyboardInteractive, .direct, none⟩

def renamed : ProfileWorld ProfilesFile Bool := ((rename "Mine").play .plain true bothOpen).2.1

/-- Two windows rename one profile. The second has not seen the first change and commits over it. -/
theorem stale_update_overwrites : ∃ events s, Pool.Runs (ProfileOp.Does .plain) ProfileCall.program (fun _ _ => True)
    ⟨bothOpen, fun _ => none⟩ events s ∧ ¬∀ event ∈ events, Undamaged .plain event := by
  have first := @eventsOf_runs true (rename "Mine") bothOpen (fun _ _ => True) trivial (fun _ _ _ => trivial) fun _ => trivial
  have second := @eventsOf_runs false (rename "Yours") renamed (fun _ _ => True) trivial (fun _ _ _ => trivial) fun _ => trivial
  refine ⟨_, _, first.append second, fun undamaged => ?_⟩
  have overwrites : ((rename "Yours").play .plain false renamed).1.any (fun a => committedProfile a = some ⟨1⟩ ∧
      a.before.entry .plain ⟨1⟩ ≠ none ∧ a.before.entry .plain ⟨1⟩ ≠ (a.before.stores false).findProfile ⟨1⟩) = true := by
    decide +kernel
  obtain ⟨a, mem, facts⟩ := List.any_eq_true.mp overwrites
  obtain ⟨committed, present, differ⟩ := of_decide_eq_true facts
  obtain ⟨stored, found⟩ := Option.ne_none_iff_exists'.mp present
  have asked := undamaged (.asked false (rename "Yours") a) (List.mem_append_right _
    (List.mem_cons_of_mem _ (List.mem_append_left _ (List.mem_map_of_mem mem))))
  exact differ (found.trans (asked.seen ⟨1⟩ stored committed found).symm)

end MacSftp
