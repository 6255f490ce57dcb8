import MacSftp.Forms.Session

namespace MacSftp.Forms

open Lib

theorem dropWhile_plain {p : Char → Bool} {text : List Char} (plain : ∀ c ∈ text, p c = false) : text.dropWhile p = text :=
  List.dropWhile_eq_self_iff.mpr fun nonempty => by simp [plain _ (List.getElem_mem nonempty)]

theorem trim_plain {text : List Char} (plain : ∀ c ∈ text, isWhitespace c = false) : trim text = text := by
  have backwards : ∀ c ∈ text.reverse, isWhitespace c = false := fun c mem => plain c (List.mem_reverse.mp mem)
  rw [trim, dropWhile_plain plain, dropWhile_plain backwards, List.reverse_reverse]

theorem digit_not_whitespace {c : Char} (digit : c.isDigit = true) : isWhitespace c = false := by
  have range : 48 ≤ c.toNat ∧ c.toNat ≤ 57 := by
    simp only [Char.isDigit, Bool.and_eq_true, decide_eq_true_eq] at digit
    exact digit
  simp only [isWhitespace, Bool.or_eq_false_iff, Bool.and_eq_false_iff, decide_eq_false_iff_not, beq_eq_false_iff_ne]
  omega

theorem toDigits_digit {n : Nat} {c : Char} (mem : c ∈ Nat.toDigits 10 n) : c.isDigit = true :=
  Nat.isDigit_of_mem_toDigits (by omega) (by omega) mem

theorem parseU16_toDigits {n : Nat} (small : n < 65536) : parseU16 (Nat.toDigits 10 n) = some n := by
  have unsigned : (Nat.toDigits 10 n).head? ≠ some '+' := by
    intro first
    have digit := toDigits_digit (List.mem_of_mem_head? first)
    cases digit
  have digits : ¬ (Nat.toDigits 10 n = [] ∨ ¬ (Nat.toDigits 10 n).all Char.isDigit = true) := by
    rintro (empty | other)
    · exact Nat.toDigits_ne_nil empty
    · exact other (List.all_eq_true.mpr fun c mem => toDigits_digit mem)
  simp only [parseU16, if_neg unsigned, if_neg digits, Nat.ofDigitChars_ten_toDigits, if_pos small]

theorem text_withValue (value : List Char) : (InputState.withValue value).text = value :=
  List.map_map.trans (List.map_id value)

/-- The form names the endpoint of the profile. -/
structure AtTarget (form : ConnectForm) (profile : ConnectionProfile) : Prop where
  host : trim form.host.text = profile.host.toList
  port : trim form.port.text = Nat.toDigits 10 profile.port
  username : trim form.username.text = profile.username.toList

def HoldsSecret (form : ConnectForm) : Prop := form.password.Holds ∨ form.passphrase.Holds

/-- The connection goes to another endpoint than the profile's. -/
def Elsewhere (settings : ConnectionSettings) (profile : ConnectionProfile) : Prop :=
  settings.host ≠ profile.host ∨ settings.port ≠ profile.port ∨ settings.username ≠ profile.username

/-- What has been restored is only in a form that names the endpoint it was restored for. -/
def Kept (s : FormState) : Prop :=
  ∀ form, s.form = some form → HoldsSecret form →
    ∃ profile ∈ s.restoredFrom, profile.port < 65536 ∧ 0 < profile.port ∧ AtTarget form profile

/-- An edit of host, port or user name that leads away from the restored profile, while a secret field still has
something restored in it, is made in a form that is linked to a profile, and leads away from that one too. -/
def EditsLinked (s : FormState) : FormOp → Prop
  | .change field value => ∀ form profile, s.form = some form → s.restoredFrom = some profile → HoldsSecret form →
      field = .host ∨ field = .port ∨ field = .username → ConnectForm.targetDiverged field value (some profile) = true →
      ∃ profileId, form.sourceProfileId = some profileId ∧
        ConnectForm.targetDiverged field value (s.saved.findProfile profileId) = true
  | _ => True

theorem not_holds_clear (input : InputState) : ¬ input.clear.Holds := by
  rintro ⟨c, mem, -⟩
  cases mem

theorem detach_holds_nothing (form : ConnectForm) : ¬ HoldsSecret form.detachFromProfile := by
  rintro (password | passphrase)
  · exact not_holds_clear form.password password
  · exact not_holds_clear form.passphrase passphrase

theorem plain_of_valid {name : String} (valid : ProfilesFile.invalidName name = false) :
    ∀ c ∈ name.toList, isWhitespace c = false := by
  intro c mem
  simp only [ProfilesFile.invalidName, Bool.or_eq_false_iff, List.any_eq_false] at valid
  have both := valid.2 c mem
  simp only [Bool.or_eq_true, not_or, Bool.not_eq_true] at both
  exact both.1

theorem findProfile_valid {saved : SavedProfiles} {profileId : ProfileId} {profile : ConnectionProfile}
    (found : saved.findProfile profileId = some profile) :
    ProfilesFile.invalidName profile.host = false ∧ ProfilesFile.invalidName profile.username = false ∧
      0 < profile.port ∧ profile.port < 65536 :=
  saved.valid profile (List.mem_of_find?_eq_some found)

theorem fromProfile_fields (profile : ConnectionProfile) :
    (ConnectForm.fromProfile profile).host = .withValue profile.host.toList ∧
      (ConnectForm.fromProfile profile).port = .withValue (Nat.toDigits 10 profile.port) ∧
      (ConnectForm.fromProfile profile).username = .withValue profile.username.toList ∧
      (ConnectForm.fromProfile profile).password = {} ∧ (ConnectForm.fromProfile profile).passphrase = {} := by
  unfold ConnectForm.fromProfile
  cases profile.auth <;> exact ⟨rfl, rfl, rfl, rfl, rfl⟩

theorem restore_fields (form : ConnectForm) (settings : ConnectionSettings) :
    (form.restore settings).host = form.host ∧ (form.restore settings).port = form.port ∧
      (form.restore settings).username = form.username := by
  unfold ConnectForm.restore
  rcases settings.auth with password | ⟨keyPath, passphrase⟩ | _ | socketPath
  · exact ⟨rfl, rfl, rfl⟩
  · cases passphrase <;> exact ⟨rfl, rfl, rfl⟩
  · exact ⟨rfl, rfl, rfl⟩
  · exact ⟨rfl, rfl, rfl⟩

theorem not_holds_empty : ¬ ({} : InputState).Holds := not_holds_clear {}

theorem fromProfile_atTarget {profile : ConnectionProfile} {form : ConnectForm}
    (host : form.host = (ConnectForm.fromProfile profile).host) (port : form.port = (ConnectForm.fromProfile profile).port)
    (username : form.username = (ConnectForm.fromProfile profile).username)
    (valid : ProfilesFile.invalidName profile.host = false ∧ ProfilesFile.invalidName profile.username = false) :
    AtTarget form profile := by
  obtain ⟨fromHost, fromPort, fromUsername, -⟩ := fromProfile_fields profile
  constructor
  · rw [host, fromHost, text_withValue]
    exact trim_plain (plain_of_valid valid.1)
  · rw [port, fromPort, text_withValue]
    exact trim_plain fun c mem => digit_not_whitespace (toDigits_digit mem)
  · rw [username, fromUsername, text_withValue]
    exact trim_plain (plain_of_valid valid.2)

/-- An operation that leaves the endpoint alone and restores nothing. -/
structure Harmless (form after : ConnectForm) : Prop where
  host : after.host = form.host
  port : after.port = form.port
  username : after.username = form.username
  secrets : HoldsSecret after → HoldsSecret form

theorem Harmless.refl (form : ConnectForm) : Harmless form form := ⟨rfl, rfl, rfl, id⟩

theorem AtTarget.harmless {form after : ConnectForm} {profile : ConnectionProfile} (at_ : AtTarget form profile)
    (harmless : Harmless form after) : AtTarget after profile :=
  ⟨harmless.host ▸ at_.host, harmless.port ▸ at_.port, harmless.username ▸ at_.username⟩

theorem kept_onForm {s : FormState} (kept : Kept s) {f : ConnectForm → ConnectForm}
    (harmless : ∀ form, s.form = some form → Harmless form (f form)) : Kept (s.onForm f) := by
  intro after is holds
  obtain ⟨form, was, rfl⟩ := Option.map_eq_some_iff.mp is
  obtain ⟨profile, mem, small, positive, target⟩ := kept form was ((harmless form was).secrets holds)
  exact ⟨profile, mem, small, positive, target.harmless (harmless form was)⟩

theorem harmless_detach (form : ConnectForm) : Harmless form form.detachFromProfile :=
  ⟨rfl, rfl, rfl, fun holds => absurd holds (detach_holds_nothing form)⟩

theorem harmless_manual (form : ConnectForm) : Harmless form form.switchToManualEntry :=
  ⟨rfl, rfl, rfl, fun holds => absurd holds (detach_holds_nothing form)⟩

theorem Harmless.trans {form between after : ConnectForm} (first : Harmless form between) (second : Harmless between after) :
    Harmless form after :=
  ⟨second.host.trans first.host, second.port.trans first.port, second.username.trans first.username,
    fun holds => first.secrets (second.secrets holds)⟩

theorem harmless_leave (form : ConnectForm) (method : AuthMethodKind) : Harmless form (form.leaveMethods method) := by
  cases method with
  | password => exact ⟨rfl, rfl, rfl, fun holds => .inl (holds.resolve_right (not_holds_clear form.passphrase))⟩
  | privateKey => exact ⟨rfl, rfl, rfl, fun holds => .inr (holds.resolve_left (not_holds_clear form.password))⟩
  | keyboardInteractive => exact ⟨rfl, rfl, rfl, fun holds => absurd holds (detach_holds_nothing form)⟩
  | sshAgent => exact ⟨rfl, rfl, rfl, fun holds => absurd holds (detach_holds_nothing form)⟩

theorem harmless_setAuthMethod (form : ConnectForm) (method : AuthMethodKind) : Harmless form (form.setAuthMethod method) := by
  have switched (linked : ConnectForm) (harmless : Harmless form linked) :
      Harmless form (ConnectForm.leaveMethods { linked with authMethod := method } method) := by
    have entered : Harmless linked { linked with authMethod := method } := ⟨rfl, rfl, rfl, id⟩
    exact (harmless.trans entered).trans (harmless_leave _ method)
  have detached : Harmless form (if form.sourceProfileId.isSome then form.detachFromProfile else form) := by
    split_ifs
    · exact harmless_detach form
    · exact .refl form
  have refocused (switched : ConnectForm) (harmless : Harmless form switched) (field : ConnectField) :
      Harmless form (if switched.focusedField ∈ switched.fieldOrder then switched
          else { switched with focusedField := field }) := by
    split_ifs
    · exact harmless
    · exact ⟨harmless.host, harmless.port, harmless.username, harmless.secrets⟩
  unfold ConnectForm.setAuthMethod
  split
  · exact .refl form
  · exact refocused _ (switched _ detached) _

theorem harmless_editSecret (form : ConnectForm) (keystroke : Keystroke) (clipboard : Option (List Char))
    (focused : form.focusedField = .password ∨ form.focusedField = .passphrase) :
    Harmless form (form.editSecret keystroke clipboard) := by
  have edited (input : InputState) (holds : input.Holds → (form.fieldState form.focusedField).Holds) (linked : Option ProfileId)
      (error : Option String) :
      Harmless form { form.setField form.focusedField input with sourceProfileId := linked, error := error } := by
    rcases focused with field | field <;> rw [field] at holds ⊢
    · exact ⟨rfl, rfl, rfl, fun secret => secret.imp_left holds⟩
    · exact ⟨rfl, rfl, rfl, fun secret => secret.imp_right holds⟩
  simp only [ConnectForm.editSecret]
  split
  · cases clipboard with
    | none => exact .refl form
    | some text => exact edited _ InputState.holds_insert none _
  · cases handled : (form.fieldState form.focusedField).handleKeystroke keystroke with
    | none => exact .refl form
    | some after => exact edited after (InputState.holds_handleKeystroke handled) _ none

theorem edit_fields (form : ConnectForm) {field : ConnectField} (value : List Char)
    (plain : ¬ (field = .password ∨ field = .passphrase)) :
    (form.edit field value).sourceProfileId = form.sourceProfileId ∧ (form.edit field value).password = form.password ∧
      (form.edit field value).passphrase = form.passphrase := by
  cases field with
  | password => exact absurd (.inl rfl) plain
  | passphrase => exact absurd (.inr rfl) plain
  | host | port | username | keyPath | agentSocket | profileFilter => exact ⟨rfl, rfl, rfl⟩

theorem change_holds {saved : SavedProfiles} {form : ConnectForm} {field : ConnectField} {value : List Char}
    (plain : ¬ (field = .password ∨ field = .passphrase)) (holds : HoldsSecret (form.change saved field value)) :
    form.change saved field value = form.edit field value ∧
      ∀ profileId, form.sourceProfileId = some profileId →
        ConnectForm.targetDiverged field value (saved.findProfile profileId) = false := by
  have linked := (edit_fields form value plain).1
  unfold ConnectForm.change at holds ⊢
  rw [if_neg plain] at holds ⊢
  cases source : form.sourceProfileId with
  | none =>
    rw [linked.trans source]
    refine ⟨rfl, fun profileId impossible => ?_⟩
    cases impossible
  | some sourceId =>
    rw [linked.trans source] at holds ⊢
    dsimp only at holds ⊢
    cases diverged : ConnectForm.targetDiverged field value (saved.findProfile sourceId) with
    | true =>
      rw [diverged] at holds
      exact absurd holds (detach_holds_nothing (form.edit field value))
    | false =>
      refine ⟨rfl, fun profileId is => ?_⟩
      rw [← Option.some.inj is]
      exact diverged

theorem edit_atTarget {form : ConnectForm} {profile : ConnectionProfile} {field : ConnectField} {value : List Char}
    (target : AtTarget form profile)
    (same : field = .host ∨ field = .port ∨ field = .username → ConnectForm.targetDiverged field value (some profile) = false) :
    AtTarget (form.edit field value) profile := by
  cases field with
  | host =>
    have is : trim value = profile.host.toList := by simpa [ConnectForm.targetDiverged] using same (.inl rfl)
    exact ⟨(congrArg trim (text_withValue value)).trans is, target.port, target.username⟩
  | port =>
    have is : trim value = Nat.toDigits 10 profile.port := by simpa [ConnectForm.targetDiverged] using same (.inr (.inl rfl))
    exact ⟨target.host, (congrArg trim (text_withValue value)).trans is, target.username⟩
  | username =>
    have is : trim value = profile.username.toList := by simpa [ConnectForm.targetDiverged] using same (.inr (.inr rfl))
    exact ⟨target.host, target.port, (congrArg trim (text_withValue value)).trans is⟩
  | password | passphrase | keyPath | agentSocket | profileFilter => exact ⟨target.host, target.port, target.username⟩

theorem kept_change {s : FormState} {field : ConnectField} {value : List Char} (linked : EditsLinked s (.change field value))
    (kept : Kept s) : Kept (s.onForm fun form => form.change s.saved field value) := by
  intro after is holds
  obtain ⟨form, was, rfl⟩ := Option.map_eq_some_iff.mp is
  by_cases secret : field = .password ∨ field = .passphrase
  · rw [ConnectForm.change, if_pos secret] at holds ⊢
    exact kept form was holds
  · obtain ⟨edited, near⟩ := change_holds secret holds
    obtain ⟨-, password, passphrase⟩ := edit_fields form value secret
    have held : HoldsSecret form := by
      rw [edited, HoldsSecret, password, passphrase] at holds
      exact holds
    obtain ⟨profile, restored, small, positive, target⟩ := kept form was held
    refine ⟨profile, restored, small, positive, ?_⟩
    rw [edited]
    apply edit_atTarget target
    intro endpoint
    -- a divergence would have been noticed through the link
    by_contra diverged
    obtain ⟨profileId, source, away⟩ :=
      linked form profile was restored held endpoint (Bool.not_eq_false _ ▸ diverged)
    have stayed := near profileId source
    rw [away] at stayed
    cases stayed

theorem not_holds_prefilled (settings : ConnectionSettings) : ¬ HoldsSecret (ConnectForm.prefilled settings) := by
  have password : (ConnectForm.prefilled settings).password = {} := by unfold ConnectForm.prefilled; cases settings.auth <;> rfl
  have passphrase : (ConnectForm.prefilled settings).passphrase = {} := by unfold ConnectForm.prefilled; cases settings.auth <;> rfl
  rw [HoldsSecret, password, passphrase]
  exact fun holds => holds.elim not_holds_empty not_holds_empty

theorem not_holds_fromProfile (profile : ConnectionProfile) : ¬ HoldsSecret (ConnectForm.fromProfile profile) := by
  obtain ⟨-, -, -, password, passphrase⟩ := fromProfile_fields profile
  rw [HoldsSecret, password, passphrase]
  exact fun holds => holds.elim not_holds_empty not_holds_empty

theorem kept_of_not_holds {s : FormState} (nothing : ∀ form, s.form = some form → ¬ HoldsSecret form) : Kept s :=
  fun form is holds => absurd holds (nothing form is)

theorem kept_openConnectForm (s : FormState) (cached : Option ConnectionSettings) (restored : Option RestoredTabTarget) :
    Kept (s.openConnectForm cached restored) := by
  apply kept_of_not_holds
  rintro form is
  cases is
  have blank (form : ConnectForm) (password : form.password = {}) (passphrase : form.passphrase = {}) : ¬ HoldsSecret form := by
    rw [HoldsSecret, password, passphrase]
    exact fun holds => holds.elim not_holds_empty not_holds_empty
  cases cached with
  | some settings => exact not_holds_prefilled settings
  | none =>
    cases restored with
    | none => exact blank _ rfl rfl
    | some target =>
      dsimp only
      cases target.profileId.bind s.saved.findProfile with
      | some profile => exact not_holds_fromProfile profile
      | none => exact blank _ rfl rfl

theorem kept_useProfile {s : FormState} (profileId : ProfileId) (loaded : LoadedSettings) (kept : Kept s) :
    Kept (s.useProfile profileId loaded) := by
  unfold FormState.useProfile
  cases found : s.saved.findProfile profileId with
  | none => exact kept
  | some profile =>
    cases loaded with
    | none =>
      apply kept_of_not_holds
      rintro form is
      cases is
      exact not_holds_fromProfile profile
    | some settings =>
      rintro form is -
      cases is
      obtain ⟨host, username, positive, small⟩ := findProfile_valid found
      obtain ⟨sameHost, samePort, sameUsername⟩ := restore_fields (.fromProfile profile) settings
      exact ⟨profile, rfl, small, positive, fromProfile_atTarget sameHost samePort sameUsername ⟨host, username⟩⟩

theorem kept_submit {s : FormState} (home : Option (List Char)) (kept : Kept s) : Kept (s.submitConnectForm home).1 := by
  unfold FormState.submitConnectForm
  cases is : s.form with
  | none => exact kept
  | some form =>
    dsimp only
    cases form.buildSettings home with
    | ok settings => exact kept_of_not_holds fun _ impossible => by cases impossible
    | error message =>
      rintro after again holds
      cases again
      obtain ⟨profile, restored, small, positive, target⟩ := kept form is holds
      exact ⟨profile, restored, small, positive, target.host, target.port, target.username⟩

theorem kept_key {s : FormState} (home : Option (List Char)) (keystroke : Keystroke) (clipboard : Option (List Char))
    (kept : Kept s) :
    Kept (s.handleConnectFormKey home keystroke clipboard).1 := by
  unfold FormState.handleConnectFormKey
  cases is : s.form with
  | none => exact kept
  | some form =>
    dsimp only
    split
    · split
      · exact kept_onForm kept fun form _ => ⟨rfl, rfl, rfl, id⟩
      · exact kept
    split
    · split
      · exact kept
      · exact kept_submit home kept
    split
    · exact kept_onForm kept fun form _ => ⟨rfl, rfl, rfl, id⟩
    split
    · exact kept
    · next secret =>
      apply kept_onForm kept
      intro current same
      cases is.symm.trans same
      have focused : form.focusedField = .password ∨ form.focusedField = .passphrase := by tauto
      exact harmless_editSecret form keystroke clipboard focused

theorem kept_apply {s : FormState} (home : Option (List Char)) (op : FormOp) (linked : EditsLinked s op) (kept : Kept s) :
    Kept (s.apply home op).1 := by
  cases op with
  | openConnectForm cached restored => exact kept_openConnectForm s cached restored
  | closeConnectForm => exact kept_of_not_holds fun _ impossible => by cases impossible
  | useProfile profileId loaded => exact kept_useProfile profileId loaded kept
  | selectConnectProfile profileId loaded =>
    exact kept_onForm (kept_useProfile profileId loaded kept) fun form _ => ⟨rfl, rfl, rfl, id⟩
  | change field value => exact kept_change linked kept
  | focus field =>
    apply kept_onForm kept
    intro form _
    split_ifs <;> exact ⟨rfl, rfl, rfl, id⟩
  | cycleFocus backwards => exact kept_onForm kept fun form _ => ⟨rfl, rfl, rfl, id⟩
  | setAuthMethod method => exact kept_onForm kept fun form _ => harmless_setAuthMethod form method
  | toggleProfilePicker => exact kept_onForm kept fun form _ => ⟨rfl, rfl, rfl, id⟩
  | switchToManualEntry => exact kept_onForm kept fun form _ => harmless_manual form
  | key keystroke clipboard => exact kept_key home keystroke clipboard kept
  | submit => exact kept_submit home kept
  | profilesChanged saved => exact kept

theorem buildPort_atTarget {form : ConnectForm} {profile : ConnectionProfile} (target : AtTarget form profile)
    (small : profile.port < 65536) (positive : 0 < profile.port) : form.buildPort = .ok profile.port := by
  have given : Nat.toDigits 10 profile.port ≠ [] := Nat.toDigits_ne_nil
  simp only [ConnectForm.buildPort, target.port, if_neg given, parseU16_toDigits small, if_pos positive]

theorem buildSettings_atTarget {home : Option (List Char)} {form : ConnectForm} {settings : ConnectionSettings}
    {profile : ConnectionProfile} (built : form.buildSettings home = .ok settings) (target : AtTarget form profile)
    (small : profile.port < 65536) (positive : 0 < profile.port) : ¬ Elsewhere settings profile := by
  have same : settings.host = profile.host ∧ settings.port = profile.port ∧ settings.username = profile.username := by
    unfold ConnectForm.buildSettings at built
    rw [buildPort_atTarget target small positive, target.host, target.username] at built
    dsimp only [bind, Except.bind, pure, Except.pure, throw, throwThe, MonadExceptOf.throw] at built
    repeat' split at built
    all_goals cases built
    exact ⟨String.ofList_toList, rfl, String.ofList_toList⟩
  rintro (host | port | username)
  · exact host same.1
  · exact port same.2.1
  · exact username same.2.2

theorem submittedSecret_holds {form : ConnectForm} {c : FieldChar} (mem : c ∈ form.submittedSecret) (restored : c.restored = true) :
    HoldsSecret form := by
  unfold ConnectForm.submittedSecret at mem
  cases is : form.authMethod with
  | password => rw [is] at mem; exact .inl ⟨c, mem, restored⟩
  | privateKey => rw [is] at mem; exact .inr ⟨c, mem, restored⟩
  | keyboardInteractive => rw [is] at mem; cases mem
  | sshAgent => rw [is] at mem; cases mem

theorem submitted_form {s : FormState} {home : Option (List Char)} {submission : Submission}
    (submitted : (s.submitConnectForm home).2 = some submission) :
    ∃ form, s.form = some form ∧ form.buildSettings home = .ok submission.settings ∧ submission.secret = form.submittedSecret := by
  unfold FormState.submitConnectForm at submitted
  cases is : s.form with
  | none => rw [is] at submitted; cases submitted
  | some form =>
    rw [is] at submitted
    dsimp only at submitted
    cases built : form.buildSettings home with
    | error message => rw [built] at submitted; cases submitted
    | ok settings =>
      rw [built] at submitted
      cases submitted
      exact ⟨form, rfl, built, rfl⟩

theorem submission_form {s : FormState} {home : Option (List Char)} {op : FormOp} {submission : Submission}
    (submitted : (s.apply home op).2 = some submission) :
    ∃ form, s.form = some form ∧ form.buildSettings home = .ok submission.settings ∧ submission.secret = form.submittedSecret := by
  cases op with
  | submit => exact submitted_form submitted
  | key keystroke clipboard =>
    simp only [FormState.apply, FormState.handleConnectFormKey] at submitted
    repeat' split at submitted
    all_goals first | cases submitted | exact submitted_form submitted
  | openConnectForm | closeConnectForm | useProfile | selectConnectProfile | change | focus | cycleFocus | setAuthMethod
  | toggleProfilePicker | switchToManualEntry | profilesChanged => cases submitted

/-- Nothing of a restored secret is submitted to another endpoint than the one it was restored for. -/
def SecretStaysHome (home : Option (List Char)) (saved : SavedProfiles) (ops : List FormOp) : Prop :=
  ∀ op submission profile, (((FormState.machine home).run { saved := saved } ops).apply home op).2 = some submission →
    ((FormState.machine home).run { saved := saved } ops).restoredFrom = some profile → Elsewhere submission.settings profile →
      ∀ c ∈ submission.secret, c.restored = false

theorem secret_stays_home (home : Option (List Char)) (saved : SavedProfiles) (ops : List FormOp)
    (linked : (FormState.machine home).Admissible EditsLinked { saved := saved } ops) : SecretStaysHome home saved ops := by
  have keep (s : FormState) (op : FormOp) (step : EditsLinked s op) (kept : Kept s) : Kept ((FormState.machine home).next s op) :=
    kept_apply home op step kept
  have start : Kept { saved := saved } := kept_of_not_holds fun _ impossible => by cases impossible
  have kept := (FormState.machine home).admissible_invariant keep start ops linked
  intro op submission profile submitted restoredFrom elsewhere c mem
  obtain ⟨form, is, built, secret⟩ := submission_form submitted
  rw [secret] at mem
  by_contra restored
  obtain ⟨target, from_, small, positive, atTarget⟩ :=
    kept form is (submittedSecret_holds mem (Bool.not_eq_false _ ▸ restored))
  cases restoredFrom.symm.trans from_
  exact buildSettings_atTarget built atTarget small positive elsewhere

def homeProfile : ConnectionProfile := { id := ⟨1⟩, name := "home", host := "a", username := "u", auth := .password ⟨"r"⟩ }

def homeOnly : SavedProfiles := ⟨[homeProfile], by decide +kernel⟩

def restoredSettings : ConnectionSettings := ⟨"a", 22, "u", .password "s", .direct⟩

/-- The profile is used, Tab goes on to the password, and then the server is edited. -/
def usedThenMoved (between : List FormOp) : List FormOp :=
  [.openConnectForm none none, .useProfile ⟨1⟩ (some restoredSettings), .cycleFocus false, .cycleFocus false, .cycleFocus false] ++
    between ++ [.change .host ['b']]

theorem secret_stays_home_moved : SecretStaysHome none homeOnly (usedThenMoved []) := by
  apply secret_stays_home none homeOnly (usedThenMoved [])
  refine ⟨trivial, trivial, trivial, trivial, trivial, ?_, trivial⟩
  rintro form profile is restoredFrom - - -
  cases is
  cases restoredFrom
  exact ⟨⟨1⟩, rfl, by decide +kernel⟩

/-- A letter typed into the restored password drops the link, and the edit of the server then clears nothing. -/
theorem secret_travels_after_typing :
    ¬ ∀ home saved ops, SecretStaysHome home saved ops := by
  intro stays
  have leaked := stays none homeOnly (usedThenMoved [.key { key := "x", keyChar := some ['x'] } none]) .submit
    ⟨⟨"b", 22, "u", .password "sx", .direct⟩, none, [⟨'s', true⟩, ⟨'x', false⟩]⟩ homeProfile rfl rfl
    (.inl (by decide)) ⟨'s', true⟩ (by decide)
  cases leaked

end MacSftp.Forms
