import MacSftp.Storage.ConfigWrites

namespace MacSftp.Settings

open Lib ConfigStore

section Calls

variable {Contents : Type} {codec : JsonCodec AppConfig Contents} {disk : Option Contents} {faults : CallFaults}
    {store : ConfigStore}
  {loaded : AppConfig} {setting : ConfigSetting}

/-- What loading the file gives. -/
def reload (codec : JsonCodec AppConfig Contents) (disk : Option Contents) : Except ConfigError AppConfig :=
  loadFromDisk codec "" none disk

/-- The instance says what the file says. -/
def InStep (codec : JsonCodec AppConfig Contents) (store : ConfigStore) (disk : Option Contents) : Prop :=
  reload codec disk = .ok store.config

theorem reload_ok (read : reload codec disk = .ok loaded) :
    ∃ config, readConfig codec disk = .ok config ∧ config.version ≤ AppConfig.currentVersion ∧ loaded = config.sanitize := by
  unfold reload loadFromDisk at read
  cases parsed : readConfig codec disk with
  | error error =>
    simp only [parsed] at read
    cases read
  | ok config =>
    simp only [parsed] at read
    split at read
    case isTrue => cases read
    case isFalse known =>
      cases read
      exact ⟨config, rfl, Nat.le_of_not_lt known, rfl⟩

theorem reload_clean (read : reload codec disk = .ok loaded) : loaded.sanitize = loaded := by
  obtain ⟨config, -, -, rfl⟩ := reload_ok read
  exact config.sanitize_sanitize

theorem reload_version (read : reload codec disk = .ok loaded) : loaded.version ≤ AppConfig.currentVersion := by
  obtain ⟨config, -, known, rfl⟩ := reload_ok read
  exact known

theorem reload_saved {config : AppConfig} (clean : config.sanitize = config) (known : config.version ≤ AppConfig.currentVersion) :
    reload codec (some (codec.toStringPretty config)) = .ok config := by
  have parsed : readConfig codec (some (codec.toStringPretty config)) = .ok config := by
    change (codec.fromStr (codec.toStringPretty config)).mapError ConfigError.parse = _
    rw [codec.fromStr_toStringPretty]
    rfl
  unfold reload loadFromDisk
  simp only [parsed, if_neg (Nat.not_lt.mpr known), clean]

/-- The values that a call would save. -/
def changed (setting : ConfigSetting) (loaded : AppConfig) : AppConfig := (setting.apply loaded).sanitize

theorem changed_clean (setting : ConfigSetting) (loaded : AppConfig) : (changed setting loaded).sanitize = changed setting loaded :=
  AppConfig.sanitize_sanitize _

theorem changed_version (setting : ConfigSetting) (loaded : AppConfig) : (changed setting loaded).version = loaded.version := by
  cases setting <;> rfl

theorem reload_changed (read : reload codec disk = .ok loaded) (setting : ConfigSetting) :
    reload codec (some (codec.toStringPretty (changed setting loaded))) = .ok (changed setting loaded) := by
  apply reload_saved (changed_clean setting loaded)
  rw [changed_version]
  exact reload_version read

/-- The call gets to the write. -/
def Begins (codec : JsonCodec AppConfig Contents) (faults : CallFaults) (store : ConfigStore) (disk : Option Contents) : Prop :=
  store.initialError = none ∧ faults.lock = none ∧ faults.read = none ∧ (reload codec disk).isOk = true

instance decidableBegins (codec : JsonCodec AppConfig Contents) (faults : CallFaults) (store : ConfigStore)
    (disk : Option Contents) :
    Decidable (Begins codec faults store disk) :=
  inferInstanceAs (Decidable (_ ∧ _ ∧ _ ∧ _))

theorem begins_loaded (begins : Begins codec faults store disk) : ∃ loaded, reload codec disk = .ok loaded := by
  have read := begins.2.2.2
  cases same : reload codec disk with
  | ok loaded => exact ⟨loaded, rfl⟩
  | error error =>
    rw [same] at read
    cases read

theorem modify_stuck (apply : AppConfig → AppConfig) (stuck : ¬Begins codec faults store disk) :
    ∃ error, store.modify codec faults disk apply = failed store disk error := by
  unfold ConfigStore.modify modifyUnderLock
  cases blocked : store.initialError with
  | some error => exact ⟨_, rfl⟩
  | none =>
    cases locked : faults.lock with
    | some message => exact ⟨_, rfl⟩
    | none =>
      cases unread : faults.read with
      | some message => exact ⟨_, rfl⟩
      | none =>
        cases read : loadFromDisk codec store.path none disk with
        | error error => exact ⟨error, rfl⟩
        | ok loaded =>
          refine absurd ⟨blocked, locked, unread, ?_⟩ stuck
          have same : reload codec disk = .ok loaded := read
          rw [same]
          rfl

theorem modify_begun (setting : ConfigSetting) (read : reload codec disk = .ok loaded) (begins : Begins codec faults store disk) :
    (store.modify codec faults disk setting.apply).answer.replaced = faults.write.replaced ∧
      (store.modify codec faults disk setting.apply).cell =
        (if faults.write.replaced then some (codec.toStringPretty (changed setting loaded)) else disk) ∧
      (store.modify codec faults disk setting.apply).party.config =
        (if faults.write = .written then changed setting loaded else store.config) := by
  obtain ⟨open_, unlocked, readable, -⟩ := begins
  have read' : loadFromDisk codec store.path none disk = .ok loaded := read
  have inner : store.modifyUnderLock codec faults disk setting.apply =
      ⟨⟨((FileWrite.writePrivateFileAtomically store.path faults.write disk
            (codec.toStringPretty (changed setting loaded))).1.mapError
            (ConfigError.io store.path)), faults.write.replaced⟩,
        { store with config := changed setting loaded },
        (FileWrite.writePrivateFileAtomically store.path faults.write disk (codec.toStringPretty (changed setting loaded))).2⟩ := by
    unfold modifyUnderLock
    simp only [open_, unlocked, readable, read']
    rfl
  unfold ConfigStore.modify
  rw [inner]
  cases faults.write with
  | written => exact ⟨rfl, rfl, rfl⟩
  | notCommitted message => exact ⟨rfl, rfl, rfl⟩
  | replacedButNotDurable message => exact ⟨rfl, rfl, rfl⟩

theorem modify_left (left : (store.modify codec faults disk setting.apply).answer.replaced = false) :
    (store.modify codec faults disk setting.apply).cell = disk := by
  by_cases begins : Begins codec faults store disk
  · obtain ⟨loaded, read⟩ := begins_loaded begins
    obtain ⟨replaced, cell, -⟩ := modify_begun setting read begins
    rw [cell, ← replaced, left]
    exact if_neg Bool.false_ne_true
  · obtain ⟨error, same⟩ := modify_stuck setting.apply begins
    rw [same]
    rfl

theorem modify_keeps (left : (store.modify codec faults disk setting.apply).answer.replaced = false) :
    (store.modify codec faults disk setting.apply).party.config = store.config := by
  by_cases begins : Begins codec faults store disk
  · obtain ⟨loaded, read⟩ := begins_loaded begins
    obtain ⟨replaced, -, config⟩ := modify_begun setting read begins
    rw [config, if_neg]
    intro written
    rw [replaced, written] at left
    cases left
  · obtain ⟨error, same⟩ := modify_stuck setting.apply begins
    rw [same]
    rfl

theorem modify_replaced (replaced : (store.modify codec faults disk setting.apply).answer.replaced = true) :
    ∃ loaded, reload codec disk = .ok loaded ∧
      reload codec (store.modify codec faults disk setting.apply).cell = .ok (changed setting loaded) := by
  by_cases begins : Begins codec faults store disk
  · obtain ⟨loaded, read⟩ := begins_loaded begins
    obtain ⟨same, cell, -⟩ := modify_begun setting read begins
    refine ⟨loaded, read, ?_⟩
    rw [cell, ← same, if_pos replaced]
    exact reload_changed read setting
  · obtain ⟨error, same⟩ := modify_stuck setting.apply begins
    rw [same] at replaced
    cases replaced

/-- The instance has the value already, and otherwise what the file has. -/
def Already (setting : ConfigSetting) (config loaded : AppConfig) : Prop :=
  setting.HeldIn config ∧ ∀ field, field ≠ setting.field → SameField config loaded field

theorem changed_of_already {config : AppConfig} (read : reload codec disk = .ok loaded) (already : Already setting config loaded) :
    changed setting loaded = config := by
  apply eq_of_sameField
  intro field
  apply sameField_symm
  by_cases own : field = setting.field
  · subst own
    exact (heldIn_iff loaded).mp already.1
  · exact sameField_trans (already.2 field own) (sameField_symm (sameField_apply (reload_clean read) own))

end Calls

section Runs

variable {Contents ι : Type} {codec : JsonCodec AppConfig Contents}

/-- The setting whose write has replaced the file. -/
def landed (codec : JsonCodec AppConfig Contents) (s : ConfigWorld Contents ι) (input : ι × ConfigOp) : Option ConfigSetting :=
  match input.2 with
  | .openOrDefaults _ => none
  | .set faults setting =>
    if ((s.parties input.1).modify codec faults s.cell setting.apply).answer.replaced then some setting else none

def lastOf (field : ConfigField) (history : List ConfigSetting) : Option ConfigSetting :=
  history.reverse.find? fun setting => setting.field = field

/-- Every field holds what was set last, and what was there before when it has not been set. -/
def HoldsLast (history : List ConfigSetting) (old new : AppConfig) : Prop :=
  ∀ field,
    match lastOf field history with
    | some setting => setting.HeldIn new
    | none => SameField new old field

/-- A file that cannot be loaded is left as it is. -/
def FieldsHold (codec : JsonCodec AppConfig Contents) (start disk : Option Contents) (history : List ConfigSetting) : Prop :=
  match reload codec start with
  | .error _ => disk = start ∧ history = []
  | .ok old => ∃ new, reload codec disk = .ok new ∧ HoldsLast history old new

theorem lastOf_concat (field : ConfigField) (history : List ConfigSetting) (setting : ConfigSetting) :
    lastOf field (history ++ [setting]) = if setting.field = field then some setting else lastOf field history := by
  unfold lastOf
  rw [List.reverse_append, List.reverse_singleton, List.singleton_append, List.find?_cons]
  by_cases same : setting.field = field
  · rw [if_pos same, decide_eq_true same]
  · rw [if_neg same, decide_eq_false same]

theorem lastOf_field {field : ConfigField} {history : List ConfigSetting} {setting : ConfigSetting}
    (last : lastOf field history = some setting) : setting.field = field := by
  unfold lastOf at last
  have named := List.find?_some last
  exact of_decide_eq_true named

theorem heldIn_congr {setting : ConfigSetting} {a b : AppConfig} (same : SameField a b setting.field) (held : setting.HeldIn b) :
    setting.HeldIn a :=
  (heldIn_iff b).mpr (sameField_trans same held)

theorem holdsLast_changed {history : List ConfigSetting} {old loaded : AppConfig} (setting : ConfigSetting)
    (clean : loaded.sanitize = loaded) (holds : HoldsLast history old loaded) :
    HoldsLast (history ++ [setting]) old (changed setting loaded) := by
  intro field
  rw [lastOf_concat]
  by_cases own : setting.field = field
  · rw [if_pos own]
    exact heldIn_apply loaded
  · rw [if_neg own]
    have same : SameField (changed setting loaded) loaded field := sameField_apply clean (Ne.symm own)
    have before := holds field
    cases last : lastOf field history with
    | none =>
      rw [last] at before
      exact sameField_trans same before
    | some earlier =>
      rw [last] at before
      obtain rfl := lastOf_field last
      exact heldIn_congr same before

theorem fieldsHold_landed {start disk disk' : Option Contents} {history : List ConfigSetting} {setting : ConfigSetting}
    {loaded : AppConfig}
    (holds : FieldsHold codec start disk history) (read : reload codec disk = .ok loaded)
    (saved : reload codec disk' = .ok (changed setting loaded)) : FieldsHold codec start disk' (history ++ [setting]) := by
  unfold FieldsHold at holds ⊢
  cases first : reload codec start with
  | error error =>
    rw [first] at holds
    rw [holds.1, first] at read
    cases read
  | ok old =>
    rw [first] at holds
    obtain ⟨new, same, last⟩ := holds
    cases same.symm.trans read
    exact ⟨_, saved, holdsLast_changed setting (reload_clean read) last⟩

theorem fieldsHold_serve {s : ConfigWorld Contents ι} {start : Option Contents} {history : List ConfigSetting} (i : ι)
    (op : ConfigOp)
    (holds : FieldsHold codec start s.cell history) :
    FieldsHold codec start (op.serve codec (s.parties i) s.cell).cell (history ++ (landed codec s (i, op)).toList) := by
  cases op with
  | openOrDefaults faults =>
    change FieldsHold codec start s.cell (history ++ [])
    rw [List.append_nil]
    exact holds
  | set faults setting =>
    change FieldsHold codec start ((s.parties i).modify codec faults s.cell setting.apply).cell _
    unfold landed
    dsimp only
    cases replaced : ((s.parties i).modify codec faults s.cell setting.apply).answer.replaced with
    | false =>
      rw [modify_left replaced, if_neg Bool.false_ne_true, Option.toList_none, List.append_nil]
      exact holds
    | true =>
      obtain ⟨loaded, read, saved⟩ := modify_replaced replaced
      rw [if_pos rfl]
      exact fieldsHold_landed holds read saved

theorem fieldsHold_start (disk : Option Contents) : FieldsHold codec disk disk [] := by
  unfold FieldsHold
  cases read : reload codec disk with
  | error error => exact ⟨rfl, rfl⟩
  | ok old => exact ⟨old, rfl, fun field => sameField_refl old field⟩

/-- A setter of the instance. -/
def Sets (i : ι) (_ : ConfigWorld Contents ι) (input : ι × ConfigOp) : Prop :=
  input.1 = i ∧ ∃ faults setting, input.2 = .set faults setting

/-- Another instance calls and does not replace the file. -/
def OtherLeaves (codec : JsonCodec AppConfig Contents) (i : ι) (s : ConfigWorld Contents ι) (input : ι × ConfigOp) : Prop :=
  input.1 ≠ i ∧ (input.2.serve codec (s.parties input.1) s.cell).answer.replaced = false

/-- What the setters of an instance must meet: one that does not replace the file finds the instance in step with it, and one
whose rename lands without the directory synced changes nothing that the instance says. -/
def Steady (codec : JsonCodec AppConfig Contents) (i : ι) (s : ConfigWorld Contents ι) (input : ι × ConfigOp) : Prop :=
  match input.2 with
  | .openOrDefaults _ => True
  | .set faults setting =>
    input.1 = i →
      if Begins codec faults (s.parties i) s.cell then
        match faults.write with
        | .written => True
        | .notCommitted _ => InStep codec (s.parties i) s.cell
        | .replacedButNotDurable _ => ∀ loaded, reload codec s.cell = .ok loaded → Already setting (s.parties i).config loaded
      else InStep codec (s.parties i) s.cell

theorem set_inStep {s : ConfigWorld Contents ι} {i : ι} {faults : CallFaults} {setting : ConfigSetting}
    (steady : Steady codec i s (i, .set faults setting)) :
    InStep codec ((s.parties i).modify codec faults s.cell setting.apply).party
      ((s.parties i).modify codec faults s.cell setting.apply).cell := by
  have must := steady rfl
  by_cases begins : Begins codec faults (s.parties i) s.cell
  · rw [if_pos begins] at must
    obtain ⟨loaded, read⟩ := begins_loaded begins
    obtain ⟨-, cell, config⟩ := modify_begun setting read begins
    unfold InStep
    rw [cell, config]
    cases write : faults.write with
    | written => exact reload_changed read setting
    | notCommitted message =>
      rw [write] at must
      exact must
    | replacedButNotDurable message =>
      rw [write] at must
      exact (reload_changed read setting).trans (congrArg Except.ok (changed_of_already read (must loaded read)))
  · rw [if_neg begins] at must
    obtain ⟨error, same⟩ := modify_stuck setting.apply begins
    rw [same]
    exact must

theorem otherLeaves_cell {s : ConfigWorld Contents ι} {i j : ι} {op : ConfigOp} (leaves : OtherLeaves codec i s (j, op)) :
    j ≠ i ∧ (op.serve codec (s.parties j) s.cell).cell = s.cell := by
  refine ⟨leaves.1, ?_⟩
  cases op with
  | openOrDefaults faults => rfl
  | set faults setting => exact modify_left leaves.2

/-- The instance takes over what the file says: it is opened on a file that it can load, or its setter replaces the file. -/
def Attunes (codec : JsonCodec AppConfig Contents) (i : ι) (s : ConfigWorld Contents ι) (input : ι × ConfigOp) : Prop :=
  input.1 = i ∧
    match input.2 with
    | .openOrDefaults faults => faults.read = none ∧ (reload codec s.cell).isOk = true
    | .set faults _ => Begins codec faults (s.parties i) s.cell ∧ faults.write.replaced = true ∧ Steady codec i s input

/-- Nobody replaces the file, and the instance is not opened again. -/
def Leaves (codec : JsonCodec AppConfig Contents) (i : ι) (s : ConfigWorld Contents ι) (input : ι × ConfigOp) : Prop :=
  (input.2.serve codec (s.parties input.1) s.cell).answer.replaced = false ∧
    (input.1 = i → ∃ faults setting, input.2 = .set faults setting)

theorem attunes_inStep {s : ConfigWorld Contents ι} {i j : ι} {op : ConfigOp} (attunes : Attunes codec i s (j, op)) :
    InStep codec (op.serve codec (s.parties j) s.cell).party (op.serve codec (s.parties j) s.cell).cell := by
  obtain ⟨rfl, taken⟩ := attunes
  cases op with
  | openOrDefaults faults =>
    obtain ⟨readable, loads⟩ := taken
    unfold InStep
    cases read : reload codec s.cell with
    | error error =>
      rw [read] at loads
      cases loads
    | ok loaded =>
      have read' : loadFromDisk codec (s.parties j).path faults.read s.cell = .ok loaded := by
        rw [readable]
        exact read
      change reload codec s.cell = .ok (openOrDefaults codec (s.parties j).path faults.read s.cell).config
      rw [openOrDefaults, read']
      exact read
  | set faults setting => exact set_inStep taken.2.2

theorem leaves_inStep [DecidableEq ι] {s : ConfigWorld Contents ι} {i j : ι} {op : ConfigOp}
    (leaves : Leaves codec i s (j, op)) (inStep : InStep codec (s.parties i) s.cell) :
    InStep codec (((configMachine codec).next s (j, op)).parties i) ((configMachine codec).next s (j, op)).cell := by
  obtain ⟨left, only⟩ := leaves
  have same : (op.serve codec (s.parties j) s.cell).cell = s.cell := by
    cases op with
    | openOrDefaults faults => rfl
    | set faults setting => exact modify_left left
  unfold InStep
  rw [configMachine, Shared.next_cell, same]
  by_cases mine : j = i
  · subst mine
    obtain ⟨faults, setting, rfl⟩ := only rfl
    rw [Shared.next_self]
    change _ = Except.ok ((s.parties j).modify codec faults s.cell setting.apply).party.config
    rw [modify_keeps left]
    exact inStep
  · rw [Shared.next_other _ (Ne.symm mine)]
    exact inStep

variable [DecidableEq ι]

/-- The settings over any run of any number of instances. The fields hold what was set last whatever fails; after a setter an
instance says what the file says until another one replaces it, when its setters meet the condition. An instance is in step, as
the condition asks, as long as nobody has replaced the file since it took over what the file says. -/
theorem settings_kept (codec : JsonCodec AppConfig Contents) (s : ConfigWorld Contents ι) (inputs : List (ι × ConfigOp)) :
    FieldsHold codec s.cell ((configMachine codec).run s inputs).cell ((configMachine codec).collect (landed codec) s inputs) ∧
      (∀ i, (configMachine codec).Admissible (Steady codec i) s inputs →
        (configMachine codec).Since (Sets i) (OtherLeaves codec i) s inputs →
          InStep codec (((configMachine codec).run s inputs).parties i) ((configMachine codec).run s inputs).cell) ∧
      ∀ i, (configMachine codec).Since (Attunes codec i) (Leaves codec i) s inputs →
        InStep codec (((configMachine codec).run s inputs).parties i) ((configMachine codec).run s inputs).cell := by
  refine ⟨?_, ?_, ?_⟩
  · induction inputs using List.reverseRecOn with
    | nil => exact fieldsHold_start s.cell
    | append_singleton inputs input ih =>
      rw [Machine.run_concat, Machine.collect_concat]
      exact fieldsHold_serve input.1 input.2 ih
  · intro i steady since
    refine Shared.agrees_since (InStep codec) i ?_ (fun s j op => otherLeaves_cell) steady since
    rintro s j op must ⟨rfl, faults, setting, rfl⟩
    exact ⟨rfl, set_inStep must⟩
  · intro i since
    refine (configMachine codec).since_invariant (fun s input attunes => ?_) (fun s input => leaves_inStep) since
    obtain ⟨rfl, -⟩ := id attunes
    rw [configMachine, Shared.next_cell, Shared.next_self]
    exact attunes_inStep attunes

end Runs

section Examples

def twoInstances : ConfigWorld AppConfig Bool where
  cell := none
  parties := fun _ => .openOrDefaults (.plain AppConfig) "config.json" none none

/-- Two setters, and one that fails before the rename. -/
def threeSetters : List (Bool × ConfigOp) :=
  [(false, .set {} (.appearance .dark)), (true, .set {} (.externalEditor (some " vim ".toList))),
    (true, .set { write := .notCommitted "disk full" } (.confirmDelete false))]

theorem settings_kept_three_setters :
    (configMachine (.plain AppConfig)).Admissible (Steady (.plain AppConfig) true) twoInstances threeSetters ∧
      (configMachine (.plain AppConfig)).Since (Sets true) (OtherLeaves (.plain AppConfig) true) twoInstances threeSetters ∧
      InStep (.plain AppConfig) (((configMachine (.plain AppConfig)).run twoInstances threeSetters).parties true)
        ((configMachine (.plain AppConfig)).run twoInstances threeSetters).cell := by
  have steady : (configMachine (.plain AppConfig)).Admissible (Steady (.plain AppConfig) true) twoInstances threeSetters := by
    refine ⟨fun other => absurd other Bool.false_ne_true, fun _ => ?_, fun _ => ?_, trivial⟩
    · exact trivial
    · rfl
  have since : (configMachine (.plain AppConfig)).Since (Sets true) (OtherLeaves (.plain AppConfig) true)
      twoInstances threeSetters :=
    .inr (.inr (.inl ⟨⟨rfl, _, _, rfl⟩, trivial⟩))
  exact ⟨steady, since, (settings_kept (.plain AppConfig) twoInstances threeSetters).2.1 true steady since⟩

/-- The rename lands and the directory cannot be synced. -/
def unsynced : List (Bool × ConfigOp) := [(false, .set { write := .replacedButNotDurable "fsync" } (.appearance .dark))]

theorem settings_misreported :
    ¬∀ inputs : List (Bool × ConfigOp),
      (configMachine (.plain AppConfig)).Since (Sets false) (OtherLeaves (.plain AppConfig) false) twoInstances inputs →
        InStep (.plain AppConfig) (((configMachine (.plain AppConfig)).run twoInstances inputs).parties false)
          ((configMachine (.plain AppConfig)).run twoInstances inputs).cell := by
  intro every
  have told := every unsynced (.inl ⟨⟨rfl, _, _, rfl⟩, trivial⟩)
  exact absurd (Except.ok.inj told) (by decide +kernel)

end Examples

end MacSftp.Settings
