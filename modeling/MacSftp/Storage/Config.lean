import MacSftp.Forms.ConnectForm
import MacSftp.Storage.FileWrites

namespace MacSftp

open Lib

inductive AppearancePreference
  | system
  | light
  | dark
  deriving DecidableEq, Repr

structure EditorRule where
  pattern : List Char
  appName : List Char
  deriving DecidableEq, Repr

structure AppConfig where
  version : Nat := 1
  appearance : AppearancePreference := .system
  confirmDelete : Bool := true
  showHiddenFiles : Bool := false
  externalEditor : Option (List Char) := none
  editorRules : List EditorRule := []
  metadataPolicy : MetadataPolicy := ⟨true, true, true⟩
  deriving DecidableEq, Repr

namespace AppConfig

def currentVersion : Nat := 1

def invalidApp (app : List Char) : Bool := app.isEmpty || app.head? = some '-' || app.any isBidiOrControl

def sanitizeEditor (editor : Option (List Char)) : Option (List Char) :=
  (editor.map Forms.trim).filter fun text => !invalidApp text

def validRule (rule : EditorRule) : Bool :=
  !(Forms.trim rule.pattern).isEmpty && !(Forms.trim rule.pattern).any isBidiOrControl && !invalidApp (Forms.trim rule.appName)

def sanitize (config : AppConfig) : AppConfig :=
  { config with
    externalEditor := sanitizeEditor config.externalEditor
    editorRules := config.editorRules.filter validRule }

end AppConfig

inductive ConfigError
  | recoveryRequired (path : String)
  | io (path : String) (message : String)
  | parse (message : String)
  | unsupportedVersion (found supported : Nat)
  deriving DecidableEq, Repr

/-- The `set_*` methods, one for each field that a user changes. -/
inductive ConfigSetting
  | appearance (value : AppearancePreference)
  | confirmDelete (value : Bool)
  | showHiddenFiles (value : Bool)
  | externalEditor (value : Option (List Char))
  | editorRules (value : List EditorRule)
  | metadataPreserveMtime (value : Bool)
  | metadataPreservePermissions (value : Bool)
  deriving DecidableEq, Repr

def ConfigSetting.apply : ConfigSetting → AppConfig → AppConfig
  | appearance value, config => { config with appearance := value }
  | confirmDelete value, config => { config with confirmDelete := value }
  | showHiddenFiles value, config => { config with showHiddenFiles := value }
  | externalEditor value, config => { config with externalEditor := value }
  | editorRules value, config => { config with editorRules := value }
  | metadataPreserveMtime value, config => { config with metadataPolicy.preserveMtime := value }
  | metadataPreservePermissions value, config => { config with metadataPolicy.preservePermissions := value }

structure ConfigStore where
  path : String
  config : AppConfig
  initialError : Option ConfigError
  deriving DecidableEq, Repr

abbrev ConfigCall (Contents : Type) := Called (Option Contents) ConfigStore (CallEnd ConfigError Unit)

namespace ConfigStore

variable {Contents : Type} (codec : JsonCodec AppConfig Contents)

def readConfig (disk : Option Contents) : Except ConfigError AppConfig :=
  match disk with
  | none => .ok {}
  | some contents => (codec.fromStr contents).mapError ConfigError.parse

/-- `load_from_disk`, where `read` is a failure other than a missing file. -/
def loadFromDisk (path : String) (read : Option String) (disk : Option Contents) : Except ConfigError AppConfig :=
  match read with
  | some message => .error (.io path message)
  | none =>
    match readConfig codec disk with
    | .error error => .error error
    | .ok config =>
      if AppConfig.currentVersion < config.version then .error (.unsupportedVersion config.version AppConfig.currentVersion)
      else .ok config.sanitize

/-- How the application opens its store. -/
def openOrDefaults (path : String) (read : Option String) (disk : Option Contents) : ConfigStore :=
  match loadFromDisk codec path read disk with
  | .ok config => ⟨path, config, none⟩
  | .error error => ⟨path, {}, some error⟩

def failed (store : ConfigStore) (disk : Option Contents) (error : ConfigError) : ConfigCall Contents :=
  ⟨⟨.error error, false⟩, store, disk⟩

def modifyUnderLock (faults : CallFaults) (store : ConfigStore) (disk : Option Contents) (apply : AppConfig → AppConfig) :
    ConfigCall Contents :=
  match store.initialError with
  | some _ => failed store disk (.recoveryRequired store.path)
  | none =>
    match faults.lock with
    | some message => failed store disk (.io store.path message)
    | none =>
      match loadFromDisk codec store.path faults.read disk with
      | .error error => failed store disk error
      | .ok loaded =>
        let config := (apply loaded).sanitize
        let written := FileWrite.writePrivateFileAtomically store.path faults.write disk (codec.toStringPretty config)
        ⟨⟨written.1.mapError (ConfigError.io store.path), faults.write.replaced⟩, { store with config := config }, written.2⟩

/-- Any error takes the snapshot back. -/
def modify (faults : CallFaults) (store : ConfigStore) (disk : Option Contents) (apply : AppConfig → AppConfig) :
    ConfigCall Contents :=
  let called := store.modifyUnderLock codec faults disk apply
  match called.answer.result with
  | .ok _ => { called with party := { called.party with initialError := none } }
  | .error _ => { called with party := { called.party with config := store.config } }

end ConfigStore

inductive ConfigOp
  | openOrDefaults (faults : CallFaults)
  | set (faults : CallFaults) (setting : ConfigSetting)
  deriving DecidableEq, Repr

def ConfigOp.serve {Contents : Type} (codec : JsonCodec AppConfig Contents) (op : ConfigOp) (store : ConfigStore)
    (disk : Option Contents) : ConfigCall Contents :=
  match op with
  | .openOrDefaults faults => ⟨⟨.ok (), false⟩, .openOrDefaults codec store.path faults.read disk, disk⟩
  | .set faults setting => store.modify codec faults disk setting.apply

/-- Any number of instances on one `config.json`. -/
abbrev ConfigWorld (Contents ι : Type) := Shared (Option Contents) ConfigStore ι

def configMachine {Contents ι : Type} [DecidableEq ι] (codec : JsonCodec AppConfig Contents) :
    Machine (ConfigWorld Contents ι) (ι × ConfigOp) (CallEnd ConfigError Unit) :=
  Shared.machine (ConfigOp.serve codec)

end MacSftp
