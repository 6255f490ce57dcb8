import MacSftp.Storage.Config
import Mathlib.Data.List.DropRight

namespace MacSftp

open Lib

namespace AppConfig

theorem trim_eq (text : List Char) : Forms.trim text = (text.dropWhile isWhitespace).rdropWhile isWhitespace := rfl

/-- What has been trimmed begins as what was trimmed at its front. -/
theorem dropWhile_trimmed (text : List Char) : (Forms.trim text).dropWhile isWhitespace = Forms.trim text := by
  rw [trim_eq]
  cases front : text.dropWhile isWhitespace with
  | nil => rfl
  | cons c rest =>
    have plain : ¬isWhitespace c = true := by
      have some_ : text.dropWhile isWhitespace ≠ [] := by
        rw [front]
        exact List.cons_ne_nil _ _
      have first := List.head_dropWhile_not isWhitespace some_
      simp only [front, List.head_cons] at first
      exact ne_true_of_eq_false first
    obtain ⟨tail, split⟩ := List.rdropWhile_prefix isWhitespace (c :: rest)
    cases trimmed : (c :: rest).rdropWhile isWhitespace with
    | nil => rfl
    | cons d more =>
      rw [trimmed, List.cons_append] at split
      rw [(List.cons.inj split).1]
      exact List.dropWhile_cons_of_neg plain

theorem trim_trim (text : List Char) : Forms.trim (Forms.trim text) = Forms.trim text := by
  rw [trim_eq (Forms.trim text), dropWhile_trimmed]
  exact List.rdropWhile_idempotent _ _

theorem sanitizeEditor_twice (editor : Option (List Char)) : sanitizeEditor (sanitizeEditor editor) = sanitizeEditor editor := by
  cases editor with
  | none => rfl
  | some text =>
    by_cases invalid : invalidApp (Forms.trim text) = true <;> simp [sanitizeEditor, Option.filter, invalid, trim_trim]

theorem sanitize_sanitize (config : AppConfig) : config.sanitize.sanitize = config.sanitize := by
  unfold sanitize
  simp only [sanitizeEditor_twice, List.filter_filter, Bool.and_self]

end AppConfig

inductive ConfigField
  | version
  | appearance
  | confirmDelete
  | showHiddenFiles
  | externalEditor
  | editorRules
  | preserveMtime
  | preservePermissions
  | preserveSymlinks
  deriving DecidableEq, Repr

def ConfigSetting.field : ConfigSetting → ConfigField
  | appearance _ => .appearance
  | confirmDelete _ => .confirmDelete
  | showHiddenFiles _ => .showHiddenFiles
  | externalEditor _ => .externalEditor
  | editorRules _ => .editorRules
  | metadataPreserveMtime _ => .preserveMtime
  | metadataPreservePermissions _ => .preservePermissions

def SameField (a b : AppConfig) : ConfigField → Prop
  | .version => a.version = b.version
  | .appearance => a.appearance = b.appearance
  | .confirmDelete => a.confirmDelete = b.confirmDelete
  | .showHiddenFiles => a.showHiddenFiles = b.showHiddenFiles
  | .externalEditor => a.externalEditor = b.externalEditor
  | .editorRules => a.editorRules = b.editorRules
  | .preserveMtime => a.metadataPolicy.preserveMtime = b.metadataPolicy.preserveMtime
  | .preservePermissions => a.metadataPolicy.preservePermissions = b.metadataPolicy.preservePermissions
  | .preserveSymlinks => a.metadataPolicy.preserveSymlinks = b.metadataPolicy.preserveSymlinks

/-- The field holds the value of the setting, in the form in which the store keeps it. -/
def ConfigSetting.HeldIn (setting : ConfigSetting) (config : AppConfig) : Prop :=
  SameField config (setting.apply config).sanitize setting.field

section Fields

variable {a b c config loaded : AppConfig} {setting : ConfigSetting} {field : ConfigField}

theorem sameField_refl (a : AppConfig) (field : ConfigField) : SameField a a field := by
  cases field <;> rfl

theorem sameField_symm (same : SameField a b field) : SameField b a field := by
  cases field <;> exact Eq.symm same

theorem sameField_trans (first : SameField a b field) (second : SameField b c field) : SameField a c field := by
  cases field <;> exact Eq.trans first second

theorem eq_of_sameField (same : ∀ field, SameField a b field) : a = b := by
  have policy : a.metadataPolicy = b.metadataPolicy := by
    have symlinks := same .preserveSymlinks
    have mtime := same .preserveMtime
    have permissions := same .preservePermissions
    cases ha : a.metadataPolicy
    cases hb : b.metadataPolicy
    simp only [SameField, ha, hb] at symlinks mtime permissions
    rw [symlinks, mtime, permissions]
  have version : a.version = b.version := same .version
  have appearance : a.appearance = b.appearance := same .appearance
  have confirmDelete : a.confirmDelete = b.confirmDelete := same .confirmDelete
  have showHiddenFiles : a.showHiddenFiles = b.showHiddenFiles := same .showHiddenFiles
  have externalEditor : a.externalEditor = b.externalEditor := same .externalEditor
  have editorRules : a.editorRules = b.editorRules := same .editorRules
  cases a
  cases b
  simp_all only

/-- What a setter leaves in its field does not depend on the rest. -/
theorem heldIn_iff (other : AppConfig) :
    setting.HeldIn config ↔ SameField config (setting.apply other).sanitize setting.field := by
  cases setting <;> exact Iff.rfl

theorem heldIn_apply (loaded : AppConfig) : setting.HeldIn (setting.apply loaded).sanitize :=
  (heldIn_iff loaded).mpr (sameField_refl ..)

/-- A setter leaves the other fields of what was loaded. -/
theorem sameField_apply (clean : loaded.sanitize = loaded) (other : field ≠ setting.field) :
    SameField (setting.apply loaded).sanitize loaded field := by
  have kept : SameField (setting.apply loaded).sanitize loaded.sanitize field := by
    cases setting <;> cases field <;> first | exact absurd rfl other | rfl
  rw [clean] at kept
  exact kept

end Fields

end MacSftp
