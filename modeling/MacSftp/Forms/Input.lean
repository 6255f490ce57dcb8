import MacSftp.Storage.ProfileFile
import Mathlib.Data.List.TakeWhile

namespace MacSftp.Forms

/-- A character of a field. The mark says that it was restored from the Keychain; the code does not have it, and
nothing it does depends on it. -/
structure FieldChar where
  char : Char
  restored : Bool
  deriving DecidableEq, Repr

structure Keystroke where
  key : String
  keyChar : Option (List Char) := none
  control : Bool := false
  alt : Bool := false
  shift : Bool := false
  platform : Bool := false
  function : Bool := false
  deriving DecidableEq, Repr

def Keystroke.modified (keystroke : Keystroke) : Bool :=
  keystroke.control || keystroke.alt || keystroke.shift || keystroke.platform || keystroke.function

/-- A single-line field. The cursor counts characters. -/
structure InputState where
  value : List FieldChar := []
  cursor : Nat := 0
  deriving DecidableEq, Repr

def typed (text : List Char) : List FieldChar := text.map (⟨·, false⟩)

namespace InputState

def text (input : InputState) : List Char := input.value.map FieldChar.char

def withChars (value : List FieldChar) : InputState where
  value := value
  cursor := value.length

def withValue (value : List Char) : InputState := withChars (typed value)

def clear (_ : InputState) : InputState := {}

def replaceRange (input : InputState) (first last : Nat) (replacement : List FieldChar) : List FieldChar :=
  input.value.take first ++ replacement ++ input.value.drop last

/-- Control and bidi formatting characters are left out. -/
def insert (input : InputState) (text : List Char) : InputState :=
  let sanitized := typed (text.filter (fun ch => !isBidiOrControl ch))
  { value := input.replaceRange input.cursor input.cursor sanitized
    cursor := input.cursor + sanitized.length }

def previousBoundary (input : InputState) : Option Nat := if input.cursor = 0 then none else some (input.cursor - 1)

def nextBoundary (input : InputState) : Option Nat :=
  if input.cursor < input.value.length then some (input.cursor + 1) else none

/-- The field after one keystroke, or nothing when it is not an editing key. -/
def handleKeystroke (input : InputState) (keystroke : Keystroke) : Option InputState :=
  if keystroke.platform || keystroke.control || keystroke.alt || keystroke.function then none
  else if keystroke.key = "backspace" then
    match input.previousBoundary with
    | some previous => some { value := input.replaceRange previous input.cursor [], cursor := previous }
    | none => some input
  else if keystroke.key = "delete" then
    match input.nextBoundary with
    | some next => some { input with value := input.replaceRange input.cursor next [] }
    | none => some input
  else if keystroke.key = "left" then some { input with cursor := input.previousBoundary.getD input.cursor }
  else if keystroke.key = "right" then some { input with cursor := input.nextBoundary.getD input.cursor }
  else if keystroke.key = "home" then some { input with cursor := 0 }
  else if keystroke.key = "end" then some { input with cursor := input.value.length }
  else
    match keystroke.keyChar with
    | some keyChar => if keyChar.any isBidiOrControl then none else some (input.insert keyChar)
    | none => none

/-- Some of the field has been restored from the Keychain. -/
def Holds (input : InputState) : Prop := ∃ c ∈ input.value, c.restored = true

instance (input : InputState) : Decidable input.Holds := inferInstanceAs (Decidable (∃ c ∈ input.value, c.restored = true))

theorem typed_not_restored {text : List Char} {c : FieldChar} (mem : c ∈ typed text) : c.restored = false := by
  obtain ⟨ch, -, rfl⟩ := List.mem_map.mp mem
  rfl

theorem holds_replaceRange {input : InputState} {first last : Nat} (replacement : List Char) {cursor : Nat}
    (holds : InputState.Holds ⟨input.replaceRange first last (typed replacement), cursor⟩) : input.Holds := by
  obtain ⟨c, mem, restored⟩ := holds
  rcases List.mem_append.mp mem with front | back
  · rcases List.mem_append.mp front with before | new
    · exact ⟨c, List.mem_of_mem_take before, restored⟩
    · rw [typed_not_restored new] at restored
      cases restored
  · exact ⟨c, List.mem_of_mem_drop back, restored⟩

theorem holds_insert {input : InputState} {text : List Char} (holds : (input.insert text).Holds) : input.Holds :=
  holds_replaceRange _ holds

/-- No keystroke brings in anything from the Keychain. -/
theorem holds_handleKeystroke {input after : InputState} {keystroke : Keystroke}
    (handled : input.handleKeystroke keystroke = some after)
    (holds : after.Holds) : input.Holds := by
  have moved (cursor : Nat) (holds : InputState.Holds { input with cursor := cursor }) : input.Holds := holds
  have cut {first last cursor : Nat} (holds : InputState.Holds ⟨input.replaceRange first last [], cursor⟩) : input.Holds :=
    holds_replaceRange [] holds
  unfold handleKeystroke at handled
  repeat' split at handled
  all_goals cases handled
  all_goals first | exact holds | exact moved _ holds | exact cut holds | exact holds_insert holds

end InputState

end MacSftp.Forms
