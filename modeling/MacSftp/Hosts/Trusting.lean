import MacSftp.Hosts.Verdicts

namespace MacSftp

open Lib

/-- What the file holds once a line has been appended to it. -/
def FileState.appended (state : FileState) (line : List Char) : List UInt8 :=
  match state with
  | .content bytes => (if bytes ≠ [] ∧ bytes.getLast? ≠ some 10 then bytes ++ [10] else bytes) ++ Utf8.encode line ++ [10]
  | .missing | .unreadable _ => Utf8.encode line ++ [10]

def FileState.readable : FileState → Bool
  | .unreadable _ => false
  | .missing | .content _ => true

def FileState.bytes : FileState → List UInt8
  | .content bytes => bytes
  | .missing | .unreadable _ => []

def WriteFaults.first (faults : WriteFaults) : Bool :=
  faults.lock.isSome || faults.parent.isSome || faults.staging.isSome || faults.rename.isSome

theorem FileState.bytes_prefix (state : FileState) (line : List Char) : state.bytes <+: state.appended line := by
  cases state with
  | missing => exact List.nil_prefix
  | unreadable error => exact List.nil_prefix
  | content bytes =>
    simp only [FileState.bytes, FileState.appended, List.append_assoc]
    split_ifs
    · exact ⟨_, (List.append_assoc _ _ _).symm⟩
    · exact ⟨_, rfl⟩

/-- An append either leaves the disk as it was and fails, or puts the longer contents in place; in the
second case it succeeds if the directory could be synced. -/
inductive Appends (faults : WriteFaults) (disk : Disk) (path : LocalPath) (line : List Char) :
    Except IoError Unit × Disk → Prop
  | refused (error : IoError)
      (cause : ('\n' ∈ line ∨ '\r' ∈ line) ∨ faults.first = true ∨ (disk path).readable = false) :
      Appends faults disk path line (.error error, disk)
  | written (hline : ¬ ('\n' ∈ line ∨ '\r' ∈ line)) (hfirst : faults.first = false) (hread : (disk path).readable = true)
      (hsync : faults.syncParent = none) :
      Appends faults disk path line (.ok (), Function.update disk path (.content ((disk path).appended line)))
  | unsynced (error : IoError) (hline : ¬ ('\n' ∈ line ∨ '\r' ∈ line)) (hfirst : faults.first = false)
      (hread : (disk path).readable = true) (hsync : faults.syncParent ≠ none) :
      Appends faults disk path line (.error error, Function.update disk path (.content ((disk path).appended line)))

theorem writePrivateFileAtomically_appends (faults : WriteFaults) (disk : Disk) (path : LocalPath) {line : List Char}
    (hline : ¬ ('\n' ∈ line ∨ '\r' ∈ line)) (hlock : faults.lock = none) (hread : (disk path).readable = true) :
    Appends faults disk path line (writePrivateFileAtomically faults disk path ((disk path).appended line)) := by
  unfold writePrivateFileAtomically writePrivateFilePhased
  cases hp : faults.parent with
  | some error => exact .refused error (.inr (.inl (by simp [WriteFaults.first, hp])))
  | none =>
    cases hs : faults.staging with
    | some error => exact .refused error (.inr (.inl (by simp [WriteFaults.first, hs])))
    | none =>
      cases hr : faults.rename with
      | some error => exact .refused error (.inr (.inl (by simp [WriteFaults.first, hr])))
      | none =>
        have hfirst : faults.first = false := by simp [WriteFaults.first, hlock, hp, hs, hr]
        cases hsync : faults.syncParent with
        | none => exact .written hline hfirst hread hsync
        | some error => exact .unsynced _ hline hfirst hread (by simp [hsync])

theorem append_appends (faults : WriteFaults) (disk : Disk) (path : LocalPath) (line : List Char) :
    Appends faults disk path line (appendPrivateLineAtomically faults disk path line) := by
  unfold appendPrivateLineAtomically
  split_ifs with hline
  · exact .refused _ (.inl hline)
  · cases hlock : faults.lock with
    | some error => exact .refused error (.inr (.inl (by simp [WriteFaults.first, hlock])))
    | none =>
      cases hstate : disk path with
      | unreadable error => exact .refused error (.inr (.inr (by simp [hstate, FileState.readable])))
      | missing =>
        have h := writePrivateFileAtomically_appends faults disk path hline hlock (by simp [hstate, FileState.readable])
        simpa [hstate, FileState.appended] using h
      | content bytes =>
        have h := writePrivateFileAtomically_appends faults disk path hline hlock (by simp [hstate, FileState.readable])
        simpa only [hstate, FileState.appended] using h

section Reload

variable {κ : Type} {format : HostFormat κ} (lawful : format.Lawful)

include lawful

theorem next_empty : format.next [] = none := lawful.blank [] rfl

theorem loadFile_content (bytes : List UInt8) :
    loadFile format (.content bytes) = ((Utf8.fromUtf8Lossy bytes).splitOn '\n').filterMap fun line => (format.next line).join := by
  apply Utf8.filterMap_lines
  · intro line
    rw [lawful.carriageReturn]
  · rw [next_empty lawful]
    rfl

/-- A file with a line appended to it holds the entries it held before, and the line's. -/
theorem loadFile_appended (state : FileState) {line : List Char} (hline : '\n' ∉ line) :
    loadFile format (.content (state.appended line)) = loadFile format state ++ (format.next line).join.toList := by
  let read := fun line => (format.next line).join
  have hempty : read [] = none := by
    simp only [read]
    rw [next_empty lawful]
    rfl
  have htext : Utf8.fromUtf8Lossy (Utf8.encode line ++ [10]) = line ++ ['\n'] := by
    rw [Utf8.fromUtf8Lossy_newline, Utf8.fromUtf8Lossy_encode]
    rfl
  have honly : loadFile format (.content (Utf8.encode line ++ [10])) = (read line).toList := by
    rw [loadFile_content lawful, htext]
    exact Utf8.filterMap_line hempty hline
  -- what stands before a line feed is read on its own
  have hafter : ∀ before : List UInt8, loadFile format (.content (before ++ 10 :: (Utf8.encode line ++ [10]))) =
      loadFile format (.content before) ++ (read line).toList := by
    intro before
    rw [loadFile_content lawful, loadFile_content lawful, Utf8.fromUtf8Lossy_newline, htext, Utf8.filterMap_append]
    exact congrArg (_ ++ ·) (Utf8.filterMap_line hempty hline)
  cases state with
  | missing => exact honly
  | unreadable error => exact honly
  | content bytes =>
    by_cases hnil : bytes = []
    · subst hnil
      have hnone : loadFile format (.content []) = [] := by
        rw [loadFile_content lawful]
        simp [Utf8.fromUtf8Lossy, Utf8.decodeFrom, next_empty lawful]
      rw [hnone]
      exact honly
    · by_cases hlast : bytes.getLast? = some 10
      · obtain ⟨before, rfl⟩ := List.getLast?_eq_some_iff.mp hlast
        have hbefore : loadFile format (.content (before ++ [10])) = loadFile format (.content before) := by
          rw [loadFile_content lawful, loadFile_content lawful, Utf8.fromUtf8Lossy_newline, Utf8.filterMap_append]
          simp [Utf8.fromUtf8Lossy, Utf8.decodeFrom, next_empty lawful]
        have happended : (FileState.content (before ++ [10])).appended line = before ++ 10 :: (Utf8.encode line ++ [10]) := by
          simp [FileState.appended]
        rw [happended, hbefore, hafter]
      · have happended : (FileState.content bytes).appended line = bytes ++ 10 :: (Utf8.encode line ++ [10]) := by
          simp [FileState.appended, hnil, hlast]
        rw [happended, hafter]

/-- Reading the line back is parsing it, unless it begins like a comment. -/
theorem next_line {line : List Char} {c : Char} (hline : line.head? = some c) (hc : isWhitespace c = false) :
    (format.next line).join = if c = '#' then none else format.entry line := by
  split_ifs with hcomment
  · rw [lawful.comment line (hcomment ▸ hline)]
    rfl
  · have hblank : line.all isWhitespace = false := by
      cases line with
      | nil => cases hline
      | cons d rest =>
        obtain rfl : d = c := by simpa using hline
        simp [hc]
    rw [lawful.next line (by simpa [hline] using hcomment) hblank]
    rfl

end Reload

section Pattern

theorem whitespace_space : isWhitespace ' ' = true := by decide

theorem host_chars {host : List Char} (h : refusedHost host = false) :
    host ≠ [] ∧ ∀ ch ∈ host, isWhitespace ch = false := by
  simp only [refusedHost, Bool.or_eq_false_iff, List.isEmpty_eq_false_iff, List.any_eq_false, Bool.or_eq_true, not_or,
    Bool.not_eq_true] at h
  exact ⟨h.1, fun ch hch => (h.2 ch hch).1⟩

theorem space_not_mem {host : List Char} (h : refusedHost host = false) (port : UInt16) : ' ' ∉ hostPattern host port := by
  have hhost : ' ' ∉ host := fun hmem => by
    have := (host_chars h).2 ' ' hmem
    simp [whitespace_space] at this
  have hdigits : ' ' ∉ Nat.toDigits 10 port.toNat := fun hmem => by
    have := Nat.isDigit_of_mem_toDigits (by decide) (by decide) hmem
    exact absurd this (by decide)
  unfold hostPattern
  split_ifs
  · exact hhost
  · simp [hhost, hdigits]

/-- The first character of a pattern is not white space. -/
theorem pattern_head {host : List Char} (h : refusedHost host = false) (port : UInt16) :
    ∃ c, (hostPattern host port).head? = some c ∧ isWhitespace c = false := by
  obtain ⟨hne, hchars⟩ := host_chars h
  unfold hostPattern
  split_ifs
  · obtain ⟨c, rest, rfl⟩ := List.exists_cons_of_ne_nil hne
    exact ⟨c, rfl, hchars c (by simp)⟩
  · exact ⟨'[', rfl, by decide⟩

theorem comma_pattern {host : List Char} {port : UInt16} : ',' ∈ hostPattern host port ↔ ',' ∈ host := by
  have hdigits : ',' ∉ Nat.toDigits 10 port.toNat := fun hmem => by
    have := Nat.isDigit_of_mem_toDigits (by decide) (by decide) hmem
    exact absurd this (by decide)
  unfold hostPattern
  split_ifs
  · rfl
  · simp [hdigits]

/-- Every name is the pattern of some host: of itself, at the default port. -/
theorem hostPattern_default (name : List Char) : hostPattern name 22 = name := if_pos rfl

end Pattern

end MacSftp
