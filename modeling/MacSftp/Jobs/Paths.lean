import MacSftp.Core.Paths
import Mathlib.Data.List.Infix
import Mathlib.Tactic.Common

namespace MacSftp

def partName (name : List Char) (transferId : TransferId) : List Char :=
  '.' :: name ++ ".macsftp-part-".toList ++ Nat.toDigits 10 transferId.raw

def remoteTemporaryPath (destination : RemotePath) (transferId : TransferId) : RemotePath :=
  let (parent, name) := (rsplitOnce destination.chars).getD ([], destination.chars)
  let temporaryName := partName name transferId
  ⟨if parent = [] then temporaryName
    else if parent = ['/'] then '/' :: temporaryName
    else parent ++ '/' :: temporaryName⟩

def commitDirectory (destination : RemotePath) : List Char :=
  ((rsplitOnce destination.chars).map Prod.fst).getD []

def commitProbe (temporary : List Char) : List Char := temporary ++ ".commit-probe".toList

/-- `Components::as_path` after steps from the back: trailing separators and `.` components are not part of it. The
segments come last one first, and a leading `.` counts where there is no root. -/
def trimBack (root : Bool) : List (List Char) → List (List Char)
  | [] => []
  | [s] => if s = [] ∨ (s = ['.'] ∧ root) then [] else [s]
  | s :: t :: rest => if s = [] ∨ s = ['.'] then trimBack root (t :: rest) else s :: t :: rest

/-- `std::path::Path::parent`. -/
def parentPath (path : List Char) : Option (List Char) :=
  let root : Bool := path.head? = some '/'
  let body := if root then path.tail else path
  match trimBack root (body.splitOn '/').reverse with
  | [] => none
  | _ :: rest =>
    let front := ['/'].intercalate (trimBack root rest).reverse
    some (if root then '/' :: front else front)

/-- `std::path::Path::join` with a relative path. -/
def joinPath (parent name : List Char) : List Char :=
  if parent = [] then name
  else if parent.getLast? = some '/' then parent ++ name
  else parent ++ '/' :: name

def localTemporaryPath (destination : LocalPath) (transferId : TransferId) : LocalPath :=
  let name := (fileName destination.chars).getD "download".toList
  let parent := (parentPath destination.chars).getD []
  ⟨joinPath parent (partName name transferId)⟩

def localCommitDirectory (destination : LocalPath) : List Char := (parentPath destination.chars).getD []

theorem partName_length (name : List Char) (transferId : TransferId) : name.length + 15 ≤ (partName name transferId).length := by
  simp [partName]

theorem commitProbe_length (temporary : List Char) : (commitProbe temporary).length = temporary.length + 13 := by
  simp [commitProbe]

theorem commitProbe_ne (temporary : List Char) : commitProbe temporary ≠ temporary := by
  intro same
  have length := commitProbe_length temporary
  rw [same] at length
  omega

theorem remoteTemporaryPath_length (destination : RemotePath) (transferId : TransferId) :
    destination.chars.length < (remoteTemporaryPath destination transferId).chars.length := by
  have length := (rsplitOnce_length destination.chars).2
  unfold remoteTemporaryPath
  generalize (rsplitOnce destination.chars).getD ([], destination.chars) = cut at length ⊢
  obtain ⟨parent, name⟩ := cut
  have long := partName_length name transferId
  dsimp only at length ⊢
  split
  · rename_i empty
    rw [empty, List.length_nil] at length
    omega
  · split
    · rename_i single
      rw [single, List.length_singleton] at length
      rw [List.length_cons]
      omega
    · simp only [List.length_append, List.length_cons]
      omega

theorem remoteTemporaryPath_ne (destination : RemotePath) (transferId : TransferId) :
    (remoteTemporaryPath destination transferId).chars ≠ destination.chars := by
  intro same
  have longer := remoteTemporaryPath_length destination transferId
  rw [same] at longer
  omega

theorem remoteProbe_ne (destination : RemotePath) (transferId : TransferId) :
    commitProbe (remoteTemporaryPath destination transferId).chars ≠ destination.chars := by
  intro same
  have longer := remoteTemporaryPath_length destination transferId
  have length := commitProbe_length (remoteTemporaryPath destination transferId).chars
  rw [same] at length
  omega

/-- What the cleanup of a local temporary file looks for in its path. -/
def partMark : List Char := ".macsftp-part-".toList

theorem partName_marked (name : List Char) (transferId : TransferId) : partMark <:+: partName name transferId :=
  ⟨'.' :: name, Nat.toDigits 10 transferId.raw, rfl⟩

theorem joinPath_suffix (parent name : List Char) : name <:+ joinPath parent name := by
  unfold joinPath
  split
  · exact List.suffix_rfl
  · split
    · exact List.suffix_append _ _
    · exact ⟨parent ++ ['/'], by simp⟩

theorem localTemporaryPath_marked (destination : LocalPath) (transferId : TransferId) :
    partMark <:+: (localTemporaryPath destination transferId).chars :=
  (partName_marked _ transferId).trans (joinPath_suffix _ _).isInfix

theorem commitProbe_marked {temporary : List Char} (marked : partMark <:+: temporary) : partMark <:+: commitProbe temporary :=
  marked.trans (List.prefix_append _ _).isInfix

theorem fileName_joinPath {parent name : List Char} (plain : '/' ∉ name) (some_ : name ≠ []) (dot : name ≠ ['.'])
    (dots : name ≠ ['.', '.']) : fileName (joinPath parent name) = some name := by
  have single : name.splitOn '/' = [name] := List.splitOn_eq_singleton plain
  have last : ∃ front, (joinPath parent name).splitOn '/' = front ++ [name] := by
    unfold joinPath
    split
    · exact ⟨[], single⟩
    · split
      · rename_i ends
        obtain ⟨front, rfl⟩ := List.getLast?_eq_some_iff.mp ends
        refine ⟨front.splitOn '/', ?_⟩
        rw [List.append_assoc, List.singleton_append, List.splitOn_append_cons_self, single]
      · refine ⟨parent.splitOn '/', ?_⟩
        rw [List.splitOn_append_cons_self, single]
  obtain ⟨front, cut⟩ := last
  unfold fileName
  rw [cut, List.filter_append]
  simp [some_, dot, dots]

theorem slash_not_mem_splitOn {path segment : List Char} (mem : segment ∈ path.splitOn '/') : '/' ∉ segment := by
  induction path generalizing segment with
  | nil =>
    rw [List.splitOn_nil, List.mem_singleton] at mem
    rw [mem]
    exact List.not_mem_nil
  | cons c path ih =>
    rw [List.splitOn_cons_eq_if_modifyHead] at mem
    split at mem
    · rcases List.mem_cons.mp mem with rfl | mem
      · exact List.not_mem_nil
      · exact ih mem
    · rename_i other
      obtain ⟨head, tail, split⟩ := List.exists_cons_of_ne_nil (List.splitOn_ne_nil '/' path)
      rw [split, List.modifyHead_cons] at mem
      rcases List.mem_cons.mp mem with rfl | mem
      · have first : '/' ∉ head := ih (split ▸ List.mem_cons_self)
        simp only [List.mem_cons, not_or]
        exact ⟨fun same => other (beq_iff_eq.mpr same.symm), first⟩
      · exact ih (split ▸ List.mem_cons_of_mem _ mem)

theorem slash_not_mem_fileName {path name : List Char} (h : fileName path = some name) : '/' ∉ name := by
  unfold fileName at h
  split at h
  · cases h
  · rename_i last found
    split at h
    · cases h
    · cases h
      exact slash_not_mem_splitOn (List.mem_filter.mp (List.mem_of_getLast? found)).1

/-- The name of the destination that the names of its temporary files are made of. -/
def destinationName (destination : LocalPath) : List Char := (fileName destination.chars).getD "download".toList

theorem destinationName_plain (destination : LocalPath) : '/' ∉ destinationName destination := by
  unfold destinationName
  cases h : fileName destination.chars with
  | none => decide
  | some name => exact slash_not_mem_fileName h

theorem partName_plain {name : List Char} (plain : '/' ∉ name) (transferId : TransferId) : '/' ∉ partName name transferId := by
  have digits : '/' ∉ Nat.toDigits 10 transferId.raw := fun mem => slash_not_digit _ _ mem rfl
  simp only [partName, List.mem_append, List.mem_cons, not_or]
  exact ⟨⟨⟨by decide, plain⟩, by decide⟩, digits⟩

theorem fileName_partName (destination : LocalPath) (transferId : TransferId) {extra : List Char} (plain : '/' ∉ extra) :
    fileName (joinPath ((parentPath destination.chars).getD []) (partName (destinationName destination) transferId ++ extra)) =
      some (partName (destinationName destination) transferId ++ extra) := by
  have length := partName_length (destinationName destination) transferId
  have long : 15 ≤ (partName (destinationName destination) transferId ++ extra).length := by
    rw [List.length_append]
    omega
  refine fileName_joinPath ?_ ?_ ?_ ?_
  · rw [List.mem_append, not_or]
    exact ⟨partName_plain (destinationName_plain destination) transferId, plain⟩
  · intro same
    simp [same] at long
  · intro same
    simp [same] at long
  · intro same
    simp [same] at long

theorem joinPath_append (parent name extra : List Char) : joinPath parent name ++ extra = joinPath parent (name ++ extra) := by
  unfold joinPath
  split
  · rfl
  · split
    · rw [List.append_assoc]
    · rw [List.append_assoc, List.cons_append]

/-- No file beside the destination with a temporary name is the destination itself. -/
theorem joinPath_partName_ne (destination : LocalPath) (transferId : TransferId) {extra : List Char} (plain : '/' ∉ extra) :
    joinPath ((parentPath destination.chars).getD []) (partName (destinationName destination) transferId ++ extra) ≠
      destination.chars := by
  intro same
  have named := fileName_partName destination transferId plain
  rw [same] at named
  have long := partName_length (destinationName destination) transferId
  have length : (destinationName destination).length =
      (partName (destinationName destination) transferId ++ extra).length := by
    conv_lhs => rw [destinationName, named, Option.getD_some]
  rw [List.length_append] at length
  omega

theorem localTemporaryPath_ne (destination : LocalPath) (transferId : TransferId) :
    (localTemporaryPath destination transferId).chars ≠ destination.chars := by
  have distinct := joinPath_partName_ne destination transferId List.not_mem_nil
  rwa [List.append_nil] at distinct

theorem localProbe_ne (destination : LocalPath) (transferId : TransferId) :
    commitProbe (localTemporaryPath destination transferId).chars ≠ destination.chars := by
  unfold commitProbe localTemporaryPath
  rw [joinPath_append]
  exact joinPath_partName_ne destination transferId (by decide)

end MacSftp
