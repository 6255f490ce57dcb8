import MacSftp.Core.Types

namespace MacSftp

/-- `std::path::Component`, as far as paths of this system have them. -/
inductive Component
  | rootDir
  | curDir
  | parentDir
  | normal (name : List Char)
  deriving DecidableEq, Repr

def Component.ofSegment (segment : List Char) : Component :=
  if segment = ['.', '.'] then .parentDir else .normal segment

/-- `Path::components`: repeated separators are dropped, and `.` except at the start of a relative path. -/
def components (path : List Char) : List Component :=
  let segments := (path.splitOn '/').filter (fun c => c ≠ [] ∧ c ≠ ['.'])
  let body := segments.map Component.ofSegment
  if path.head? = some '/' then .rootDir :: body
  else if (path.splitOn '/').head? = some ['.'] then .curDir :: body
  else body

/-- `relative_link_dir`, on components: the directory of the link below the root. -/
def relativeLinkDir (destinationRoot destination : List Component) : Option (List Component) :=
  if destination = destinationRoot then some []
  else if destinationRoot <+: destination then
    let relative := destination.drop destinationRoot.length
    if relative = [] then some []
    else if relative.getLast? = some .rootDir then none
    else some relative.dropLast
  else none

/-- The stack of names below the root, or `none` for a component that is not a name. -/
def linkStack : List Component → Option (List (List Char))
  | [] => some []
  | .normal name :: rest => (linkStack rest).map (name :: ·)
  | .curDir :: rest => linkStack rest
  | _ :: _ => none

/-- Follows the segments of a target. The stack is kept with its top first. -/
def followTarget : List (List Char) → List (List Char) → Option (List (List Char))
  | stack, [] => some stack
  | stack, segment :: rest =>
    if segment = [] ∨ segment = ['.'] then followTarget stack rest
    else if segment = ['.', '.'] then
      match stack with
      | [] => none
      | _ :: below => followTarget below rest
    else followTarget (segment :: stack) rest

def symlinkTargetEscapesRoot (relativeDir : List Component) (target : List Char) : Bool :=
  match linkStack relativeDir with
  | none => true
  | some names => (followTarget names.reverse (target.splitOn '/')).isNone

def isAsciiAlphabetic (c : Char) : Bool := ('a' ≤ c && c ≤ 'z') || ('A' ≤ c && c ≤ 'Z')

def isWindowsDrivePrefix : List Char → Bool
  | drive :: ':' :: _ => isAsciiAlphabetic drive
  | _ => false

def unsafeTargetError : UserFacingError where
  code := .unsupportedSymlink
  title := "Unsafe Link Target"
  message := "The remote symlink target cannot be recreated safely inside the download folder."

def unsafeTarget (target : List Char) : Bool :=
  target = [] || target.head? = some '/' || target.head? = some '~' || target.contains '\\' ||
    isWindowsDrivePrefix target || target.any isBidiOrControl

def validateDownloadSymlinkTarget (destinationRoot : Option LocalPath) (destination : LocalPath) (target : List Char) :
    Except UserFacingError Unit :=
  if unsafeTarget target then .error unsafeTargetError
  else
    let rootPath := (destinationRoot.map LocalPath.chars).getD destination.chars
    match relativeLinkDir (components rootPath) (components destination.chars) with
    | none => .error unsafeTargetError
    | some relativeDir =>
      if symlinkTargetEscapesRoot relativeDir target then .error unsafeTargetError else .ok ()

end MacSftp
