import MacSftp.Core.Types

namespace MacSftp

/-- `str::rsplit_once('/')`. -/
def rsplitOnce (path : List Char) : Option (List Char × List Char) :=
  match path.reverse.dropWhile (· ≠ '/') with
  | [] => none
  | _ :: front => some (front.reverse, (path.reverse.takeWhile (· ≠ '/')).reverse)

theorem rsplitOnce_length (path : List Char) :
    ((rsplitOnce path).getD ([], path)).1.length + ((rsplitOnce path).getD ([], path)).2.length ≤ path.length ∧
      path.length ≤ ((rsplitOnce path).getD ([], path)).1.length + ((rsplitOnce path).getD ([], path)).2.length + 1 := by
  have whole := congrArg List.length (List.takeWhile_append_dropWhile (p := fun c => c ≠ '/') (l := path.reverse))
  rw [List.length_append, List.length_reverse] at whole
  unfold rsplitOnce
  cases cut : path.reverse.dropWhile (· ≠ '/') with
  | nil => simp
  | cons slash front =>
    rw [cut, List.length_cons] at whole
    simp only [Option.getD_some, List.length_reverse]
    omega

def trimEndSlash (path : List Char) : List Char := (path.reverse.dropWhile (· = '/')).reverse

def trimSlashes (name : List Char) : List Char := trimEndSlash (name.dropWhile (· = '/'))

def joinPathComponent (parent name : List Char) : List Char :=
  if parent = [] ∨ parent = ['/'] then '/' :: trimSlashes name else trimEndSlash parent ++ '/' :: trimSlashes name

/-- `parent_path` of the core crate: `/a/b` → `/a`, `/a` → `/`, `/` → nothing. -/
def Core.parentPath (path : List Char) : Option (List Char) :=
  let trimmed := trimEndSlash path
  if trimmed = [] then none
  else
    match rsplitOnce trimmed with
    | some ([], _) => some ['/']
    | some (front, _) => some front
    | none => none

def LocalPath.parent (path : LocalPath) : Option LocalPath := (Core.parentPath path.chars).map LocalPath.mk

def RemotePath.parent (path : RemotePath) : Option RemotePath := (Core.parentPath path.chars).map RemotePath.mk

def TransferEndpoint.parentDirectory : TransferEndpoint → Option TransferEndpoint
  | .local path => path.parent.map .local
  | .remote path => path.parent.map .remote

/-- The loop of `normalize_remote_path`, with the components it has kept. -/
def Core.normalizeLoop : List (List Char) → List (List Char) → List (List Char)
  | components, [] => components
  | components, component :: rest =>
    if component = [] ∨ component = ['.'] then Core.normalizeLoop components rest
    else if component = ['.', '.'] then Core.normalizeLoop components.dropLast rest
    else Core.normalizeLoop (components ++ [component]) rest

def Core.normalizeRemotePath (path : List Char) : List Char :=
  '/' :: ['/'].intercalate (Core.normalizeLoop [] (path.splitOn '/'))

def RemotePath.resolveLinkTarget (path : RemotePath) (target : List Char) : RemotePath :=
  if target.head? = some '/' then ⟨Core.normalizeRemotePath target⟩
  else
    let parent := path.parent.getD ⟨['/']⟩
    ⟨Core.normalizeRemotePath (trimEndSlash parent.chars ++ '/' :: target)⟩

def LocalPath.join (parent : LocalPath) (name : List Char) : LocalPath := ⟨joinPathComponent parent.chars name⟩

def RemotePath.join (parent : RemotePath) (name : List Char) : RemotePath := ⟨joinPathComponent parent.chars name⟩

end MacSftp
