import MacSftp.Session.LinkPaths

namespace MacSftp.Session

open Lib Program

/-- A file system of a server that stays as it is. -/
structure ServerFs (ι : Type) where
  root : ι
  parent : ι → ι
  node : ι → ServerNode
  entry : ι → List Char → Option ι
  root_directory : node root = .directory

/-- What `realpath` does on a server. -/
inductive RealPathMode
  | resolves
  | absolutizes
  | unsupported
  deriving DecidableEq, Repr

namespace ServerFs

variable {ι : Type} (fs : ServerFs ι)

def linked : LinkedFs ι (List Char) where
  root := fs.root
  parent := fs.parent
  isDir n := fs.node n = .directory
  entry := fs.entry
  link n := (fs.node n).linkText
  root_dir := fs.root_directory
  link_not_dir := by
    intro n p linked directory
    rw [directory] at linked
    cases linked

/-- What a path names, as `lstat` sees it. -/
def Names (path : RemotePath) (n : ι) : Prop := fs.linked.Names fs.root (pathText path.chars) n

/-- What the server resolves a path to. -/
def Resolves (path : RemotePath) (n : ι) : Prop := fs.linked.Resolves fs.root (pathText path.chars) n

/-- An absolute path without `..` that the server resolves to a node. -/
structure Leads (path : RemotePath) (n : ι) : Prop where
  absolute : path.chars.head? = some '/'
  level : ['.', '.'] ∉ path.chars.splitOn '/'
  resolves : fs.Resolves path n

/-- An absolute answer of a `realpath` that resolves links leads to where the path leads, and has no `..`; one that resolves
none keeps the names of the path, but not all its slashes and dots. -/
def Canonical (path : RemotePath) (text : List Char) : RealPathMode → Prop
  | .resolves => text.head? = some '/' → ∀ n, fs.Resolves path n → fs.Leads ⟨text⟩ n
  | .absolutizes => text.head? = some '/' → segments text = segments path.chars ∧
      ((pathText text).directory = true → (pathText path.chars).directory = true)
  | .unsupported => False

/-- The answers of the server. Any request may fail. -/
def Answers (mode : RealPathMode) : (op : SessionOp) → op.Answer → Prop
  | .symlinkMetadata path, .ok metadata => ∃ n, fs.Names path n ∧ metadata.kind = (fs.node n).kind
  | .metadata path, .ok metadata => ∃ n, fs.Resolves path n ∧ metadata.kind = (fs.node n).kind
  | .readLink path, .ok target => ∃ n, fs.Names path n ∧ fs.node n = .link target
  | .canonicalize path, .ok text => fs.Canonical path text mode
  | _, _ => True

/-- The runs of a request of the actor against the server. -/
def Runs (mode : RealPathMode) {ε α : Type} (p : SessionM ε α) (asked : List (Asked Unit SessionOp SessionOp.Answer))
    (result : Except ε α) : Prop :=
  Run (fun _ _ => True) (fun op answer _ _ => fs.Answers mode op answer) p () asked () result

variable {fs} {mode : RealPathMode} {path current : RemotePath} {l n : ι}

theorem Names.link_ends {target : List Char} (absolute : current.chars.head? = some '/')
    (level : ['.', '.'] ∉ current.chars.splitOn '/')
    (names : fs.Names current l) (link : fs.node l = .link target) :
    ∃ front name k, current.chars = front ++ '/' :: name ∧ '/' ∉ name ∧ name ≠ [] ∧
      fs.linked.EndsAt fs.root (pathText current.chars) ((segments front).map pathStep) k name l := by
  obtain ⟨front, name, split, plain⟩ := exists_rsplit (List.mem_of_mem_head? absolute : '/' ∈ current.chars)
  have last : (current.chars.splitOn '/').getLastD [] = name := by rw [split, splitOn_rsplit plain, List.getLastD_concat]
  have not_dir : fs.node l ≠ .directory := by
    rw [link]
    nofun
  have named : name ≠ [] ∧ name ≠ ['.'] := by
    rw [← not_or, ← last]
    intro directory
    have directory : (pathText current.chars).directory = true := decide_eq_true directory
    rcases names with ⟨before, k, x, at_⟩ | ⟨_, resolves⟩
    · exact Bool.false_ne_true (at_.plain.symm.trans directory)
    · exact not_dir (resolves.2 directory)
  have below : name ≠ ['.', '.'] := by
    rintro rfl
    rw [split, splitOn_rsplit plain] at level
    exact level (by simp)
  have steps : (pathText current.chars).steps = (segments front).map pathStep ++ [.name name] := by
    change (segments current.chars).map pathStep = _
    rw [split, segments_slash, segments_single plain named.1 named.2, List.map_append, List.map_singleton, pathStep, if_neg below]
  rcases names with ⟨before, k, x, at_⟩ | ⟨last_, resolves⟩
  · obtain ⟨rfl, same⟩ := List.append_inj' (steps.symm.trans at_.steps) rfl
    cases same
    exact ⟨front, name, k, split, plain, named.1, at_⟩
  · rcases last_ with directory | last_
    · exact absurd (resolves.2 directory) not_dir
    · exact absurd steps (last_ _ _)

theorem Leads.hop {target : List Char} (leads : fs.Leads current n) (names : fs.Names current l) (link : fs.node l = .link target)
    (taken : refusedTarget target = false) : fs.Leads (current.resolveLinkTarget target) n := by
  obtain ⟨front, name, k, split, plain, some_, at_⟩ := names.link_ends leads.absolute leads.level link
  have linked : fs.linked.link l = some (pathText target) := by
    change (fs.node l).linkText = _
    rw [link]
    rfl
  have behind := (at_.resolves_link linked).mp leads.resolves
  have level : ['.', '.'] ∉ segments front := by
    intro climbs
    refine leads.level (climbs_iff.mpr ?_)
    rw [split, segments_slash]
    exact List.mem_append_left _ climbs
  obtain ⟨same, low, absolute, ends⟩ := resolveLinkTarget_segments plain some_ level (segments_of_not_refused taken)
  obtain rfl : current = ⟨front ++ '/' :: name⟩ := congrArg RemotePath.mk split
  have toward := behind.1
  have before := at_.follows
  rw [LinkedFs.start_absolute (decide_eq_true leads.absolute)] at before
  have follows : fs.linked.Follows fs.root
      ((segments ((RemotePath.mk (front ++ '/' :: name)).resolveLinkTarget target).chars).map pathStep) n := by
    rw [same]
    split_ifs with rooted
    · rwa [LinkedFs.start_absolute (decide_eq_true rooted)] at toward
    · rw [LinkedFs.start_relative (decide_eq_false rooted)] at toward
      rw [List.map_append]
      exact LinkedFs.follows_append.mpr ⟨k, before, toward⟩
  refine ⟨of_decide_eq_true absolute, fun climbs => low (same ▸ climbs_iff.mp climbs), ?_, ?_⟩
  · rw [LinkedFs.start_absolute absolute]
    exact follows
  · intro directory
    rw [same, ends directory] at follows
    rw [LinkedFs.follows_nil.mp follows]
    exact fs.root_directory

/-- A target that is reported is a file which no link names, and where the path leads. -/
def WritesThrough (fs : ServerFs ι) (n : ι) (resolution : RemoteEntryResolution) : Prop :=
  ∀ target, resolution.target = some target → fs.node n = .file ∧ fs.Names target n ∧ fs.Resolves target n

theorem writesThrough_unresolved (error : UserFacingError) : fs.WritesThrough n (unresolved path error) := nofun

theorem runs_pure {ε α : Type} {a : α} {asked : List (Asked Unit SessionOp SessionOp.Answer)} {result : Except ε α}
    (run : fs.Runs mode (pure a : SessionM ε α) asked result) : result = .ok a ∧ asked = [] := by
  cases run
  exact ⟨rfl, rfl⟩

theorem runs_ask {ε α : Type} {op : SessionOp} {next : op.Answer → SessionM ε α}
    {asked : List (Asked Unit SessionOp SessionOp.Answer)} {result : Except ε α}
    (run : fs.Runs mode (Session.ask op >>= next) asked result) :
    ∃ answer rest, asked = ⟨(), op, answer, ()⟩ :: rest ∧ fs.Answers mode op answer ∧ fs.Runs mode (next answer) rest result := by
  obtain ⟨answer, _, _, rest, rfl, _, answers, later⟩ := Run.of_ask run
  exact ⟨answer, rest, rfl, answers, later⟩

theorem Leads.names {m : ι} {metadata : FileAttributes} (leads : fs.Leads current n) (names : fs.Names current m)
    (kind : metadata.kind = (fs.node m).kind) (file : entryKind metadata.kind = .file) :
    fs.node n = .file ∧ fs.Names current n := by
  have node : fs.node m = .file := by
    rw [kind] at file
    cases found : fs.node m <;> rw [found] at file <;> first | rfl | cases file
  have plain : fs.linked.link m = none := by
    change (fs.node m).linkText = none
    rw [node]
    rfl
  obtain rfl : n = m := leads.resolves.unique (LinkedFs.Names.resolves names plain)
  exact ⟨node, names⟩

theorem runs_followHops {hops : Nat} {asked : List (Asked Unit SessionOp SessionOp.Answer)}
    {result : Except Empty RemoteEntryResolution} (leads : fs.Leads current n)
    (run : fs.Runs mode (followHops path hops current) asked result) :
    ∃ resolution, result = .ok resolution ∧ fs.WritesThrough n resolution := by
  induction hops generalizing current asked with
  | zero =>
    obtain ⟨rfl, _⟩ := runs_pure run
    exact ⟨_, rfl, writesThrough_unresolved _⟩
  | succ hops ih =>
    obtain ⟨(metadata : Except SftpError FileAttributes), rest, rfl, answers, looked⟩ := runs_ask run
    cases metadata with
    | error error =>
      obtain ⟨rfl, _⟩ := runs_pure looked
      exact ⟨_, rfl, writesThrough_unresolved _⟩
    | ok metadata =>
      obtain ⟨m, names, kind⟩ := answers
      by_cases link : metadata.kind = .symlink
      · simp only [link, ne_eq, not_true_eq_false, if_false] at looked
        obtain ⟨(target : Except SftpError (List Char)), rest, rfl, answers, read⟩ := runs_ask looked
        cases target with
        | error error =>
          obtain ⟨rfl, _⟩ := runs_pure read
          exact ⟨_, rfl, writesThrough_unresolved _⟩
        | ok target =>
          obtain ⟨l, names, node⟩ := answers
          simp only at read
          split_ifs at read with refused
          · obtain ⟨rfl, _⟩ := runs_pure read
            exact ⟨_, rfl, writesThrough_unresolved _⟩
          · exact ih (leads.hop names node (Bool.eq_false_of_not_eq_true refused)) read
      · simp only [link, ne_eq, not_false_eq_true, if_true] at looked
        obtain ⟨rfl, _⟩ := runs_pure looked
        refine ⟨_, rfl, ?_⟩
        intro target found
        have file : entryKind metadata.kind = .file := by
          by_contra other
          rw [if_neg other] at found
          cases found
        rw [if_pos file] at found
        obtain rfl := Option.some.inj found
        obtain ⟨node, named⟩ := leads.names names kind file
        exact ⟨node, named, leads.resolves⟩

theorem runs_followFrom {start : Option RemotePath} {asked : List (Asked Unit SessionOp SessionOp.Answer)}
    {result : Except Empty RemoteEntryResolution} (leads : ∀ current, start = some current → fs.Leads current n)
    (run : fs.Runs mode (followFrom path start) asked result) :
    ∃ resolution, result = .ok resolution ∧ fs.WritesThrough n resolution := by
  cases start with
  | none =>
    obtain ⟨rfl, _⟩ := runs_pure run
    exact ⟨_, rfl, writesThrough_unresolved _⟩
  | some current => exact runs_followHops (leads current rfl) run

theorem Leads.respelled {text : List Char} (leads : fs.Leads path n) (absolute : text.head? = some '/')
    (names : segments text = segments path.chars)
    (ends : (pathText text).directory = true → (pathText path.chars).directory = true) : fs.Leads ⟨text⟩ n := by
  obtain ⟨root, level, follows, directory⟩ := leads
  have start : fs.linked.start (pathText text) fs.root = fs.linked.start (pathText path.chars) fs.root := by
    rw [LinkedFs.start_absolute (decide_eq_true absolute), LinkedFs.start_absolute (decide_eq_true root)]
  have steps : (pathText text).steps = (pathText path.chars).steps := congrArg (List.map pathStep) names
  refine ⟨absolute, ?_, ?_, fun wants => directory (ends wants)⟩
  · rw [climbs_iff, names, ← climbs_iff]
    exact level
  · rw [start, steps]
    exact follows

theorem Leads.canonical {text : List Char} (leads : fs.Leads path n) (canonical : fs.Canonical path text mode)
    (current : RemotePath) (start : writeThroughStart path (some text) none = some current) : fs.Leads current n := by
  simp only [writeThroughStart] at start
  split_ifs at start with refused
  obtain rfl := Option.some.inj start
  have absolute : text.head? = some '/' := by
    by_contra relative
    exact refused (.inl relative)
  cases mode with
  | resolves => exact canonical absolute n leads.resolves
  | absolutizes =>
    obtain ⟨names, ends⟩ := canonical absolute
    exact leads.respelled absolute names ends
  | unsupported => exact canonical.elim

theorem runs_resolveLink {asked : List (Asked Unit SessionOp SessionOp.Answer)} {result : Except Empty RemoteEntryResolution}
    (leads : fs.Leads path n) (run : fs.Runs mode (resolveLink path) asked result) :
    ∃ resolution, result = .ok resolution ∧ fs.WritesThrough n resolution := by
  obtain ⟨(canonical : Except SftpError (List Char)), rest, rfl, answers, started⟩ := runs_ask run
  cases canonical with
  | ok canonical => exact runs_followFrom (leads.canonical answers) started
  | error error =>
    obtain ⟨(target : Except SftpError (List Char)), rest, rfl, answers, read⟩ := runs_ask started
    cases target with
    | error error =>
      obtain ⟨rfl, _⟩ := runs_pure read
      exact ⟨_, rfl, writesThrough_unresolved _⟩
    | ok target =>
      obtain ⟨l, names, node⟩ := answers
      refine runs_followFrom ?_ read
      intro current start
      simp only [writeThroughStart] at start
      split_ifs at start with refused
      obtain rfl := Option.some.inj start
      exact leads.hop names node (Bool.eq_false_of_not_eq_true refused)

theorem runs_resolveRemoteEntry (absolute : path.chars.head? = some '/') (level : ['.', '.'] ∉ path.chars.splitOn '/')
    {asked : List (Asked Unit SessionOp SessionOp.Answer)} {result : Except Empty RemoteEntryResolution}
    (run : fs.Runs mode (resolveRemoteEntry path) asked result) :
    ∃ resolution, result = .ok resolution ∧ ∀ target, resolution.target = some target →
      ∃ n, fs.node n = .file ∧ fs.Names target n ∧ fs.Resolves target n ∧ fs.Resolves path n := by
  obtain ⟨(metadata : Except SftpError FileAttributes), rest, rfl, answers, looked⟩ := runs_ask run
  cases metadata with
  | error error =>
    obtain ⟨rfl, _⟩ := runs_pure looked
    exact ⟨_, rfl, nofun⟩
  | ok metadata =>
    simp only at looked
    split_ifs at looked with link
    · obtain ⟨rfl, _⟩ := runs_pure looked
      exact ⟨_, rfl, nofun⟩
    · obtain ⟨(followed : Except SftpError FileAttributes), rest, rfl, answers, followed_⟩ := runs_ask looked
      cases followed with
      | error error =>
        obtain ⟨rfl, _⟩ := runs_pure followed_
        exact ⟨_, rfl, nofun⟩
      | ok followed =>
        obtain ⟨n, resolves, kind⟩ := answers
        simp only at followed_
        split_ifs at followed_ with directory
        · obtain ⟨rfl, _⟩ := runs_pure followed_
          exact ⟨_, rfl, nofun⟩
        · obtain ⟨resolution, rfl, through⟩ := runs_resolveLink ⟨absolute, level, resolves⟩ followed_
          refine ⟨resolution, rfl, ?_⟩
          intro target found
          obtain ⟨node, names, leads⟩ := through target found
          exact ⟨n, node, names, leads, resolves⟩

theorem runs_directoryLink {d : ι} (names : fs.Names path l) (link : (fs.node l).kind = .symlink) (leads : fs.Resolves path d)
    (directory : fs.node d = .directory) {asked : List (Asked Unit SessionOp SessionOp.Answer)}
    {result : Except Empty RemoteEntryResolution} (run : fs.Runs mode (resolveRemoteEntry path) asked result) :
    (∃ a ∈ asked, a.op.failed a.answer = true) ∨
      ∃ resolution, result = .ok resolution ∧ resolution.kind = .directory ∧ resolution.target = none ∧
        resolution.error = none := by
  obtain ⟨(metadata : Except SftpError FileAttributes), rest, rfl, answers, looked⟩ := runs_ask run
  cases metadata with
  | error error => exact .inl ⟨_, List.mem_cons_self, rfl⟩
  | ok metadata =>
    obtain ⟨m, named, kind⟩ := answers
    obtain rfl : m = l := LinkedFs.Names.unique named names
    simp only [kind, link, ne_eq, not_true_eq_false, if_false] at looked
    obtain ⟨(followed : Except SftpError FileAttributes), rest, rfl, answers, followed_⟩ := runs_ask looked
    cases followed with
    | error error => exact .inl ⟨_, List.mem_cons_of_mem _ List.mem_cons_self, rfl⟩
    | ok followed =>
      obtain ⟨n, resolves, kind⟩ := answers
      obtain rfl : n = d := LinkedFs.Resolves.unique resolves leads
      rw [directory] at kind
      simp only [kind, ServerNode.kind, if_true] at followed_
      obtain ⟨rfl, _⟩ := runs_pure followed_
      exact .inr ⟨_, rfl, rfl, rfl, rfl⟩

theorem lookups_followHops {hops : Nat} {asked : List (Asked Unit SessionOp SessionOp.Answer)}
    {result : Except Empty RemoteEntryResolution} (run : fs.Runs mode (followHops path hops current) asked result) :
    Program.total SessionOp.lookups asked ≤ hops := by
  induction hops generalizing current asked with
  | zero =>
    obtain ⟨_, rfl⟩ := runs_pure run
    exact Nat.le_refl 0
  | succ hops ih =>
    obtain ⟨(metadata : Except SftpError FileAttributes), rest, rfl, _, looked⟩ := runs_ask run
    rw [Program.total_cons, SessionOp.lookups, Nat.add_comm]
    apply Nat.succ_le_succ
    cases metadata with
    | error error =>
      obtain ⟨_, rfl⟩ := runs_pure looked
      exact Nat.zero_le hops
    | ok metadata =>
      by_cases link : metadata.kind = .symlink
      · simp only [link, ne_eq, not_true_eq_false, if_false] at looked
        obtain ⟨(target : Except SftpError (List Char)), rest, rfl, _, read⟩ := runs_ask looked
        simp only [Program.total_cons, SessionOp.lookups, Nat.zero_add]
        cases target with
        | error error =>
          obtain ⟨_, rfl⟩ := runs_pure read
          exact Nat.zero_le hops
        | ok target =>
          simp only at read
          split_ifs at read
          · obtain ⟨_, rfl⟩ := runs_pure read
            exact Nat.zero_le hops
          · exact ih read
      · simp only [link, ne_eq, not_false_eq_true, if_true] at looked
        obtain ⟨_, rfl⟩ := runs_pure looked
        exact Nat.zero_le hops

theorem lookups_followFrom {start : Option RemotePath} {asked : List (Asked Unit SessionOp SessionOp.Answer)}
    {result : Except Empty RemoteEntryResolution} (run : fs.Runs mode (followFrom path start) asked result) :
    Program.total SessionOp.lookups asked ≤ maxLinkHops := by
  cases start with
  | none =>
    obtain ⟨_, rfl⟩ := runs_pure run
    exact Nat.zero_le _
  | some current => exact lookups_followHops run

theorem lookups_resolveLink {asked : List (Asked Unit SessionOp SessionOp.Answer)} {result : Except Empty RemoteEntryResolution}
    (run : fs.Runs mode (resolveLink path) asked result) : Program.total SessionOp.lookups asked ≤ maxLinkHops := by
  obtain ⟨(canonical : Except SftpError (List Char)), rest, rfl, _, started⟩ := runs_ask run
  simp only [Program.total_cons, SessionOp.lookups, Nat.zero_add]
  cases canonical with
  | ok canonical => exact lookups_followFrom started
  | error error =>
    obtain ⟨(target : Except SftpError (List Char)), rest, rfl, _, read⟩ := runs_ask started
    simp only [Program.total_cons, SessionOp.lookups, Nat.zero_add]
    cases target with
    | error error =>
      obtain ⟨_, rfl⟩ := runs_pure read
      exact Nat.zero_le _
    | ok target => exact lookups_followFrom read

theorem lookups_resolveRemoteEntry {asked : List (Asked Unit SessionOp SessionOp.Answer)}
    {result : Except Empty RemoteEntryResolution} (run : fs.Runs mode (resolveRemoteEntry path) asked result) :
    Program.total SessionOp.lookups asked ≤ 1 + maxLinkHops := by
  obtain ⟨(metadata : Except SftpError FileAttributes), rest, rfl, _, looked⟩ := runs_ask run
  rw [Program.total_cons, SessionOp.lookups]
  apply Nat.add_le_add_left
  cases metadata with
  | error error =>
    obtain ⟨_, rfl⟩ := runs_pure looked
    exact Nat.zero_le _
  | ok metadata =>
    simp only at looked
    split_ifs at looked
    · obtain ⟨_, rfl⟩ := runs_pure looked
      exact Nat.zero_le _
    · obtain ⟨(followed : Except SftpError FileAttributes), rest, rfl, _, followed_⟩ := runs_ask looked
      simp only [Program.total_cons, SessionOp.lookups, Nat.zero_add]
      cases followed with
      | error error =>
        obtain ⟨_, rfl⟩ := runs_pure followed_
        exact Nat.zero_le _
      | ok followed =>
        simp only at followed_
        split_ifs at followed_
        · obtain ⟨_, rfl⟩ := runs_pure followed_
          exact Nat.zero_le _
        · exact lookups_resolveLink followed_

/-- Whatever the links of the server and its `realpath` do: the request ends, within the hops, and what it reports as the
place to write to is the file that the server itself comes to by the entry's path. -/
theorem write_through_sound (fs : ServerFs ι) (mode : RealPathMode) (path : RemotePath) (absolute : path.chars.head? = some '/')
    (level : ['.', '.'] ∉ path.chars.splitOn '/') (asked : List (Asked Unit SessionOp SessionOp.Answer))
    (result : Except Empty RemoteEntryResolution) (run : fs.Runs mode (resolveRemoteEntry path) asked result) :
    Program.total SessionOp.lookups asked ≤ 1 + maxLinkHops ∧
      (∃ resolution, result = .ok resolution ∧ ∀ target, resolution.target = some target →
        ∃ n, fs.node n = .file ∧ fs.Names target n ∧ fs.Resolves target n ∧ fs.Resolves path n) ∧
      ∀ l d, fs.Names path l → (fs.node l).kind = .symlink → fs.Resolves path d → fs.node d = .directory →
        (∃ a ∈ asked, a.op.failed a.answer = true) ∨
          ∃ resolution, result = .ok resolution ∧ resolution.kind = .directory ∧ resolution.target = none ∧
            resolution.error = none :=
  ⟨lookups_resolveRemoteEntry run, runs_resolveRemoteEntry absolute level run,
    fun _ _ names link leads directory => runs_directoryLink names link leads directory run⟩

/-- A file `/f` and a link `/l` to it. -/
def linkedFile : ServerFs Nat where
  root := 0
  parent _ := 0
  node
    | 1 => .link ['f']
    | 2 => .file
    | _ => .directory
  entry
    | 0, ['l'] => some 1
    | 0, ['f'] => some 2
    | _, _ => none
  root_directory := rfl

theorem linkedFile_names {x : List Char} {n : Nat} (text : pathText ('/' :: x) = ⟨true, [.name x], false⟩)
    (listed : linkedFile.entry 0 x = some n) : linkedFile.Names ⟨'/' :: x⟩ n := by
  refine .inl ⟨[], 0, x, ?_⟩
  rw [text]
  exact ⟨rfl, rfl, .here 0, rfl, listed⟩

theorem linkedFile_resolves : linkedFile.Resolves ⟨['/', 'l']⟩ 2 := by
  have target : linkedFile.linked.Follows 0 [.name ['f']] 2 := .name rfl rfl rfl (.here 2)
  refine ⟨?_, nofun⟩
  exact .link rfl rfl rfl target nofun (.here 2)

def attributesOf (kind : FileKind) : FileAttributes := ⟨kind, none, none, none, nofun⟩

/-- The requests for the link on a server without `realpath`. -/
def linkedFileAsked : List (Asked Unit SessionOp SessionOp.Answer) :=
  [⟨(), .symlinkMetadata ⟨['/', 'l']⟩, .ok (attributesOf .symlink), ()⟩,
    ⟨(), .metadata ⟨['/', 'l']⟩, .ok (attributesOf .file), ()⟩,
    ⟨(), .canonicalize ⟨['/', 'l']⟩, .error ⟨some .opUnsupported, ""⟩, ()⟩,
    ⟨(), .readLink ⟨['/', 'l']⟩, .ok ['f'], ()⟩,
    ⟨(), .symlinkMetadata ⟨['/', 'f']⟩, .ok (attributesOf .file), ()⟩]

theorem linkedFile_run : linkedFile.Runs .unsupported (resolveRemoteEntry ⟨['/', 'l']⟩) linkedFileAsked
    (.ok ⟨⟨['/', 'l']⟩, .file, some ⟨['/', 'f']⟩, none, none, none⟩) := by
  have link := linkedFile_names (n := 1) (by decide : pathText ['/', 'l'] = ⟨true, [.name ['l']], false⟩) rfl
  have file := linkedFile_names (n := 2) (by decide : pathText ['/', 'f'] = ⟨true, [.name ['f']], false⟩) rfl
  exact .ask trivial ⟨1, link, rfl⟩ (.ask trivial ⟨2, linkedFile_resolves, rfl⟩ (.ask trivial trivial
    (.ask trivial ⟨1, link, rfl⟩ (.ask trivial ⟨2, file, rfl⟩ (.done _ _)))))

theorem write_through_sound_linkedFile :
    ∃ n, linkedFile.node n = .file ∧ linkedFile.Names ⟨['/', 'f']⟩ n ∧ linkedFile.Resolves ⟨['/', 'f']⟩ n ∧
      linkedFile.Resolves ⟨['/', 'l']⟩ n := by
  obtain ⟨_, ⟨resolution, returned, through⟩, _⟩ :=
    write_through_sound linkedFile .unsupported ⟨['/', 'l']⟩ rfl (by decide) _ _ linkedFile_run
  cases returned
  exact through _ rfl

end ServerFs

end MacSftp.Session
