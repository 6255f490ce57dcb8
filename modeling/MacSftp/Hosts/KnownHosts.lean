import MacSftp.Storage.ProfileFile
import MacSftp.Pipeline.Words
import MacSftp.Lib.Utf8

namespace MacSftp

open Lib

inductive Marker
  | certAuthority
  | revoked
  deriving DecidableEq, Repr

structure PublicKey (κ : Type) where
  keyData : κ
  comment : List Char := []
  deriving DecidableEq, Repr

inductive HostPatterns
  | patterns (names : List (List Char))
  | hashedName (salt hash : List UInt8)
  deriving DecidableEq, Repr

structure Entry (κ : Type) where
  marker : Option Marker
  hostPatterns : HostPatterns
  publicKey : PublicKey κ
  deriving DecidableEq, Repr

/-- What is taken from the parser and the hash, which are not part of the program: `next` is what the
reader of one line of a file answers (`none` where it skips the line), `entry` parses a line on its
own, and `mac` is the keyed hash of a message under a salt. -/
structure HostFormat (κ : Type) where
  next : List Char → Option (Option (Entry κ))
  entry : List Char → Option (Entry κ)
  hostPatterns : List Char → Option HostPatterns
  publicKey : List Char → Option (PublicKey κ)
  keyText : PublicKey κ → List Char
  mac : List UInt8 → List UInt8 → List UInt8

inductive HostKeyCheckResult
  | matched
  | notFound
  | mismatch
  deriving DecidableEq, Repr

structure KnownHostsStore (κ : Type) where
  appEntries : List (Entry κ)
  userEntries : List (Entry κ)
  deriving DecidableEq, Repr

inductive FileState
  | missing
  | unreadable (error : IoError)
  | content (bytes : List UInt8)
  deriving DecidableEq, Repr

abbrev Disk := LocalPath → FileState

/-- `[host]:port`, and the bare host for the default port. -/
def hostPattern (host : List Char) (port : UInt16) : List Char :=
  if port = 22 then host else '[' :: host ++ [']', ':'] ++ Nat.toDigits 10 port.toNat

section Store

variable {κ : Type} [DecidableEq κ] (format : HostFormat κ)

def entryMatchesHost (entry : Entry κ) (pattern : List Char) : Bool :=
  match entry.hostPatterns with
  | .patterns names => names.any (· = pattern)
  | .hashedName salt hash => format.mac salt (Utf8.encode pattern) = hash

def loadFile : FileState → List (Entry κ)
  | .missing => []
  | .unreadable _ => []
  | .content bytes => (Utf8.lines (Utf8.fromUtf8Lossy bytes)).filterMap fun line => (format.next line).join

def KnownHostsStore.load (disk : Disk) (appPath : LocalPath) (userPath : Option LocalPath) : KnownHostsStore κ where
  appEntries := loadFile format (disk appPath)
  userEntries := (userPath.map fun path => loadFile format (disk path)).getD []

/-- The loop of `check`, with what it has found so far. -/
def checkEntries (pattern : List Char) (key : PublicKey κ) : List (Entry κ) → Bool → Bool → HostKeyCheckResult
  | [], foundHost, foundMatchingKey =>
    if foundMatchingKey then .matched else if foundHost then .mismatch else .notFound
  | entry :: entries, foundHost, foundMatchingKey =>
    if entryMatchesHost format entry pattern then
      if entry.marker = some .certAuthority then checkEntries pattern key entries foundHost foundMatchingKey
      else
        let keyMatches : Bool := entry.publicKey.keyData = key.keyData
        if entry.marker = some .revoked && keyMatches then .mismatch
        else checkEntries pattern key entries true (foundMatchingKey || (entry.marker.isNone && keyMatches))
    else checkEntries pattern key entries foundHost foundMatchingKey

def KnownHostsStore.entries (store : KnownHostsStore κ) : List (Entry κ) := store.appEntries ++ store.userEntries

def KnownHostsStore.check (store : KnownHostsStore κ) (host : List Char) (port : UInt16) (key : PublicKey κ) :
    HostKeyCheckResult :=
  checkEntries format (hostPattern host port) key store.entries false false

end Store

inductive AtomicWriteError
  | notCommitted (error : IoError)
  | replacedButNotDurable (error : IoError)
  deriving DecidableEq, Repr

/-- What the operating system answers, where it fails, to the steps of an append. -/
structure WriteFaults where
  lock : Option IoError := none
  parent : Option IoError := none
  staging : Option IoError := none
  rename : Option IoError := none
  syncParent : Option IoError := none
  deriving DecidableEq, Repr

def writePrivateFilePhased (faults : WriteFaults) (disk : Disk) (path : LocalPath) (contents : List UInt8) :
    Except AtomicWriteError Unit × Disk :=
  match faults.parent, faults.staging, faults.rename with
  | some error, _, _ => (.error (.notCommitted error), disk)
  | none, some error, _ => (.error (.notCommitted error), disk)
  | none, none, some error => (.error (.notCommitted error), disk)
  | none, none, none =>
    -- past the rename the file holds the new contents, whatever the sync of its directory says
    let replaced := Function.update disk path (.content contents)
    match faults.syncParent with
    | none => (.ok (), replaced)
    | some error => (.error (.replacedButNotDurable error), replaced)

def writePrivateFileAtomically (faults : WriteFaults) (disk : Disk) (path : LocalPath) (contents : List UInt8) :
    Except IoError Unit × Disk :=
  match writePrivateFilePhased faults disk path contents with
  | (.ok (), disk) => (.ok (), disk)
  | (.error (.notCommitted error), disk) => (.error error, disk)
  | (.error (.replacedButNotDurable error), disk) =>
    (.error ⟨error.kind, "contents were replaced but durability is unproven: " ++ error.text ++ " (at " ++
      String.ofList path.chars ++ ")"⟩, disk)

def appendPrivateLineAtomically (faults : WriteFaults) (disk : Disk) (path : LocalPath) (line : List Char) :
    Except IoError Unit × Disk :=
  if '\n' ∈ line ∨ '\r' ∈ line then (.error ⟨.other, "line cannot contain newline characters"⟩, disk)
  else
    match faults.lock with
    | some error => (.error error, disk)
    | none =>
      match disk path with
      | .unreadable error => (.error error, disk)
      | .missing => writePrivateFileAtomically faults disk path (Utf8.encode line ++ [10])
      | .content bytes =>
        let content := if bytes ≠ [] ∧ bytes.getLast? ≠ some 10 then bytes ++ [10] else bytes
        writePrivateFileAtomically faults disk path (content ++ Utf8.encode line ++ [10])

inductive KnownHostsError
  | io (error : IoError)
  | entryFormat
  deriving DecidableEq, Repr

structure Trusting (κ : Type) where
  result : Except KnownHostsError Unit
  store : KnownHostsStore κ
  disk : Disk

section AddTrusted

variable {κ : Type} (format : HostFormat κ)

def refusedHost (host : List Char) : Bool :=
  host.isEmpty || host.any (fun ch => isWhitespace ch || isBidiOrControl ch)

def entryLine (host : List Char) (port : UInt16) (key : PublicKey κ) : List Char :=
  hostPattern host port ++ ' ' :: format.keyText key

def KnownHostsStore.addTrusted (faults : WriteFaults) (disk : Disk) (store : KnownHostsStore κ) (host : List Char)
    (port : UInt16) (key : PublicKey κ) (appPath : LocalPath) : Trusting κ :=
  if refusedHost host then ⟨.error .entryFormat, store, disk⟩
  else
    let line := entryLine format host port key
    match format.entry line with
    | none => ⟨.error .entryFormat, store, disk⟩
    | some entry =>
      match appendPrivateLineAtomically faults disk appPath line with
      | (.error error, disk) => ⟨.error (.io error), store, disk⟩
      | (.ok (), disk) => ⟨.ok (), { store with appEntries := store.appEntries ++ [entry] }, disk⟩

end AddTrusted

end MacSftp
