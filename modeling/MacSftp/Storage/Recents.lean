import MacSftp.Storage.FileWrites

namespace MacSftp

open Lib

structure RecentEntry where
  id : Nat
  host : String
  port : Nat
  username : String
  profileId : Option Nat
  displayName : Option String
  lastRemotePath : Option String
  lastConnectedAt : Nat
  deriving DecidableEq, Repr

structure RecentsFile where
  version : Nat
  entries : List RecentEntry
  deriving DecidableEq, Repr

structure RecentEntryInput where
  host : String
  port : Nat
  username : String
  profileId : Option Nat
  displayName : Option String
  lastRemotePath : Option String
  lastConnectedAt : Nat
  deriving DecidableEq, Repr

def maxU64 : Nat := 2 ^ 64 - 1

/-- `saturating_add(1)` -/
def succSaturating (n : Nat) : Nat := min (n + 1) maxU64

def validEndpoint (host : String) (port : Nat) (username : String) : Bool :=
  port != 0 && !ProfilesFile.invalidName host && !ProfilesFile.invalidName username

/-- `filter(|text| !text.chars().any(is_bidi_or_control))` -/
def cleanText (text : Option String) : Option String := text.filter fun text => !text.toList.any isBidiOrControl

namespace RecentsFile

def currentVersion : Nat := 1

def empty : RecentsFile := ⟨currentVersion, []⟩

def cleanEntry (entry : RecentEntry) : RecentEntry :=
  { entry with displayName := cleanText entry.displayName, lastRemotePath := cleanText entry.lastRemotePath }

/-- What is done with the record that is read from the text of `recents.json`. -/
def accept (parsed : RecentsFile) : Except StorageError RecentsFile :=
  if parsed.version = 0 ∨ currentVersion < parsed.version then .error (.unsupportedVersion parsed.version currentVersion)
  else
    .ok ⟨parsed.version, (parsed.entries.filter fun entry => validEndpoint entry.host entry.port entry.username).map cleanEntry⟩

variable {Contents : Type} (codec : JsonCodec RecentsFile Contents)

/-- `RecentsFile::load`, where `read` is a failure other than a missing file. -/
def load (path : String) (read : Option String) (disk : Option Contents) : Except StorageError RecentsFile :=
  match read with
  | some message => .error (.io path message)
  | none =>
    match disk with
    | none => .ok empty
    | some contents =>
      match codec.fromStr contents with
      | .error message => .error (.parse message)
      | .ok parsed => parsed.accept

def save (path : String) (write : FileWrite) (file : RecentsFile) (disk : Option Contents) :
    Except StorageError Unit × Option Contents :=
  let written := FileWrite.writePrivateFileAtomically path write disk (codec.toStringPretty file)
  (written.1.mapError (StorageError.io path), written.2)

end RecentsFile

structure RecentsStore where
  path : String
  file : RecentsFile
  nextId : Nat
  initialError : Option StorageError
  deriving DecidableEq, Repr

inductive RecentsAnswer
  | opened
  | upserted
  | forgot (removed : Bool)
  | forgotProfile (decoupled : Nat)
  deriving DecidableEq, Repr

abbrev RecentsCall (Contents : Type) := Called (Option Contents) RecentsStore (CallEnd StorageError RecentsAnswer)

namespace RecentsStore

def maxEntries : Nat := 20

def entries (store : RecentsStore) : List RecentEntry := store.file.entries

def highestId (entries : List RecentEntry) : Option Nat := (entries.map RecentEntry.id).max?

section Changes

def dedupeMatches (entry : RecentEntryInput) (existing : RecentEntry) : Bool :=
  existing.host = entry.host && existing.port = entry.port && existing.username = entry.username &&
    existing.profileId = entry.profileId

/-- Another instance may have inserted entries. -/
def reconcileNextId (store : RecentsStore) : RecentsStore :=
  let highestOnDisk := (highestId store.file.entries).getD 0
  if store.nextId ≤ highestOnDisk then { store with nextId := succSaturating highestOnDisk } else store

def refreshed (entry : RecentEntryInput) (existing : RecentEntry) : RecentEntry :=
  { existing with
    displayName := entry.displayName
    lastRemotePath := entry.lastRemotePath
    lastConnectedAt := entry.lastConnectedAt }

def numbered (entry : RecentEntryInput) (id : Nat) : RecentEntry :=
  ⟨id, entry.host, entry.port, entry.username, entry.profileId, entry.displayName, entry.lastRemotePath, entry.lastConnectedAt⟩

/-- The entry moves to the front, or is put there. -/
def insertEntry (entry : RecentEntryInput) (store : RecentsStore) : RecentsStore :=
  match store.file.entries.find? (dedupeMatches entry) with
  | some existing =>
    { store with file.entries := (refreshed entry existing :: store.file.entries.eraseP (dedupeMatches entry)).take maxEntries }
  | none =>
    { store with
      nextId := succSaturating store.nextId
      file.entries := (numbered entry store.nextId :: store.file.entries).take maxEntries }

def decouple (profileId : Nat) (entry : RecentEntry) : RecentEntry :=
  if entry.profileId = some profileId then { entry with profileId := none } else entry

end Changes

variable {Contents : Type} (codec : JsonCodec RecentsFile Contents)

def openOrEmpty (path : String) (read : Option String) (disk : Option Contents) : RecentsStore :=
  match RecentsFile.load codec path read disk with
  | .ok file => ⟨path, file, ((highestId file.entries).map succSaturating).getD 1, none⟩
  | .error error => ⟨path, .empty, 1, some error⟩

def ensureWritable (store : RecentsStore) : Except StorageError Unit :=
  if store.initialError.isSome then .error (.recoveryRequired store.path) else .ok ()

def acquireWriteLock (lock : Option String) (store : RecentsStore) : Except StorageError Unit :=
  match store.ensureWritable with
  | .error error => .error error
  | .ok () =>
    match lock with
    | some message => .error (.io store.path message)
    | none => .ok ()

def failed (store : RecentsStore) (disk : Option Contents) (error : StorageError) : RecentsCall Contents :=
  ⟨⟨.error error, false⟩, store, disk⟩

/-- The lock, the reload, and the change of what has been read. A change without anything to write leaves the file. -/
def withLock (faults : CallFaults) (store : RecentsStore) (disk : Option Contents)
    (change : RecentsStore → RecentsStore × RecentsAnswer × Bool) : RecentsCall Contents :=
  match store.acquireWriteLock faults.lock with
  | .error error => failed store disk error
  | .ok () =>
    match RecentsFile.load codec store.path faults.read disk with
    | .error error => failed store disk error
    | .ok file =>
      let changed := change { store with file := file }
      if changed.2.2 then
        let saved := changed.1.file.save codec store.path faults.write disk
        ⟨⟨saved.1.map fun _ => changed.2.1, faults.write.replaced⟩, changed.1, saved.2⟩
      else ⟨⟨.ok changed.2.1, false⟩, changed.1, disk⟩

def upsertEntry (entry : RecentEntryInput) (store : RecentsStore) : RecentsStore × RecentsAnswer × Bool :=
  let clean := { entry with displayName := cleanText entry.displayName, lastRemotePath := cleanText entry.lastRemotePath }
  (store.reconcileNextId.insertEntry clean, .upserted, true)

def upsert (faults : CallFaults) (store : RecentsStore) (disk : Option Contents) (entry : RecentEntryInput) :
    RecentsCall Contents :=
  match store.ensureWritable with
  | .error error => failed store disk error
  | .ok () =>
    if validEndpoint entry.host entry.port entry.username then withLock codec faults store disk (upsertEntry entry)
    else failed store disk (.corrupt "invalid recent entry endpoint")

def forgetEntry (id : Nat) (store : RecentsStore) : RecentsStore × RecentsAnswer × Bool :=
  let kept := store.file.entries.filter fun entry => entry.id ≠ id
  let removed := decide (kept.length ≠ store.file.entries.length)
  ({ store with file.entries := kept }, .forgot removed, removed)

def forget (faults : CallFaults) (store : RecentsStore) (disk : Option Contents) (id : Nat) : RecentsCall Contents :=
  withLock codec faults store disk (forgetEntry id)

def decoupleEntries (profileId : Nat) (store : RecentsStore) : RecentsStore × RecentsAnswer × Bool :=
  let decoupled := store.file.entries.countP fun entry => entry.profileId = some profileId
  ({ store with file.entries := store.file.entries.map (decouple profileId) }, .forgotProfile decoupled, decide (0 < decoupled))

def forgetProfile (faults : CallFaults) (store : RecentsStore) (disk : Option Contents) (profileId : Nat) : RecentsCall Contents :=
  withLock codec faults store disk (decoupleEntries profileId)

end RecentsStore

inductive RecentsOp
  | openOrEmpty (faults : CallFaults)
  | upsert (faults : CallFaults) (entry : RecentEntryInput)
  | forget (faults : CallFaults) (id : Nat)
  | forgetProfile (faults : CallFaults) (profileId : Nat)
  deriving DecidableEq, Repr

def RecentsOp.serve {Contents : Type} (codec : JsonCodec RecentsFile Contents) (op : RecentsOp) (store : RecentsStore)
    (disk : Option Contents) : RecentsCall Contents :=
  match op with
  | .openOrEmpty faults => ⟨⟨.ok .opened, false⟩, .openOrEmpty codec store.path faults.read disk, disk⟩
  | .upsert faults entry => store.upsert codec faults disk entry
  | .forget faults id => store.forget codec faults disk id
  | .forgetProfile faults profileId => store.forgetProfile codec faults disk profileId

/-- Any number of instances on one `recents.json`. -/
abbrev RecentsWorld (Contents ι : Type) := Shared (Option Contents) RecentsStore ι

def recentsMachine {Contents ι : Type} [DecidableEq ι] (codec : JsonCodec RecentsFile Contents) :
    Machine (RecentsWorld Contents ι) (ι × RecentsOp) (CallEnd StorageError RecentsAnswer) :=
  Shared.machine (RecentsOp.serve codec)

end MacSftp
