import MacSftp.Lib.Programs
import MacSftp.Storage.ProfileFile

namespace MacSftp

open Lib

inductive KeychainError
  | notFound
  | os (message : String)
  deriving DecidableEq, Repr

inductive StorageWarning
  | durabilityNotProven (message : String)
  | tempCleanup (path : String) (message : String)
  | keychain (error : KeychainError)
  deriving DecidableEq, Repr

inductive PrivateKeyPassphraseUpdate
  | keepExisting
  | noPassphrase
  | notRemembered (typed : String)
  | remember (secret : String)
  deriving DecidableEq, Repr

inductive ProfileAuthUpdate
  | password (password : Option String)
  | privateKey (keyPath : LocalPath) (passphrase : PrivateKeyPassphraseUpdate)
  | keyboardInteractive
  | sshAgent (socketPath : Option LocalPath)
  deriving DecidableEq, Repr

structure ProfileSaveRequest where
  profileId : ProfileId
  name : String
  host : String
  port : Nat
  username : String
  auth : ProfileAuthUpdate
  route : ConnectionRoute
  defaultRemotePath : Option RemotePath
  deriving DecidableEq, Repr

inductive ProfileMutationError
  | storage (error : StorageError)
  | keychain (error : KeychainError)
  | profileNotFound (profileId : ProfileId)
  | credentialRequired (kind : AuthMethodKind)
  | storageRollback (storage : StorageError) (rollback : KeychainError)
  deriving DecidableEq, Repr

structure ProfileSaveOutcome where
  profile : ConnectionProfile
  cleanupWarnings : List StorageWarning
  deriving DecidableEq, Repr

structure ProfileDeleteOutcome where
  deleted : Bool
  cleanupWarnings : List KeychainError
  deriving DecidableEq, Repr

structure SecretUpdate where
  secretRef : SecretRef
  secret : String
  deriving DecidableEq, Repr

structure ResolvedProfileAuth where
  auth : AuthMethod
  secretUpdate : Option SecretUpdate
  deriving DecidableEq, Repr

inductive TransactionKind
  | save (profile : ConnectionProfile)
  | delete (profileId : ProfileId)
  deriving DecidableEq, Repr

inductive TransactionOutcome
  | committed (warnings : List StorageWarning)
  | unchanged
  deriving DecidableEq, Repr

/-- What one store instance has in memory. -/
structure ProfileStore where
  path : String
  profiles : ProfilesFile
  initialError : Option StorageError
  deriving DecidableEq, Repr

/-- How writing the file ends: before the rename, after it without the directory synced, or in full. -/
inductive FileWrite
  | written
  | notCommitted (message : String)
  | replacedButNotDurable (message : String)
  deriving DecidableEq, Repr

/-- What the disk does during one transaction. -/
structure DiskFaults where
  lock : Option String := none
  read : Option String := none
  cleanup : List StorageWarning := []
  write : FileWrite := .written
  deriving DecidableEq, Repr

def durabilityMessage (path message : String) : String :=
  "could not access " ++ path ++ ": " ++ message

namespace ProfileStore

variable {Contents : Type} (codec : ProfilesCodec Contents)

def findProfile (store : ProfileStore) (profileId : ProfileId) : Option ConnectionProfile :=
  store.profiles.findProfile profileId

def nextProfileId (store : ProfileStore) : ProfileId := ⟨store.profiles.nextProfileHighWater⟩

/-- `ProfileStore::open_or_empty`. -/
def openOrEmpty (path : String) (disk : Option Contents) : ProfileStore :=
  match ProfilesFile.load codec disk with
  | .ok profiles => ⟨path, profiles, none⟩
  | .error error => ⟨path, .new, some error⟩

def ensureWritable (store : ProfileStore) : Except StorageError Unit :=
  if store.initialError.isSome then .error (.recoveryRequired store.path) else .ok ()

def createdElsewhere (profileId : ProfileId) : StorageError :=
  .concurrentModification ("profile " ++ toString profileId.raw ++ " was created by another store instance; reload and retry")

def handedOutElsewhere (profileId : ProfileId) : StorageError :=
  .concurrentModification
    ("profile id " ++ toString profileId.raw ++ " was already handed out by another store instance; reload and retry")

def changedFile (saved : ProfilesFile × ConnectionProfile) : Option ProfilesFile := some saved.1

/-- The change of the reloaded file, or nothing when there is nothing to delete. -/
def applyTransaction (snapshot next : ProfilesFile) : TransactionKind → Except StorageError (Option ProfilesFile)
  | .save profile =>
    match next.findProfile profile.id with
    | some _ =>
      if (snapshot.findProfile profile.id).isNone then .error (createdElsewhere profile.id)
      else (next.saveProfile profile).map changedFile
    | none =>
      if profile.id.raw < next.nextProfileHighWater then .error (handedOutElsewhere profile.id)
      else (ProfilesFile.saveProfile { next with nextProfileId := some (succU64 profile.id.raw) } profile).map changedFile
  | .delete profileId =>
    match next.findProfile profileId with
    | none => .ok none
    | some _ =>
      if next.profiles.any (fun profile => profile.route = .jumpHost profileId) then .error (.profileInUse profileId)
      else .ok (some { next with profiles := next.profiles.filter (fun profile => profile.id ≠ profileId) })

/-- `commit_transaction` under the file lock: the answer, the store and the file. -/
def commitTransaction (faults : DiskFaults) (store : ProfileStore) (disk : Option Contents) (transaction : TransactionKind) :
    Except StorageError TransactionOutcome × ProfileStore × Option Contents :=
  match faults.lock with
  | some message => (.error (.io (store.path ++ ".lock") message), store, disk)
  | none =>
    match faults.read with
    | some message => (.error (.io store.path message), store, disk)
    | none =>
      match ProfilesFile.load codec disk with
      | .error error => (.error error, store, disk)
      | .ok next =>
        match applyTransaction store.profiles next transaction with
        | .error error => (.error error, store, disk)
        | .ok none => (.ok .unchanged, store, disk)
        | .ok (some changed) =>
          match changed.serialize codec with
          | .error error => (.error error, store, disk)
          | .ok contents =>
            match faults.write with
            | .notCommitted message => (.error (.io store.path message), store, disk)
            | .written => (.ok (.committed faults.cleanup), { store with profiles := changed }, some contents)
            | .replacedButNotDurable message =>
              (.ok (.committed (faults.cleanup ++ [.durabilityNotProven (durabilityMessage store.path message)])),
                { store with profiles := changed }, some contents)

end ProfileStore

def secretRefsForAuth : AuthMethod → List SecretRef
  | .password secretRef => [secretRef]
  | .privateKey _ _ passphraseRef => passphraseRef.toList
  | .keyboardInteractive | .sshAgent _ => []

/-- The rollback has an operation of its own: it stores the previous secret again, or deletes the new one when there was none. -/
inductive ProfileOp
  | openOrEmpty
  | store
  | keychainLoad (secretRef : SecretRef)
  | keychainStore (secretRef : SecretRef) (secret : String)
  | keychainRollback (secretRef : SecretRef) (previous : Option String)
  | keychainDelete (secretRef : SecretRef)
  | commitTransaction (transaction : TransactionKind)
  deriving DecidableEq, Repr

def ProfileOp.Ans : ProfileOp → Type
  | openOrEmpty => Unit
  | store => ProfileStore
  | keychainLoad _ => Except KeychainError (Option String)
  | keychainStore _ _ | keychainRollback _ _ | keychainDelete _ => Except KeychainError Unit
  | commitTransaction _ => Except StorageError TransactionOutcome

abbrev ProfileProgram := Program ProfileOp ProfileOp.Ans ProfileMutationError

namespace ProfileStore

def askOpen : ProfileProgram Unit := Program.perform ProfileOp.openOrEmpty

def askStore : ProfileProgram ProfileStore := Program.perform ProfileOp.store

def askLoad (secretRef : SecretRef) : ProfileProgram (Except KeychainError (Option String)) :=
  Program.perform (ProfileOp.keychainLoad secretRef)

def askStoreSecret (secretRef : SecretRef) (secret : String) : ProfileProgram (Except KeychainError Unit) :=
  Program.perform (ProfileOp.keychainStore secretRef secret)

def askRollback (secretRef : SecretRef) (previous : Option String) : ProfileProgram (Except KeychainError Unit) :=
  Program.perform (ProfileOp.keychainRollback secretRef previous)

def askDelete (secretRef : SecretRef) : ProfileProgram (Except KeychainError Unit) :=
  Program.perform (ProfileOp.keychainDelete secretRef)

def askCommit (transaction : TransactionKind) : ProfileProgram (Except StorageError TransactionOutcome) :=
  Program.perform (ProfileOp.commitTransaction transaction)

/-- `result.map_err(wrap)?` -/
def lift {ε α : Type} (wrap : ε → ProfileMutationError) : Except ε α → ProfileProgram α
  | .ok a => pure a
  | .error error => Program.throw (wrap error)

def resolveAuth (request : ProfileSaveRequest) (previous : Option ConnectionProfile) :
    Except ProfileMutationError ResolvedProfileAuth :=
  match request.auth with
  | .password password =>
    let secretRef := SecretRef.keychainRef request.profileId "password"
    match password with
    | some password => .ok ⟨.password secretRef, some ⟨secretRef, password⟩⟩
    | none =>
      match previous.map ConnectionProfile.auth with
      | some (.password secretRef) => .ok ⟨.password secretRef, none⟩
      | _ => .error (.credentialRequired .password)
  | .privateKey keyPath passphrase =>
    match passphrase with
    | .keepExisting =>
      match previous.map ConnectionProfile.auth with
      | some (.privateKey _ hasPassphrase passphraseRef) => .ok ⟨.privateKey keyPath hasPassphrase passphraseRef, none⟩
      | _ => .ok ⟨.privateKey keyPath false none, none⟩
    | .noPassphrase => .ok ⟨.privateKey keyPath false none, none⟩
    | .notRemembered _ => .ok ⟨.privateKey keyPath true none, none⟩
    | .remember secret =>
      let secretRef := SecretRef.keychainRef request.profileId "passphrase"
      .ok ⟨.privateKey keyPath true (some secretRef), some ⟨secretRef, secret⟩⟩
  | .keyboardInteractive => .ok ⟨.keyboardInteractive, none⟩
  | .sshAgent socketPath => .ok ⟨.sshAgent socketPath, none⟩

def checkRequest (store : ProfileStore) (request : ProfileSaveRequest) : Except StorageError Unit :=
  let subject := "profile " ++ toString request.profileId.raw
  if request.port = 0 then .error (.corrupt "port cannot be 0")
  else if ProfilesFile.invalidName request.host then .error (.corrupt "invalid host address")
  else if ProfilesFile.invalidName request.username then .error (.corrupt "invalid username")
  else
    match request.route with
    | .direct => .ok ()
    | .proxyCommand command =>
      if ProfilesFile.invalidCommand command then .error (.corrupt "invalid ProxyCommand") else .ok ()
    | .jumpHost profileId =>
      if profileId = request.profileId then .error (.corrupt (subject ++ " jumps to itself"))
      else
        match store.findProfile profileId with
        | none => .error (.corrupt (subject ++ " references missing jump profile " ++ toString profileId.raw))
        | some jump =>
          if jump.route = .direct then .ok ()
          else .error (.corrupt (subject ++ " references non-direct jump profile " ++ toString profileId.raw))

def requestedProfile (request : ProfileSaveRequest) (auth : AuthMethod) : ConnectionProfile where
  id := request.profileId
  name := request.name
  host := request.host
  port := request.port
  username := request.username
  auth := auth
  route := request.route
  defaultRemotePath := request.defaultRemotePath

/-- What the Keychain had before the new secret. -/
def replaceSecret : Option SecretUpdate → ProfileProgram (Option String)
  | none => pure none
  | some update => do
    let previous ← lift .keychain (← askLoad update.secretRef)
    lift .keychain (← askStoreSecret update.secretRef update.secret)
    pure previous

def restoreSecret (storage : StorageError) (previous : Option String) : Option SecretUpdate → ProfileProgram ProfileSaveOutcome
  | none => Program.throw (.storage storage)
  | some update => do
    match ← askRollback update.secretRef previous with
    | .ok () => Program.throw (.storage storage)
    | .error error => Program.throw (.storageRollback storage error)

/-- Deletes the secrets one after the other and collects the failures. -/
def deleteSecrets : List SecretRef → ProfileProgram (List KeychainError)
  | [] => pure []
  | secretRef :: rest => do
    let deleted ← askDelete secretRef
    let errors ← deleteSecrets rest
    match deleted with
    | .ok () => pure errors
    | .error error => pure (error :: errors)

def orphans (previous : Option ConnectionProfile) (current : AuthMethod) : List SecretRef :=
  match previous with
  | none => []
  | some previous => (secretRefsForAuth previous.auth).filter (fun orphan => !(secretRefsForAuth current).contains orphan)

/-- What follows the commit of a save. -/
def finishSave (profileId : ProfileId) (previous : Option ConnectionProfile) (warnings : List StorageWarning) :
    ProfileProgram ProfileSaveOutcome := do
  let store ← askStore
  match store.findProfile profileId with
  | none => Program.throw (.profileNotFound profileId)
  | some saved => do
    let errors ← deleteSecrets (orphans previous saved.auth)
    pure ⟨saved, warnings ++ errors.map .keychain⟩

def saveRequest (request : ProfileSaveRequest) : ProfileProgram ProfileSaveOutcome := do
  let store ← askStore
  lift .storage store.ensureWritable
  lift .storage (store.checkRequest request)
  let previous := store.findProfile request.profileId
  let resolved ← lift id (resolveAuth request previous)
  let previousSecret ← replaceSecret resolved.secretUpdate
  match ← askCommit (.save (requestedProfile request resolved.auth)) with
  | .error storage => restoreSecret storage previousSecret resolved.secretUpdate
  | .ok .unchanged => Program.throw (.profileNotFound request.profileId)
  | .ok (.committed warnings) => finishSave request.profileId previous warnings

def deleteProfile (profileId : ProfileId) : ProfileProgram Unit := do
  let store ← askStore
  lift .storage store.ensureWritable
  let _ ← lift .storage (← askCommit (.delete profileId))

def deleteProfileAndCredentials (profileId : ProfileId) : ProfileProgram ProfileDeleteOutcome := do
  let store ← askStore
  match store.findProfile profileId with
  | none => pure ⟨false, []⟩
  | some previous => do
    deleteProfile profileId
    let errors ← deleteSecrets (secretRefsForAuth previous.auth)
    pure ⟨true, errors⟩

end ProfileStore

inductive ProfileCall
  | openStore
  | nextProfileId
  | save (request : ProfileSaveRequest)
  | delete (profileId : ProfileId)
  deriving DecidableEq, Repr

inductive ProfileAnswer
  | opened
  | nextProfileId (profileId : ProfileId)
  | saved (outcome : ProfileSaveOutcome)
  | deleted (outcome : ProfileDeleteOutcome)
  deriving DecidableEq, Repr

open ProfileStore in
def ProfileCall.program : ProfileCall → ProfileProgram ProfileAnswer
  | openStore => do
    let _ ← askOpen
    pure .opened
  | nextProfileId => do
    let store ← askStore
    pure (.nextProfileId store.nextProfileId)
  | save request => do
    let outcome ← saveRequest request
    pure (.saved outcome)
  | delete profileId => do
    let outcome ← deleteProfileAndCredentials profileId
    pure (.deleted outcome)

end MacSftp
