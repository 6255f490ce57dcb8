import Mathlib.Algebra.Ring.Nat
import MacSftp.Core.Types

namespace MacSftp

/-- `char::is_whitespace`: the Unicode property White_Space. -/
def isWhitespace (ch : Char) : Bool :=
  (0x9 ≤ ch.toNat && ch.toNat ≤ 0xD) || ch.toNat == 0x20 || ch.toNat == 0x85 || ch.toNat == 0xA0 || ch.toNat == 0x1680 ||
    (0x2000 ≤ ch.toNat && ch.toNat ≤ 0x200A) || ch.toNat == 0x2028 || ch.toNat == 0x2029 || ch.toNat == 0x202F ||
    ch.toNat == 0x205F || ch.toNat == 0x3000

inductive AuthMethod
  | password (secretRef : SecretRef)
  | privateKey (keyPath : LocalPath) (hasPassphrase : Bool) (passphraseRef : Option SecretRef)
  | keyboardInteractive
  | sshAgent (socketPath : Option LocalPath)
  deriving DecidableEq, Repr

inductive ConnectionRoute
  | direct
  | jumpHost (profileId : ProfileId)
  | proxyCommand (command : String)
  deriving DecidableEq, Repr

structure ConnectionProfile where
  id : ProfileId
  revision : Nat := 1
  name : String
  host : String
  port : Nat := 22
  username : String
  auth : AuthMethod
  route : ConnectionRoute := .direct
  defaultRemotePath : Option RemotePath := none
  deriving DecidableEq, Repr

def SecretRef.keychainRef (profileId : ProfileId) (kind : String) : SecretRef :=
  ⟨"keychain:macsftp:" ++ toString profileId.raw ++ ":" ++ kind⟩

inductive StorageError
  | revisionOverflow (profileId : ProfileId)
  | recoveryRequired (path : String)
  | unsupportedVersion (found supported : Nat)
  | corrupt (message : String)
  | io (path : String) (message : String)
  | parse (message : String)
  | concurrentModification (message : String)
  | profileInUse (profileId : ProfileId)
  deriving DecidableEq, Repr

/-- `{:?}` of a string, for the characters a name or host is made of. -/
def debugString (value : String) : String :=
  "\"" ++ String.join (value.toList.map fun ch =>
    if ch = '"' then "\\\"" else if ch = '\\' then "\\\\" else if ch = '\n' then "\\n" else if ch = '\r' then "\\r"
    else if ch = '\t' then "\\t" else ch.toString) ++ "\""

structure ProfilesFile where
  version : Nat
  profiles : List ConnectionProfile
  nextProfileId : Option Nat
  deriving DecidableEq, Repr

/-- `u64` addition of one in a release build. -/
def succU64 (n : Nat) : Nat := (n + 1) % 2 ^ 64

namespace ProfilesFile

def currentVersion : Nat := 5

def new : ProfilesFile := ⟨currentVersion, [], none⟩

def findProfile (file : ProfilesFile) (profileId : ProfileId) : Option ConnectionProfile :=
  file.profiles.find? (fun profile => profile.id = profileId)

def saveProfile (file : ProfilesFile) (profile : ConnectionProfile) : Except StorageError (ProfilesFile × ConnectionProfile) :=
  match file.profiles.findIdx? (fun stored => stored.id = profile.id) with
  | some index =>
    match file.profiles[index]? with
    | some stored =>
      if stored.revision + 1 < 2 ^ 64 then
        let saved := { profile with revision := stored.revision + 1 }
        .ok ({ file with profiles := file.profiles.set index saved }, saved)
      else .error (.revisionOverflow profile.id)
    | none => .error (.revisionOverflow profile.id)
  | none =>
    let saved := { profile with revision := 1 }
    .ok ({ file with profiles := file.profiles ++ [saved] }, saved)

def nextProfileHighWater (file : ProfilesFile) : Nat :=
  match file.nextProfileId with
  | some mark => mark
  | none => succU64 ((file.profiles.map (fun profile => profile.id.raw)).foldr max 0)

def checkRef (profileId : ProfileId) (secretRef : SecretRef) (kind : String) : Except StorageError Unit :=
  let expected := SecretRef.keychainRef profileId kind
  if secretRef = expected then .ok ()
  else .error (.corrupt ("profile " ++ toString profileId.raw ++ " has " ++ kind ++ " ref " ++ debugString secretRef.value ++
    ", expected " ++ debugString expected.value))

def validateAuth (auth : AuthMethod) (profileId : ProfileId) : Except StorageError Unit :=
  match auth with
  | .password secretRef => checkRef profileId secretRef "password"
  | .privateKey _ hasPassphrase passphraseRef => do
    if let some secretRef := passphraseRef then checkRef profileId secretRef "passphrase"
    if !hasPassphrase && passphraseRef.isSome then
      throw (.corrupt ("profile " ++ toString profileId.raw ++ " has a passphrase ref but has_passphrase=false"))
  | .keyboardInteractive | .sshAgent _ => .ok ()

def invalidName (value : String) : Bool :=
  value.toList.isEmpty || value.toList.any (fun ch => isWhitespace ch || isBidiOrControl ch)

def invalidCommand (command : String) : Bool :=
  command.toList.all isWhitespace || command.toList.contains (Char.ofNat 0) || command.toList.any isBidiOrControl

def validateRoute (file : ProfilesFile) (profile : ConnectionProfile) : Except StorageError Unit :=
  let subject := "profile " ++ toString profile.id.raw
  match profile.route with
  | .direct => .ok ()
  | .proxyCommand command =>
    if invalidCommand command then .error (.corrupt (subject ++ " has an invalid ProxyCommand")) else .ok ()
  | .jumpHost profileId =>
    if profileId = profile.id then .error (.corrupt (subject ++ " jumps to itself"))
    else
      match file.findProfile profileId with
      | none => .error (.corrupt (subject ++ " references missing jump profile " ++ toString profileId.raw))
      | some jump =>
        if jump.route = .direct then .ok ()
        else .error (.corrupt (subject ++ " references non-direct jump profile " ++ toString profileId.raw))

def validateProfile (file : ProfilesFile) (profile : ConnectionProfile) : Except StorageError Unit := do
  let subject := "profile " ++ toString profile.id.raw
  if profile.revision = 0 then throw (.corrupt (subject ++ " has revision 0"))
  if profile.port = 0 then throw (.corrupt (subject ++ " has port 0"))
  if invalidName profile.host then throw (.corrupt (subject ++ " has invalid host " ++ debugString profile.host))
  if invalidName profile.username then
    throw (.corrupt (subject ++ " has invalid username " ++ debugString profile.username))
  validateAuth profile.auth profile.id
  validateRoute file profile

def validateFrom (file : ProfilesFile) : List ConnectionProfile → Except StorageError Unit
  | [] => .ok ()
  | profile :: rest =>
    match rest.find? (fun other => other.id = profile.id) with
    | some duplicate => .error (.corrupt ("duplicate profile id " ++ toString duplicate.id.raw))
    | none => do
      validateProfile file profile
      validateFrom file rest

def validate (file : ProfilesFile) : Except StorageError Unit := file.validateFrom file.profiles

/-- Files before version 3 say by the ref alone that the key needs a passphrase. -/
def migrateAuth : AuthMethod → AuthMethod
  | .privateKey keyPath _ (some secretRef) => .privateKey keyPath true (some secretRef)
  | auth => auth

def migrate (file : ProfilesFile) : ProfilesFile :=
  if file.version < 3 then
    { file with profiles := file.profiles.map (fun profile => { profile with auth := migrateAuth profile.auth }) }
  else file

/-- What is done with the record that is read from the text of `profiles.json`. -/
def accept (parsed : ProfilesFile) : Except StorageError ProfilesFile :=
  if parsed.version = 0 ∨ currentVersion < parsed.version then .error (.unsupportedVersion parsed.version currentVersion)
  else
    match parsed.migrate.validate with
    | .error error => .error error
    | .ok () =>
      .ok { parsed.migrate with version := currentVersion, nextProfileId := some parsed.migrate.nextProfileHighWater }

end ProfilesFile

/-- `serde_json` for the file: what has been written is read back. -/
structure ProfilesCodec (Contents : Type) where
  toStringPretty : ProfilesFile → Contents
  fromStr : Contents → Except String ProfilesFile
  fromStr_toStringPretty : ∀ file, fromStr (toStringPretty file) = .ok file

namespace ProfilesFile

variable {Contents : Type} (codec : ProfilesCodec Contents)

def parse (contents : Contents) : Except StorageError ProfilesFile :=
  match codec.fromStr contents with
  | .error message => .error (.parse message)
  | .ok parsed => parsed.accept

def load (disk : Option Contents) : Except StorageError ProfilesFile :=
  match disk with
  | none => .ok .new
  | some contents => parse codec contents

def serialize (file : ProfilesFile) : Except StorageError Contents :=
  match file.validate with
  | .error error => .error error
  | .ok () => .ok (codec.toStringPretty file)

end ProfilesFile

end MacSftp
