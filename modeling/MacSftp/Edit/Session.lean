import MacSftp.Core.Types
import MacSftp.Lib.Keyed

namespace MacSftp

open Lib

structure RemoteSnapshot where
  size : Option Nat
  modifiedAt : Option Timestamp
  deriving DecidableEq, Repr

def RemoteSnapshot.truncatedToSecs (s : RemoteSnapshot) : RemoteSnapshot :=
  ⟨s.size, s.modifiedAt.map Timestamp.truncatedToSecs⟩

def RemoteSnapshot.agreesAtSecondGranularity (s other : RemoteSnapshot) : Bool :=
  s.truncatedToSecs = other.truncatedToSecs

inductive EditPhase
  | downloading
  | editing
  | checkingRemote
  | uploadingBack
  | remoteConflict
  deriving DecidableEq, Repr

structure LocalBaseline where
  size : Nat
  mtime : Timestamp
  deriving DecidableEq, Repr

structure EditSession where
  id : EditSessionId
  remotePath : RemotePath
  ioPath : RemotePath
  tabId : TabId
  sessionEpoch : Nat
  profileId : ProfileId
  connectionKey : ConnectionKey
  localTempPath : LocalPath
  phase : EditPhase
  remoteSnapshot : RemoteSnapshot
  pendingCheckId : Option EditCheckId
  checkingLocalMtime : Option Timestamp
  localModified : Bool
  localBaseline : Option LocalBaseline
  deriving DecidableEq, Repr

def EditSession.reverted (s : EditSession) : EditSession :=
  { s with phase := .editing, pendingCheckId := none, checkingLocalMtime := none }

structure EditSessionStore where
  sessions : List EditSession
  nextId : Nat
  nextCheckId : Nat
  deriving Repr

namespace EditSessionStore

def new : EditSessionStore := ⟨[], 1, 1⟩

def takeNextId (store : EditSessionStore) : EditSessionStore × EditSessionId :=
  ({ store with nextId := store.nextId + 1 }, ⟨store.nextId⟩)

def takeNextCheckId (store : EditSessionStore) : EditSessionStore × EditCheckId :=
  ({ store with nextCheckId := store.nextCheckId + 1 }, ⟨store.nextCheckId⟩)

def register (store : EditSessionStore) (session : EditSession) : EditSessionStore :=
  { store with sessions := store.sessions ++ [session] }

def get (store : EditSessionStore) (id : EditSessionId) : Option EditSession :=
  findKey EditSession.id id store.sessions

def getMut (store : EditSessionStore) (id : EditSessionId) (f : EditSession → EditSession) :
    EditSessionStore :=
  { store with sessions := updateKey EditSession.id id f store.sessions }

def findByTempPath (store : EditSessionStore) (path : LocalPath) : Option EditSession :=
  findKey EditSession.localTempPath path store.sessions

def findActiveForRemotePath (store : EditSessionStore) (connectionKey : ConnectionKey)
    (remotePath : RemotePath) : Option EditSession :=
  store.sessions.reverse.find? (fun s => s.connectionKey = connectionKey ∧ s.remotePath = remotePath)

def findActive (store : EditSessionStore) (connectionKey : ConnectionKey) (ioPath : RemotePath) :
    Option EditSession :=
  store.sessions.find? (fun s => s.connectionKey = connectionKey ∧ s.ioPath = ioPath)

def remove (store : EditSessionStore) (id : EditSessionId) : EditSessionStore :=
  { store with sessions := store.sessions.eraseP (fun s => s.id = id) }

def removeForTab (store : EditSessionStore) (tabId : TabId) : EditSessionStore × List EditSession :=
  ({ store with sessions := store.sessions.filter (fun s => s.tabId ≠ tabId) },
    store.sessions.filter (fun s => s.tabId = tabId))

def updateEpochForTab (store : EditSessionStore) (tabId : TabId) (sessionEpoch : Nat) : EditSessionStore :=
  { store with sessions := store.sessions.map (fun s =>
      if s.tabId = tabId then
        { (if s.phase = .checkingRemote then s.reverted else s) with sessionEpoch := sessionEpoch }
      else s) }

def editingSessionsForTab (store : EditSessionStore) (tabId : TabId) : List EditSession :=
  store.sessions.filter (fun s => s.phase = .editing ∧ s.tabId = tabId)

end EditSessionStore

end MacSftp
