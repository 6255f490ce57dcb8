import MacSftp.Connect.Settings
import Mathlib.Logic.Function.Basic

namespace MacSftp

/-- An attempt makes at most one connection, so that its number also names the connection. -/
inductive PoolEntry
  | connecting (attempt : Nat)
  | connected (shared : Nat)
  deriving DecidableEq, Repr

abbrev ConnectionPool := ConnectionKey → Option PoolEntry

/-- What `get_or_connect` hands back: the receiver of an attempt in progress, of a connection that is
ready, or of the attempt it has just installed. -/
inductive Lookup
  | joined (attempt : Nat)
  | reused (shared : Nat)
  | started (attempt : Nat)
  deriving DecidableEq, Repr

namespace ConnectionPool

def put (pool : ConnectionPool) (key : ConnectionKey) (entry : PoolEntry) : ConnectionPool :=
  Function.update pool key (some entry)

def remove (pool : ConnectionPool) (key : ConnectionKey) : ConnectionPool := Function.update pool key none

def isCurrentAttempt (pool : ConnectionPool) (key : ConnectionKey) (attempt : Nat) : Bool :=
  pool key = some (.connecting attempt)

def dropLost (pool : ConnectionPool) (key : ConnectionKey) (lost : Nat → Bool) : ConnectionPool :=
  match pool key with
  | some (.connected shared) => if lost shared then pool.remove key else pool
  | _ => pool

def getOrConnect (pool : ConnectionPool) (key : ConnectionKey) (lost : Nat → Bool) (expired : Bool) (nextAttempt : Nat) :
    ConnectionPool × Lookup :=
  let pool := pool.dropLost key lost
  match pool key with
  | some (.connecting attempt) =>
    if expired then (pool.put key (.connecting nextAttempt), .started nextAttempt) else (pool, .joined attempt)
  | some (.connected shared) => (pool, .reused shared)
  | none => (pool.put key (.connecting nextAttempt), .started nextAttempt)

def markConnected (pool : ConnectionPool) (key : ConnectionKey) (attempt : Nat) : Bool × ConnectionPool :=
  if pool.isCurrentAttempt key attempt then (true, pool.put key (.connected attempt)) else (false, pool)

def reapStaleAttempt (pool : ConnectionPool) (key : ConnectionKey) (attempt : Nat) : ConnectionPool :=
  if pool.isCurrentAttempt key attempt then pool.remove key else pool

def reapStale (pool : ConnectionPool) (expired lost : Nat → Bool) : ConnectionPool := fun key =>
  match pool key with
  | some (.connecting attempt) => if expired attempt then none else some (.connecting attempt)
  | some (.connected shared) => if lost shared then none else some (.connected shared)
  | none => none

def abandonAttempt (pool : ConnectionPool) (key : ConnectionKey) (attempt : Nat) : ConnectionPool :=
  if pool.isCurrentAttempt key attempt then pool.remove key else pool

def removeIfSame (pool : ConnectionPool) (key : ConnectionKey) (shared : Nat) : ConnectionPool :=
  if pool key = some (.connected shared) then pool.remove key else pool

end ConnectionPool

end MacSftp
