import MacSftp.Lib.SharedCell
import MacSftp.Storage.Profiles

namespace MacSftp

open Lib

/-- `serde_json` for one kind of file: what has been written is read back. -/
structure JsonCodec (Record Contents : Type) where
  toStringPretty : Record → Contents
  fromStr : Contents → Except String Record
  fromStr_toStringPretty : ∀ record, fromStr (toStringPretty record) = .ok record

/-- A file whose contents are the record. -/
def JsonCodec.plain (Record : Type) : JsonCodec Record Record := ⟨id, .ok, fun _ => rfl⟩

/-- What the disk does during one call. -/
structure CallFaults where
  lock : Option String := none
  read : Option String := none
  write : FileWrite := .written
  deriving DecidableEq, Repr

namespace FileWrite

/-- The rename has landed. -/
def replaced : FileWrite → Bool
  | .notCommitted _ => false
  | .written | .replacedButNotDurable _ => true

variable {Contents : Type}

def writePrivateFileAtomically (path : String) (write : FileWrite) (disk : Option Contents) (contents : Contents) :
    Except String Unit × Option Contents :=
  match write with
  | .written => (.ok (), some contents)
  | .notCommitted message => (.error message, disk)
  | .replacedButNotDurable message =>
    (.error ("contents were replaced but durability is unproven: " ++ message ++ " (at " ++ path ++ ")"), some contents)

theorem write_disk (path : String) (write : FileWrite) (disk : Option Contents) (contents : Contents) :
    (writePrivateFileAtomically path write disk contents).2 = if write.replaced then some contents else disk := by
  cases write <;> rfl

end FileWrite

/-- The end of a call. The stores do not tell whether the rename has landed. -/
structure CallEnd (Error α : Type) where
  result : Except Error α
  replaced : Bool
  deriving Repr

end MacSftp
