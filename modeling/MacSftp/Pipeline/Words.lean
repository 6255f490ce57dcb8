import MacSftp.Core.Types
import Mathlib.Algebra.Order.Group.Nat

namespace MacSftp

/-- Sums in `u64` and casts to `u32`. Both the wrapping ones of a release build and the unbounded ones of plain numbers are
an instance, since they differ only where a result does not fit. -/
structure Words where
  add : Nat → Nat → Nat
  u32 : Nat → Nat
  add_eq : ∀ a b, a + b < 2 ^ 64 → add a b = a + b
  u32_eq : ∀ n, n < 2 ^ 32 → u32 n = n

namespace Words

def wrapping : Words where
  add a b := (a + b) % 2 ^ 64
  u32 n := n % 2 ^ 32
  add_eq _ _ h := Nat.mod_eq_of_lt h
  u32_eq _ h := Nat.mod_eq_of_lt h

def exact : Words where
  add a b := a + b
  u32 n := n
  add_eq _ _ _ := rfl
  u32_eq _ _ := rfl

end Words

theorem default_chunk_pos : 0 < 256 * 1024 := by decide

theorem default_chunk_lt : 256 * 1024 < 2 ^ 32 := by decide

theorem default_window_pos : 0 < 32 := by decide

theorem max_one_pos (n : Nat) : 0 < max n 1 := Nat.le_max_right n 1

theorem max_one_lt {n : Nat} (h : n < 2 ^ 32) : max n 1 < 2 ^ 32 := Nat.max_lt.mpr ⟨h, by decide⟩

theorem unknown_lt (total : Nat) (known : none = some total) : total < 2 ^ 64 := by cases known

inductive IoErrorKind
  | notFound
  | permissionDenied
  | alreadyExists
  | other
  deriving DecidableEq, Repr

structure IoError where
  kind : IoErrorKind
  text : String
  deriving DecidableEq, Repr

def transferError (code : ErrorCode) (title message detail : String) : UserFacingError :=
  { UserFacingError.withRetryable ⟨code, title, message, none, false⟩ true with detail := some detail }

def cancelledTransferError : UserFacingError where
  code := .cancelled
  title := "Transfer cancelled"
  message := "The transfer was cancelled."

def localTransferError (title : String) (error : IoError) : UserFacingError :=
  let code : ErrorCode :=
    match error.kind with
    | .notFound => .notFound
    | .permissionDenied => .permissionDenied
    | .alreadyExists | .other => .unknown
  transferError code title "Check the local file and permissions, then try again." error.text

/-- The error of `emit_transfer_progress` once nobody receives transfer updates. -/
def transferStoppedError : UserFacingError where
  code := .channelClosed
  title := "Transfer stopped"
  message := "The application stopped receiving transfer updates."

def sizeMismatchError (total bytesDone : Nat) : UserFacingError :=
  transferError .unknown "Transfer Incomplete" "The transferred file size did not match the expected size."
    s!"Expected {total} bytes, wrote {bytesDone} bytes"

/-- What interrupts a local operation. -/
inductive StopCause
  | cancelled
  | failed (error : IoError)
  deriving DecidableEq, Repr

def StopCause.error (title : String) : StopCause → UserFacingError
  | .cancelled => cancelledTransferError
  | .failed error => localTransferError title error

def nextChunkLen (words : Words) (remaining chunkSize : Nat) : Nat := words.u32 (min remaining chunkSize)

theorem nextChunkLen_eq (words : Words) (remaining : Nat) {chunkSize : Nat} (h : chunkSize < 2 ^ 32) :
    nextChunkLen words remaining chunkSize = min remaining chunkSize :=
  words.u32_eq _ (lt_of_le_of_lt (Nat.min_le_right _ _) h)

end MacSftp
