import Mathlib.Data.Nat.Basic
import Mathlib.Order.Lattice

namespace MacSftp

structure TabId where
  raw : Nat
  deriving DecidableEq, Repr

structure SessionId where
  raw : Nat
  deriving DecidableEq, Repr

structure TransferId where
  raw : Nat
  deriving Repr

theorem TransferId.raw_injective : Function.Injective TransferId.raw := by
  rintro ⟨a⟩ ⟨b⟩ h
  exact congrArg _ h

instance : LinearOrder TransferId := LinearOrder.lift' TransferId.raw TransferId.raw_injective

structure TransferPlanId where
  raw : Nat
  deriving DecidableEq, Repr

structure ConflictRequestId where
  raw : Nat
  deriving DecidableEq, Repr

structure ProfileId where
  raw : Nat
  deriving DecidableEq, Repr

structure EditSessionId where
  raw : Nat
  deriving DecidableEq, Repr

structure EditCheckId where
  raw : Nat
  deriving DecidableEq, Repr

/-- `SystemTime` as nanoseconds relative to the Unix epoch. -/
structure Timestamp where
  nanos : Int
  deriving DecidableEq, Repr

def Timestamp.fromSecsSinceEpoch (seconds : Nat) : Timestamp := ⟨seconds * 1000000000⟩

def Timestamp.truncatedToSecs (t : Timestamp) : Timestamp :=
  fromSecsSinceEpoch (if 0 ≤ t.nanos then t.nanos.toNat / 1000000000 else 0)

/-- Paths are sequences of characters, since the code cuts and joins them at `/`. -/
structure LocalPath where
  chars : List Char
  deriving DecidableEq, Repr

structure RemotePath where
  chars : List Char
  deriving DecidableEq, Repr

def LocalPath.new (value : String) : LocalPath := ⟨value.toList⟩

def RemotePath.new (value : String) : RemotePath := ⟨value.toList⟩

def isControl (ch : Char) : Bool :=
  ch.toNat ≤ 0x1F || (0x7F ≤ ch.toNat && ch.toNat ≤ 0x9F)

def isBidiOrControl (ch : Char) : Bool :=
  isControl ch || ch.toNat == 0x200E || ch.toNat == 0x200F || ch.toNat == 0x061C ||
    (0x202A ≤ ch.toNat && ch.toNat ≤ 0x202E) || (0x2066 ≤ ch.toNat && ch.toNat ≤ 0x2069)

/-- `std::path::Path::file_name`: the last component, when it is a normal one. Repeated slashes
and `.` components are dropped by `Path::components`. -/
def fileName (path : List Char) : Option (List Char) :=
  match ((path.splitOn '/').filter (fun c => c ≠ [] ∧ c ≠ ['.'])).getLast? with
  | none => none
  | some name => if name = ['.', '.'] then none else some name

theorem slash_not_digit (n : Nat) : ∀ c ∈ Nat.toDigits 10 n, c ≠ '/' := by
  rintro c hc rfl
  have := Nat.isDigit_of_mem_toDigits (by omega) (by omega) hc
  simp at this

theorem toDigits_injective {m n : Nat} (h : Nat.toDigits 10 m = Nat.toDigits 10 n) : m = n := by
  rw [← Nat.ofDigitChars_ten_toDigits (n := m), h, Nat.ofDigitChars_ten_toDigits]

inductive TransferDirection
  | upload
  | download
  deriving DecidableEq, Repr

inductive TransferEndpoint
  | local (path : LocalPath)
  | remote (path : RemotePath)
  deriving DecidableEq, Repr

structure MetadataPolicy where
  preservePermissions : Bool := true
  preserveMtime : Bool := true
  preserveSymlinks : Bool := true
  deriving DecidableEq, Repr

inductive RenameStrategy
  | appendCopySuffix
  | explicitName (name : String)
  deriving DecidableEq, Repr

inductive ConflictPolicy
  | ask
  | overwriteAll
  | skipAll
  | renameAll (strategy : RenameStrategy)
  deriving DecidableEq, Repr

inductive ErrorCode
  | authFailed
  | hostKeyMismatch
  | localNetworkPermissionDenied
  | permissionDenied
  | fileExists
  | notFound
  | unsupportedSymlink
  | metadataPreservationFailed
  | channelClosed
  | networkTimeout
  | networkError
  | serverDisconnected
  | cancelled
  | unknown
  deriving DecidableEq, Repr

structure UserFacingError where
  code : ErrorCode
  title : String
  message : String
  detail : Option String := none
  retryable : Bool := false
  deriving DecidableEq, Repr

def UserFacingError.withRetryable (error : UserFacingError) (retryable : Bool) : UserFacingError :=
  { error with retryable := retryable }

structure SecretRef where
  value : String
  deriving DecidableEq, Repr

inductive AuthMethodKind
  | password
  | privateKey
  | keyboardInteractive
  | sshAgent
  deriving DecidableEq, Repr

structure AuthFingerprint where
  method : AuthMethodKind
  secretRef : Option SecretRef
  privateKeyPathHash : Option String
  profileRevision : Nat
  savedProfileId : Option ProfileId
  jumpProfileRevision : Option (ProfileId × Nat)
  deriving DecidableEq, Repr

inductive ConnectionPoolIdentity
  | saved (fingerprint : AuthFingerprint)
  | ephemeral (session : SessionId)
  deriving DecidableEq, Repr

structure ConnectionKey where
  host : String
  port : Nat
  username : String
  identity : ConnectionPoolIdentity
  deriving DecidableEq, Repr

structure StartTransferCommand where
  tabId : TabId
  sessionEpoch : Nat
  profileId : ProfileId
  direction : TransferDirection
  sources : List TransferEndpoint
  destination : TransferEndpoint
  metadataPolicy : MetadataPolicy
  conflictPolicy : ConflictPolicy
  deriving DecidableEq, Repr

end MacSftp
