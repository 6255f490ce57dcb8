import MacSftp.Hosts.PlainFormat
import Mathlib.Data.List.Perm.Basic

namespace MacSftp

section

variable {κ : Type} (format : HostFormat κ)

namespace KnownHostsStore

/-- An entry with this marker, in either list, names the host. -/
def Names (store : KnownHostsStore κ) (host : List Char) (port : UInt16) (marker : Option Marker) : Prop :=
  ∃ entry ∈ store.appEntries ++ store.userEntries, entry.marker = marker ∧
    entryMatchesHost format entry (hostPattern host port) = true

/-- An entry with this marker, in either list, names the host and the key. -/
def NamesKey (store : KnownHostsStore κ) (host : List Char) (port : UInt16) (key : PublicKey κ) (marker : Option Marker) : Prop :=
  ∃ entry ∈ store.appEntries ++ store.userEntries, entry.marker = marker ∧
    entryMatchesHost format entry (hostPattern host port) = true ∧ entry.publicKey.keyData = key.keyData

variable {store other : KnownHostsStore κ} {host : List Char} {port : UInt16} {key : PublicKey κ}

instance [DecidableEq κ] (marker : Option Marker) : Decidable (store.NamesKey format host port key marker) :=
  inferInstanceAs (Decidable (∃ entry ∈ _, _))

theorem NamesKey.mono {marker : Option Marker} (h : store.NamesKey format host port key marker)
    (more : ∀ entry ∈ store.entries, entry ∈ other.entries) : other.NamesKey format host port key marker := by
  obtain ⟨entry, stored, names⟩ := h
  exact ⟨entry, more entry stored, names⟩

variable [DecidableEq κ]

theorem any_blocks : store.entries.any (Entry.blocks format (hostPattern host port) key) = true ↔
    store.NamesKey format host port key (some .revoked) := by
  rw [List.any_eq_true]
  apply exists_congr
  intro entry
  refine and_congr_right' ?_
  cases marker : entry.marker with
  | none => simp [Entry.blocks, marker]
  | some m => cases m <;> simp [Entry.blocks, Entry.names, marker]

theorem any_trusts : store.entries.any (Entry.trusts format (hostPattern host port) key) = true ↔
    store.NamesKey format host port key none := by
  rw [List.any_eq_true]
  apply exists_congr
  intro entry
  refine and_congr_right' ?_
  cases marker : entry.marker with
  | none => simp [Entry.trusts, Entry.names, marker]
  | some m => simp [Entry.trusts, marker]

omit [DecidableEq κ] in
theorem any_names : store.entries.any (Entry.names format (hostPattern host port)) = true ↔
    ∃ marker, marker ≠ some .certAuthority ∧ store.Names format host port marker := by
  rw [List.any_eq_true]
  constructor
  · rintro ⟨entry, stored, names⟩
    rw [Entry.names, Bool.and_eq_true, decide_eq_true_eq] at names
    exact ⟨entry.marker, names.2, entry, stored, rfl, names.1⟩
  · rintro ⟨marker, different, entry, stored, rfl, names⟩
    refine ⟨entry, stored, ?_⟩
    rw [Entry.names, Bool.and_eq_true, decide_eq_true_eq]
    exact ⟨names, different⟩

theorem check_revoked (revoked : store.NamesKey format host port key (some .revoked)) :
    store.check format host port key = .mismatch := by
  rw [check_eq, verdict, if_pos ((any_blocks format).mpr revoked)]

theorem check_matched : store.check format host port key = .matched ↔
    ¬ store.NamesKey format host port key (some .revoked) ∧ store.NamesKey format host port key none := by
  rw [check_eq, ← any_blocks, ← any_trusts, verdict]
  split_ifs <;> simp_all

theorem check_unnamed (clear : ¬ store.NamesKey format host port key (some .revoked))
    (untrusted : ¬ store.NamesKey format host port key none) :
    store.check format host port key =
      if store.entries.any (Entry.names format (hostPattern host port)) then .mismatch else .notFound := by
  rw [← any_blocks] at clear
  rw [← any_trusts] at untrusted
  rw [check_eq, verdict, if_neg clear, if_neg untrusted]

/-- What the verdict says of the entries: a revocation decides first, then an unmarked entry with the key, then any entry
that is not an authority's; and nothing else of the two lists counts. -/
theorem check_precedence (store : KnownHostsStore κ) (host : List Char) (port : UInt16) (key : PublicKey κ) :
    (store.NamesKey format host port key (some .revoked) → store.check format host port key = .mismatch) ∧
      (¬ store.NamesKey format host port key (some .revoked) →
        (store.check format host port key = .matched ↔ store.NamesKey format host port key none) ∧
        (¬ store.NamesKey format host port key none →
          (store.check format host port key = .mismatch ↔
            ∃ marker, marker ≠ some .certAuthority ∧ store.Names format host port marker) ∧
          (store.check format host port key = .notFound ↔
            ¬ ∃ marker, marker ≠ some .certAuthority ∧ store.Names format host port marker))) ∧
      (∀ other : KnownHostsStore κ, (other.appEntries ++ other.userEntries).Perm (store.appEntries ++ store.userEntries) →
        other.check format host port key = store.check format host port key) ∧
      (∀ other : KnownHostsStore κ, store.NamesKey format host port key (some .revoked) →
        (∀ entry ∈ store.appEntries ++ store.userEntries, entry ∈ other.appEntries ++ other.userEntries) →
        other.check format host port key = .mismatch) := by
  refine ⟨check_revoked format, ?_, ?_, ?_⟩
  · intro clear
    refine ⟨?_, ?_⟩
    · rw [check_matched]
      exact and_iff_right clear
    · intro untrusted
      rw [check_unnamed format clear untrusted, ← any_names]
      split_ifs <;> simp_all
  · intro other same
    rw [check_eq, check_eq]
    apply verdict_congr
    intro entry
    exact same.mem_iff
  · intro other revoked more
    exact check_revoked format (revoked.mono format more)

omit [DecidableEq κ] in
theorem namesKey_congr {marker : Option Marker} {same : PublicKey κ} (h : same.keyData = key.keyData) :
    store.NamesKey format host port same marker ↔ store.NamesKey format host port key marker := by
  unfold NamesKey
  rw [h]

/-- `expected_fingerprint`: the two loops return at the first entry that names the host. -/
def expectedFingerprint (fingerprint : κ → String) (store : KnownHostsStore κ) (host : List Char) (port : UInt16) :
    Option String :=
  (store.entries.find? (fun entry => entryMatchesHost format entry (hostPattern host port))).map
    (fun entry => fingerprint entry.publicKey.keyData)

variable (fingerprint : κ → String)

structure ExpectedIsAccepted (store : KnownHostsStore κ) (host : List Char) (port : UInt16) : Prop where
  accepted : (∃ key, store.check format host port key = .matched) →
    ∃ key, store.check format host port key = .matched ∧
      store.expectedFingerprint format fingerprint host port = some (fingerprint key.keyData)
  nothing : (∀ key, store.check format host port key ≠ .matched) →
    store.expectedFingerprint format fingerprint host port = none
  revoked : ∀ key, store.NamesKey format host port key (some .revoked) →
    store.expectedFingerprint format fingerprint host port ≠ some (fingerprint key.keyData)
  authority : ∀ key, store.NamesKey format host port key (some .certAuthority) →
    store.expectedFingerprint format fingerprint host port ≠ some (fingerprint key.keyData)

/-- The first entry for the host holds a key that an unmarked entry names and neither a revocation nor an authority. -/
def FirstIsTrusted (store : KnownHostsStore κ) (host : List Char) (port : UInt16) : Prop :=
  ∀ entry, store.entries.find? (fun entry => entryMatchesHost format entry (hostPattern host port)) = some entry →
    store.NamesKey format host port entry.publicKey none ∧
      ¬ store.NamesKey format host port entry.publicKey (some .revoked) ∧
      ¬ store.NamesKey format host port entry.publicKey (some .certAuthority)

omit [DecidableEq κ] in
theorem expected_of_first {entry : Entry κ}
    (first : store.entries.find? (fun entry => entryMatchesHost format entry (hostPattern host port)) = some entry) :
    store.expectedFingerprint format fingerprint host port = some (fingerprint entry.publicKey.keyData) := by
  rw [expectedFingerprint, first, Option.map_some]

omit [DecidableEq κ] in
theorem nothing_accepted (unnamed : ∀ entry ∈ store.entries, entryMatchesHost format entry (hostPattern host port) = false)
    (marker : Option Marker) : ¬ store.NamesKey format host port key marker := by
  rintro ⟨entry, stored, _, names, _⟩
  rw [unnamed entry stored] at names
  cases names

theorem expectedIsAccepted_iff (distinct : Function.Injective fingerprint) (store : KnownHostsStore κ) (host : List Char)
    (port : UInt16) :
    store.ExpectedIsAccepted format fingerprint host port ↔ store.FirstIsTrusted format host port := by
  constructor
  · intro shown entry first
    have expected := expected_of_first format fingerprint first
    have some_ : ∃ key, store.check format host port key = .matched := by
      by_contra none_
      push Not at none_
      rw [shown.nothing none_] at expected
      cases expected
    obtain ⟨key, accepted, same⟩ := shown.accepted some_
    have data := distinct (Option.some.inj (expected.symm.trans same))
    obtain ⟨_, trusted⟩ := (check_matched format).mp accepted
    refine ⟨(namesKey_congr format data).mpr trusted, ?_, ?_⟩
    · intro revoked
      exact shown.revoked _ revoked expected
    · intro authority
      exact shown.authority _ authority expected
  · intro trusted
    cases first : store.entries.find? (fun entry => entryMatchesHost format entry (hostPattern host port)) with
    | none =>
      have unnamed : ∀ entry ∈ store.entries, entryMatchesHost format entry (hostPattern host port) = false := by
        simpa using first
      have expected : store.expectedFingerprint format fingerprint host port = none := by
        rw [expectedFingerprint, first, Option.map_none]
      refine ⟨?_, fun _ => expected, ?_, ?_⟩
      · rintro ⟨key, accepted⟩
        exact absurd ((check_matched format).mp accepted).2 (nothing_accepted format unnamed none)
      · intro key revoked
        exact absurd revoked (nothing_accepted format unnamed _)
      · intro key authority
        exact absurd authority (nothing_accepted format unnamed _)
    | some entry =>
      obtain ⟨named, clear, plain⟩ := trusted entry first
      have expected := expected_of_first format fingerprint first
      have accepted := (check_matched format).mpr ⟨clear, named⟩
      refine ⟨fun _ => ⟨entry.publicKey, accepted, expected⟩, fun none_ => absurd accepted (none_ _), ?_, ?_⟩
      · intro key revoked same
        have data := distinct (Option.some.inj (expected.symm.trans same))
        exact clear ((namesKey_congr format data).mpr revoked)
      · intro key authority same
        have data := distinct (Option.some.inj (expected.symm.trans same))
        exact plain ((namesKey_congr format data).mpr authority)

def keyDigest (data : Bool) : String := if data then "SHA256:b" else "SHA256:a"

/-- One file trusts the second key of a host and revokes the first. -/
def renewed : KnownHostsStore Bool where
  appEntries := [⟨none, .patterns [['h']], ⟨true, []⟩⟩]
  userEntries := [⟨some .revoked, .patterns [['h']], ⟨false, []⟩⟩]

theorem expectedIsAccepted_renewed : renewed.ExpectedIsAccepted HostFormat.plain keyDigest ['h'] 22 := by
  apply (expectedIsAccepted_iff HostFormat.plain keyDigest (by decide) renewed ['h'] 22).mpr
  intro entry first
  obtain rfl : (⟨none, .patterns [['h']], ⟨true, []⟩⟩ : Entry Bool) = entry := Option.some.inj first
  decide

/-- The revocation stands first: its key is shown, though another key would be accepted. -/
theorem revoked_key_shown :
    let store : KnownHostsStore Bool := ⟨renewed.userEntries, renewed.appEntries⟩
    store.check HostFormat.plain ['h'] 22 ⟨true, []⟩ = .matched ∧
      store.check HostFormat.plain ['h'] 22 ⟨false, []⟩ = .mismatch ∧
      store.expectedFingerprint HostFormat.plain keyDigest ['h'] 22 = some (keyDigest false) ∧
      ¬ store.ExpectedIsAccepted HostFormat.plain keyDigest ['h'] 22 := by
  refine ⟨by decide, by decide, by decide, ?_⟩
  intro shown
  exact shown.revoked ⟨false, []⟩ (by decide) (by decide)

end KnownHostsStore

end

end MacSftp
