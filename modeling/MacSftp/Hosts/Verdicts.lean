import MacSftp.Hosts.KnownHosts

namespace MacSftp

open Lib

section Verdict

variable {κ : Type} [DecidableEq κ] (format : HostFormat κ)

def Entry.names (pattern : List Char) (entry : Entry κ) : Bool :=
  entryMatchesHost format entry pattern && entry.marker ≠ some .certAuthority

def Entry.blocks (pattern : List Char) (key : PublicKey κ) (entry : Entry κ) : Bool :=
  entry.names format pattern && entry.marker = some .revoked && entry.publicKey.keyData = key.keyData

def Entry.trusts (pattern : List Char) (key : PublicKey κ) (entry : Entry κ) : Bool :=
  entry.names format pattern && entry.marker.isNone && entry.publicKey.keyData = key.keyData

/-- What a set of entries says about a key: the order of the entries plays no part. -/
def verdict (pattern : List Char) (key : PublicKey κ) (entries : List (Entry κ)) : HostKeyCheckResult :=
  if entries.any (Entry.blocks format pattern key) then .mismatch
  else if entries.any (Entry.trusts format pattern key) then .matched
  else if entries.any (Entry.names format pattern) then .mismatch
  else .notFound

theorem Entry.not_names {pattern : List Char} {entry : Entry κ} (h : entry.names format pattern = false)
    (key : PublicKey κ) : entry.blocks format pattern key = false ∧ entry.trusts format pattern key = false := by
  simp [Entry.blocks, Entry.trusts, h]

theorem checkEntries_eq (pattern : List Char) (key : PublicKey κ) (entries : List (Entry κ)) (foundHost foundMatchingKey : Bool) :
    checkEntries format pattern key entries foundHost foundMatchingKey =
      if entries.any (Entry.blocks format pattern key) then .mismatch
      else if foundMatchingKey || entries.any (Entry.trusts format pattern key) then .matched
      else if foundHost || entries.any (Entry.names format pattern) then .mismatch
      else .notFound := by
  induction entries generalizing foundHost foundMatchingKey with
  | nil => simp [checkEntries]
  | cons entry entries ih =>
    simp only [checkEntries, List.any_cons]
    by_cases hhost : entryMatchesHost format entry pattern
    · by_cases hca : entry.marker = some .certAuthority
      · simp [hhost, hca, Entry.blocks, Entry.trusts, Entry.names, ih]
      · by_cases hkey : entry.publicKey.keyData = key.keyData
        · by_cases hrev : entry.marker = some .revoked
          · simp [hhost, hrev, hkey, Entry.blocks, Entry.names]
          · cases hm : entry.marker with
            | none => simp [hhost, hkey, hm, Entry.blocks, Entry.trusts, Entry.names, ih]
            | some m => cases m <;> simp_all
        · simp [hhost, hca, hkey, Entry.blocks, Entry.trusts, Entry.names, ih]
    · simp [hhost, Entry.blocks, Entry.trusts, Entry.names, ih]

theorem KnownHostsStore.check_eq (store : KnownHostsStore κ) (host : List Char) (port : UInt16) (key : PublicKey κ) :
    store.check format host port key = verdict format (hostPattern host port) key store.entries := by
  rw [KnownHostsStore.check, checkEntries_eq, verdict]
  simp only [Bool.false_or]

theorem any_congr_mem {α : Type} {l l' : List α} (h : ∀ x, x ∈ l ↔ x ∈ l') (p : α → Bool) : l.any p = l'.any p := by
  rw [Bool.eq_iff_iff, List.any_eq_true, List.any_eq_true]
  simp only [h]

theorem verdict_congr {l l' : List (Entry κ)} (h : ∀ entry, entry ∈ l ↔ entry ∈ l') (pattern : List Char) (key : PublicKey κ) :
    verdict format pattern key l = verdict format pattern key l' := by
  simp only [verdict, any_congr_mem h]

section Added

variable {format} {l l' : List (Entry κ)} {added : Entry κ} (h : ∀ entry, entry ∈ l' ↔ entry ∈ l ∨ entry = added)

include h

omit [DecidableEq κ] in
theorem any_added (p : Entry κ → Bool) : l'.any p = (l.any p || p added) := by
  have hmem : ∀ entry, entry ∈ l' ↔ entry ∈ l ++ [added] := by simpa using h
  rw [any_congr_mem hmem, List.any_append]
  simp

/-- An entry says nothing about the patterns it does not name. -/
theorem verdict_unnamed {pattern : List Char} (hname : added.names format pattern = false) (key : PublicKey κ) :
    verdict format pattern key l' = verdict format pattern key l := by
  obtain ⟨hblock, htrust⟩ := Entry.not_names format hname key
  simp only [verdict, any_added h, hname, hblock, htrust, Bool.or_false]

/-- An entry that trusts a key makes it match, unless an older entry revokes it. -/
theorem verdict_trusted {pattern : List Char} {key : PublicKey κ} (htrust : added.trusts format pattern key) :
    verdict format pattern key l' = .matched ∨ l.any (Entry.blocks format pattern key) := by
  have hmark : added.marker = none := by
    simp only [Entry.trusts, Bool.and_eq_true, Option.isNone_iff_eq_none] at htrust
    exact htrust.1.2
  have hblock : added.blocks format pattern key = false := by simp [Entry.blocks, hmark]
  by_cases hl : l.any (Entry.blocks format pattern key)
  · exact .inr hl
  · left
    simp [verdict, any_added h, hblock, htrust, hl]

end Added

end Verdict

section Lines

variable {κ : Type} (format : HostFormat κ)

def Marker.fromStr (text : List Char) : Option Marker :=
  if text = "@cert-authority".toList then some .certAuthority
  else if text = "@revoked".toList then some .revoked
  else none

def hashPrefix : List Char := ['|', '1', '|']

/-- What is relied on of the parser and of the hash: an optional marker, then a host field that is
split at commas, then the key; comments and blank lines are skipped, and so is a carriage return at
the end of a line; and the hash has no collisions. -/
structure HostFormat.Lawful : Prop where
  comment : ∀ line : List Char, line.head? = some '#' → format.next line = none
  blank : ∀ line : List Char, line.all isWhitespace → format.next line = none
  next : ∀ line : List Char, line.head? ≠ some '#' → line.all isWhitespace = false → format.next line = some (format.entry line)
  carriageReturn : ∀ line, format.next (line ++ ['\r']) = format.next line
  unmarked : ∀ hosts key : List Char, hosts ≠ [] → ' ' ∉ hosts → hosts.head? ≠ some '@' →
    format.entry (hosts ++ ' ' :: key) =
      (format.hostPatterns hosts).bind fun names => (format.publicKey key).map fun key => ⟨none, names, key⟩
  marked : ∀ marker hosts key : List Char, marker.head? = some '@' → ' ' ∉ marker → ' ' ∉ hosts →
    format.entry (marker ++ ' ' :: (hosts ++ ' ' :: key)) =
      (Marker.fromStr marker).bind fun marker => (format.hostPatterns hosts).bind fun names =>
        (format.publicKey key).map fun key => ⟨some marker, names, key⟩
  single : ∀ hosts : List Char, hosts ≠ [] → ',' ∉ hosts → ¬ hashPrefix <+: hosts →
    format.hostPatterns hosts = some (.patterns [hosts])
  several : ∀ hosts : List Char, ',' ∈ hosts → ¬ hashPrefix <+: hosts →
    ∃ names, format.hostPatterns hosts = some (.patterns names) ∧ names ≠ [] ∧ ∀ name ∈ names, ',' ∉ name
  hashed : ∀ (hosts : List Char) (patterns : HostPatterns), hashPrefix <+: hosts →
    format.hostPatterns hosts = some patterns → ∃ salt hash, patterns = .hashedName salt hash
  algorithm : ∀ key, ∃ name rest, format.keyText key = name ++ ' ' :: rest ∧ ' ' ∉ name ∧ format.publicKey rest = none
  publicKey : ∀ key, '\n' ∉ format.keyText key → '\r' ∉ format.keyText key →
    ∃ parsed, format.publicKey (format.keyText key) = some parsed ∧ parsed.keyData = key.keyData
  collision : ∀ salt message other, format.mac salt message = format.mac salt other → message = other

end Lines

end MacSftp
