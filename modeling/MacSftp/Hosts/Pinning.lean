import MacSftp.Hosts.Trusting
import MacSftp.Hosts.PlainFormat

namespace MacSftp

open Lib

section Outcome

variable {κ : Type} (format : HostFormat κ)

/-- The host passes the filter, and its line parses and has no line break in it. -/
def Accepted (host : List Char) (port : UInt16) (key : PublicKey κ) : Prop :=
  refusedHost host = false ∧ (format.entry (entryLine format host port key)).isSome ∧
    ¬ ('\n' ∈ entryLine format host port key ∨ '\r' ∈ entryLine format host port key)

inductive Adds (faults : WriteFaults) (disk : Disk) (store : KnownHostsStore κ) (host : List Char) (port : UInt16)
    (key : PublicKey κ) (appPath : LocalPath) : Trusting κ → Prop
  | refused (error : KnownHostsError)
      (cause : ¬ Accepted format host port key ∨ faults.first = true ∨ (disk appPath).readable = false) :
      Adds faults disk store host port key appPath ⟨.error error, store, disk⟩
  | pinned (entry : Entry κ) (accepted : Accepted format host port key) (hfirst : faults.first = false)
      (hread : (disk appPath).readable = true) (hsync : faults.syncParent = none)
      (hentry : format.entry (entryLine format host port key) = some entry) :
      Adds faults disk store host port key appPath
        ⟨.ok (), { store with appEntries := store.appEntries ++ [entry] },
          Function.update disk appPath (.content ((disk appPath).appended (entryLine format host port key)))⟩
  | unsynced (error : KnownHostsError) (accepted : Accepted format host port key) (hfirst : faults.first = false)
      (hread : (disk appPath).readable = true) (hsync : faults.syncParent ≠ none) :
      Adds faults disk store host port key appPath
        ⟨.error error, store,
          Function.update disk appPath (.content ((disk appPath).appended (entryLine format host port key)))⟩

theorem addTrusted_adds (faults : WriteFaults) (disk : Disk) (store : KnownHostsStore κ) (host : List Char) (port : UInt16)
    (key : PublicKey κ) (appPath : LocalPath) :
    Adds format faults disk store host port key appPath (store.addTrusted format faults disk host port key appPath) := by
  unfold KnownHostsStore.addTrusted
  split_ifs with hhost
  · exact .refused _ (.inl fun accepted => by simp [accepted.1] at hhost)
  · dsimp only
    cases hentry : format.entry (entryLine format host port key) with
    | none => exact .refused _ (.inl fun accepted => absurd accepted.2.1 (by simp [hentry]))
    | some entry =>
      have haccepted : ¬ ('\n' ∈ entryLine format host port key ∨ '\r' ∈ entryLine format host port key) →
          Accepted format host port key := fun hline => ⟨by simpa using hhost, by simp [hentry], hline⟩
      have happend := append_appends faults disk appPath (entryLine format host port key)
      dsimp only
      generalize appendPrivateLineAtomically faults disk appPath (entryLine format host port key) = r at happend ⊢
      cases happend with
      | refused error cause =>
        apply Adds.refused
        rcases cause with hline | cause
        · exact .inl fun accepted => accepted.2.2 hline
        · exact .inr cause
      | written hline hfirst hread hsync => exact .pinned entry (haccepted hline) hfirst hread hsync hentry
      | unsynced error hline hfirst hread hsync => exact .unsynced _ (haccepted hline) hfirst hread hsync

end Outcome

section Pinned

variable {κ : Type} {format : HostFormat κ} (lawful : format.Lawful)

include lawful

theorem accepted_entry {host : List Char} {port : UInt16} {key : PublicKey κ} (accepted : Accepted format host port key) :
    ∃ entry, format.entry (entryLine format host port key) = some entry ∧ entry.marker = none ∧
      format.hostPatterns (hostPattern host port) = some entry.hostPatterns ∧ entry.publicKey.keyData = key.keyData := by
  obtain ⟨hhost, hsome, hline⟩ := accepted
  obtain ⟨entry, hentry⟩ := Option.isSome_iff_exists.mp hsome
  obtain ⟨c, hc, -⟩ := pattern_head hhost port
  have hspace := space_not_mem hhost port
  by_cases hmark : (hostPattern host port).head? = some '@'
  · -- the host reads as a marker, and then the key text as a host field and half a key
    obtain ⟨name, rest, htext, hname, hnone⟩ := lawful.algorithm key
    rw [entryLine, htext, lawful.marked _ _ _ hmark hspace hname, hnone] at hentry
    cases hm : Marker.fromStr (hostPattern host port) with
    | none => simp [hm] at hentry
    | some m => cases hp : format.hostPatterns name <;> simp [hm, hp] at hentry
  · have hne : hostPattern host port ≠ [] := fun h => by simp [h] at hc
    have hkey : '\n' ∉ format.keyText key ∧ '\r' ∉ format.keyText key := by
      simp only [entryLine, List.mem_append, List.mem_cons, not_or] at hline
      exact ⟨hline.1.2.2, hline.2.2.2⟩
    obtain ⟨parsed, hparsed, hdata⟩ := lawful.publicKey key hkey.1 hkey.2
    rw [entryLine, lawful.unmarked _ _ hne hspace hmark, hparsed] at hentry
    cases hp : format.hostPatterns (hostPattern host port) with
    | none => simp [hp] at hentry
    | some names =>
      obtain rfl : (⟨none, names, parsed⟩ : Entry κ) = entry := by simpa [hp] using hentry
      refine ⟨⟨none, names, parsed⟩, ?_, rfl, rfl, hdata⟩
      rw [entryLine, lawful.unmarked _ _ hne hspace hmark, hparsed, hp]
      rfl

theorem mem_reloaded (disk : Disk) (appPath : LocalPath) (userPath : Option LocalPath) {line : List Char}
    (hline : '\n' ∉ line) (entry : Entry κ) :
    entry ∈ (KnownHostsStore.load format (Function.update disk appPath (.content ((disk appPath).appended line)))
        appPath userPath).entries ↔
      entry ∈ (KnownHostsStore.load format disk appPath userPath).entries ∨ (format.next line).join = some entry := by
  have happ := loadFile_appended lawful (disk appPath) hline
  cases userPath with
  | none => simp [KnownHostsStore.load, KnownHostsStore.entries, happ]
  | some path =>
    by_cases hpath : path = appPath
    · subst hpath
      simp only [KnownHostsStore.load, KnownHostsStore.entries, Function.update_self, happ, Option.map_some, Option.getD_some,
        List.mem_append, Option.mem_toList]
      tauto
    · simp only [KnownHostsStore.load, KnownHostsStore.entries, Function.update_self, Function.update_of_ne hpath, happ,
        Option.map_some, Option.getD_some, List.mem_append, Option.mem_toList]
      tauto

theorem reread {host : List Char} {port : UInt16} {key : PublicKey κ} (accepted : Accepted format host port key) :
    (format.next (entryLine format host port key)).join =
      if (hostPattern host port).head? = some '#' then none else format.entry (entryLine format host port key) := by
  obtain ⟨c, hc, hwhite⟩ := pattern_head accepted.1 port
  have hhead : (entryLine format host port key).head? = some c := by
    obtain ⟨rest, hrest⟩ := List.head?_eq_some_iff.mp hc
    rw [entryLine, hrest]
    rfl
  rw [next_line lawful hhead hwhite]
  simp only [hc, Option.some.injEq]

end Pinned

section Claim

variable {κ : Type} [DecidableEq κ] (format : HostFormat κ)

def TrustKept (faults : WriteFaults) (disk : Disk) (appPath : LocalPath) (userPath : Option LocalPath) (host : List Char)
    (port : UInt16) (key : PublicKey κ) : Prop :=
  let store := KnownHostsStore.load format disk appPath userPath
  let trusting := store.addTrusted format faults disk host port key appPath
  let reloaded := KnownHostsStore.load format trusting.disk appPath userPath
  (trusting.result = .ok () →
    ((∃ entry ∈ store.entries, entry.marker = some .revoked ∧ entryMatchesHost format entry (hostPattern host port) ∧
        entry.publicKey.keyData = key.keyData) ∨
      trusting.store.check format host port key = .matched) ∧
    (∀ host' port' key', ¬ (host' = host ∧ port' = port) →
      trusting.store.check format host' port' key' = store.check format host' port' key') ∧
    (∃ bytes, trusting.disk appPath = .content bytes ∧ (disk appPath).bytes <+: bytes) ∧
    ∀ host' port' key', reloaded.check format host' port' key' = trusting.store.check format host' port' key') ∧
  (trusting.result ≠ .ok () → ∀ host' port' key',
    trusting.store.check format host' port' key' = store.check format host' port' key' ∧
      reloaded.check format host' port' key' = store.check format host' port' key')

/-- The line of a host pins that host alone: the host is one name, which does not begin like a comment
and is nobody else's pattern. -/
structure PinsAlone (host : List Char) (port : UInt16) : Prop where
  single : ¬ hashPrefix <+: hostPattern host port → ',' ∉ host
  hashed : ∀ salt hash, format.hostPatterns (hostPattern host port) = some (.hashedName salt hash) →
    format.mac salt (Utf8.encode (hostPattern host port)) = hash
  kept : (hostPattern host port).head? ≠ some '#'
  alone : ∀ host' port', hostPattern host' port' = hostPattern host port → host' = host ∧ port' = port

/-- The line of a host pins nothing: it begins like a comment, or is a hashed name that no name has. -/
def PinsNothing (host : List Char) (port : UInt16) : Prop :=
  (hostPattern host port).head? = some '#' ∨
    ∃ salt hash, format.hostPatterns (hostPattern host port) = some (.hashedName salt hash) ∧
      ∀ name, format.mac salt (Utf8.encode name) ≠ hash

/-- Once the line is on the disk: if the append reports success the line has to pin the host alone, and
if it reports that the directory was not synced the line has to pin nothing. -/
def TrustSound (faults : WriteFaults) (host : List Char) (port : UInt16) (key : PublicKey κ) : Prop :=
  Accepted format host port key → faults.first = false →
    if faults.syncParent = none then PinsAlone format host port else PinsNothing format host port

end Claim

theorem hostPattern_bracketed {host : List Char} {port : UInt16} (h : port ≠ 22) :
    hostPattern host port = '[' :: host ++ [']', ':'] ++ Nat.toDigits 10 port.toNat := if_neg h

/-- A pattern is nobody else's for a bare host that is not itself written like a host with a port: the
pattern of every other port is also the bare host `[host]:port`. -/
theorem alone_iff {host : List Char} {port : UInt16} :
    (∀ host' port', hostPattern host' port' = hostPattern host port → host' = host ∧ port' = port) ↔
      port = 22 ∧ ∀ host' port', port' ≠ 22 → host ≠ hostPattern host' port' := by
  constructor
  · intro alone
    have hport : port = 22 := (alone _ _ (hostPattern_default (hostPattern host port))).2.symm
    subst hport
    refine ⟨rfl, fun host' port' hother hsame => hother ?_⟩
    exact (alone host' port' (by rw [hostPattern_default]; exact hsame.symm)).2
  · rintro ⟨rfl, hbare⟩ host' port' hsame
    rw [hostPattern_default] at hsame
    by_cases hport : port' = 22
    · subst hport
      rw [hostPattern_default] at hsame
      exact ⟨hsame, rfl⟩
    · exact absurd hsame.symm (hbare host' port' hport)

section Names

variable {κ : Type} {format : HostFormat κ} (lawful : format.Lawful)

theorem names_unmarked {entry : Entry κ} (h : entry.marker = none) (name : List Char) :
    entry.names format name = entryMatchesHost format entry name := by
  simp [Entry.names, h]

theorem trusts_unmarked [DecidableEq κ] {entry : Entry κ} {key : PublicKey κ} (h : entry.marker = none)
    (hkey : entry.publicKey.keyData = key.keyData) (name : List Char) :
    entry.trusts format name key = entryMatchesHost format entry name := by
  simp [Entry.trusts, Entry.names, h, hkey]

include lawful in
theorem field_cases {pattern : List Char} {names : HostPatterns} (hne : pattern ≠ [])
    (h : format.hostPatterns pattern = some names) :
    (names = .patterns [pattern] ∧ ',' ∉ pattern ∧ ¬ hashPrefix <+: pattern) ∨
      (∃ several, names = .patterns several ∧ several ≠ [] ∧ (∀ name ∈ several, ',' ∉ name) ∧ ',' ∈ pattern ∧
        ¬ hashPrefix <+: pattern) ∨
      ∃ salt hash, names = .hashedName salt hash ∧ hashPrefix <+: pattern := by
  by_cases hhash : hashPrefix <+: pattern
  · obtain ⟨salt, hash, hnames⟩ := lawful.hashed _ _ hhash h
    exact .inr (.inr ⟨salt, hash, hnames, hhash⟩)
  · by_cases hcomma : ',' ∈ pattern
    · obtain ⟨several, hseveral, hnil, hnone⟩ := lawful.several _ hcomma hhash
      have hnames : names = .patterns several := by rw [hseveral] at h; exact (Option.some.inj h).symm
      exact .inr (.inl ⟨several, hnames, hnil, hnone, hcomma, hhash⟩)
    · have hnames : names = .patterns [pattern] := by
        rw [lawful.single _ hne hcomma hhash] at h
        exact (Option.some.inj h).symm
      exact .inl ⟨hnames, hcomma, hhash⟩

include lawful in
theorem matches_own {entry : Entry κ} {pattern : List Char} (hne : pattern ≠ [])
    (h : format.hostPatterns pattern = some entry.hostPatterns) (hown : entryMatchesHost format entry pattern = true)
    (name : List Char) : entryMatchesHost format entry name = true ↔ name = pattern := by
  constructor
  · intro hname
    rcases field_cases lawful hne h with ⟨hnames, -, -⟩ | ⟨several, hnames, -, hnone, hcomma, -⟩ | ⟨salt, hash, hnames, -⟩
    · simpa [entryMatchesHost, hnames, eq_comm] using hname
    · have hmem : pattern ∈ several := by simpa [entryMatchesHost, hnames] using hown
      exact absurd hcomma (hnone _ hmem)
    · simp only [entryMatchesHost, hnames, decide_eq_true_eq] at hname hown
      have hencode := lawful.collision salt _ _ (hname.trans hown.symm)
      have hdecode := congrArg Utf8.fromUtf8Lossy hencode
      rwa [Utf8.fromUtf8Lossy_encode, Utf8.fromUtf8Lossy_encode] at hdecode
  · rintro rfl
    exact hown

include lawful in
theorem matches_own_iff {entry : Entry κ} {host : List Char} {port : UInt16} (hne : hostPattern host port ≠ [])
    (h : format.hostPatterns (hostPattern host port) = some entry.hostPatterns) :
    entryMatchesHost format entry (hostPattern host port) = true ↔
      (¬ hashPrefix <+: hostPattern host port → ',' ∉ host) ∧
        ∀ salt hash, format.hostPatterns (hostPattern host port) = some (.hashedName salt hash) →
          format.mac salt (Utf8.encode (hostPattern host port)) = hash := by
  rw [h]
  rcases field_cases lawful hne h with ⟨hnames, hcomma, -⟩ | ⟨several, hnames, -, hnone, hcomma, hhash⟩ |
    ⟨salt, hash, hnames, hhash⟩
  · rw [comma_pattern] at hcomma
    simp [entryMatchesHost, hnames, hcomma]
  · have hmem : hostPattern host port ∉ several := fun hmem => hnone _ hmem hcomma
    rw [comma_pattern] at hcomma
    simp [entryMatchesHost, hnames, hcomma, hhash, hmem]
  · simp [entryMatchesHost, hnames, hhash]

include lawful in
theorem matches_nothing_iff {entry : Entry κ} {pattern : List Char} (hne : pattern ≠ [])
    (h : format.hostPatterns pattern = some entry.hostPatterns) :
    (∀ name, entryMatchesHost format entry name = false) ↔
      ∃ salt hash, format.hostPatterns pattern = some (.hashedName salt hash) ∧ ∀ name,
        format.mac salt (Utf8.encode name) ≠ hash := by
  rw [h]
  rcases field_cases lawful hne h with ⟨hnames, -, -⟩ | ⟨several, hnames, hnil, -, -, -⟩ | ⟨salt, hash, hnames, -⟩
  · simp [entryMatchesHost, hnames]
  · obtain ⟨name, hname⟩ := List.exists_mem_of_ne_nil _ hnil
    simp only [entryMatchesHost, hnames, Option.some.injEq, reduceCtorEq, false_and, exists_false, iff_false, not_forall,
      Bool.not_eq_false, List.any_eq_true, decide_eq_true_eq]
    exact ⟨name, name, hname, rfl⟩
  · simp [entryMatchesHost, hnames]

end Names

section Settled

variable {κ : Type} [DecidableEq κ] {format : HostFormat κ}

theorem verdict_nil (pattern : List Char) (key : PublicKey κ) : verdict format pattern key [] = .notFound := rfl

omit [DecidableEq κ] in
theorem load_missing (appPath : LocalPath) :
    (KnownHostsStore.load format (fun _ => .missing) appPath none).entries = [] := rfl

theorem verdict_single {entry : Entry κ} {pattern : List Char} {key : PublicKey κ} (h : entry.marker = none)
    (hkey : entry.publicKey.keyData = key.keyData) :
    verdict format pattern key [entry] = if entryMatchesHost format entry pattern then .matched else .notFound := by
  have hblock : entry.blocks format pattern key = false := by simp [Entry.blocks, h]
  simp only [verdict, List.any_cons, List.any_nil, hblock, trusts_unmarked h hkey, names_unmarked h, Bool.or_false]
  cases entryMatchesHost format entry pattern <;> rfl

theorem blocks_revoked {entries : List (Entry κ)} {pattern : List Char} {key : PublicKey κ}
    (h : entries.any (Entry.blocks format pattern key)) :
    ∃ entry ∈ entries, entry.marker = some .revoked ∧ entryMatchesHost format entry pattern ∧
      entry.publicKey.keyData = key.keyData := by
  obtain ⟨entry, hmem, hentry⟩ := List.any_eq_true.mp h
  simp only [Entry.blocks, Entry.names, Bool.and_eq_true, decide_eq_true_eq] at hentry
  exact ⟨entry, hmem, hentry.1.2, hentry.1.1.1, hentry.2⟩

variable {host : List Char} {port : UInt16} {key : PublicKey κ}

omit [DecidableEq κ] in
theorem pattern_ne_nil (accepted : Accepted format host port key) : hostPattern host port ≠ [] := by
  obtain ⟨c, hc, -⟩ := pattern_head accepted.1 port
  intro h
  simp [h] at hc

variable (lawful : format.Lawful)

include lawful

theorem kept_of_alone (accepted : Accepted format host port key) (alone : PinsAlone format host port) {entry : Entry κ}
    (hentry : format.entry (entryLine format host port key) = some entry) (disk : Disk) (appPath : LocalPath)
    (userPath : Option LocalPath) :
    let store := KnownHostsStore.load format disk appPath userPath
    let pinned : KnownHostsStore κ := { store with appEntries := store.appEntries ++ [entry] }
    let reloaded := KnownHostsStore.load format
      (Function.update disk appPath (.content ((disk appPath).appended (entryLine format host port key)))) appPath userPath
    ((∃ entry ∈ store.entries, entry.marker = some .revoked ∧ entryMatchesHost format entry (hostPattern host port) ∧
        entry.publicKey.keyData = key.keyData) ∨ pinned.check format host port key = .matched) ∧
      (∀ host' port' key', ¬ (host' = host ∧ port' = port) →
        pinned.check format host' port' key' = store.check format host' port' key') ∧
      ∀ host' port' key', reloaded.check format host' port' key' = pinned.check format host' port' key' := by
  intro store pinned reloaded
  obtain ⟨found, hfound, hmark, hfield, hdata⟩ := accepted_entry lawful accepted
  obtain rfl : found = entry := by rw [hfound] at hentry; exact Option.some.inj hentry
  have hne := pattern_ne_nil accepted
  have hown := (matches_own_iff lawful hne hfield).mpr ⟨alone.single, alone.hashed⟩
  have hadded : ∀ x, x ∈ pinned.entries ↔ x ∈ store.entries ∨ x = found := by
    intro x
    simp only [pinned, KnownHostsStore.entries, List.mem_append, List.mem_singleton]
    tauto
  refine ⟨?_, ?_, ?_⟩
  · rw [KnownHostsStore.check_eq]
    rcases verdict_trusted hadded (by rw [trusts_unmarked hmark hdata]; exact hown) with hmatch | hblock
    · exact .inr hmatch
    · exact .inl (blocks_revoked hblock)
  · intro host' port' key' hother
    rw [KnownHostsStore.check_eq, KnownHostsStore.check_eq]
    apply verdict_unnamed hadded
    rw [names_unmarked hmark, Bool.eq_false_iff]
    exact fun hname => hother (alone.alone host' port' ((matches_own lawful hne hfield hown _).mp hname))
  · intro host' port' key'
    have hline : '\n' ∉ entryLine format host port key := fun h => accepted.2.2 (.inl h)
    rw [KnownHostsStore.check_eq, KnownHostsStore.check_eq]
    apply verdict_congr
    intro x
    rw [hadded, mem_reloaded lawful disk appPath userPath hline, reread lawful accepted, if_neg alone.kept, hfound]
    exact or_congr Iff.rfl (by simp [eq_comm])

theorem alone_of_kept (accepted : Accepted format host port key) {entry : Entry κ}
    (hentry : format.entry (entryLine format host port key) = some entry)
    (hmatch : verdict format (hostPattern host port) key [entry] = .matched)
    (hothers : ∀ host' port', ¬ (host' = host ∧ port' = port) → verdict format (hostPattern host' port') key [entry] = .notFound)
    (hreload : (format.next (entryLine format host port key)).join ≠ none) : PinsAlone format host port := by
  obtain ⟨found, hfound, hmark, hfield, hdata⟩ := accepted_entry lawful accepted
  obtain rfl : found = entry := by rw [hfound] at hentry; exact Option.some.inj hentry
  have hown : entryMatchesHost format found (hostPattern host port) = true := by
    by_contra hno
    simp [verdict_single hmark hdata, hno] at hmatch
  obtain ⟨hsingle, hhashed⟩ := (matches_own_iff lawful (pattern_ne_nil accepted) hfield).mp hown
  refine ⟨hsingle, hhashed, ?_, ?_⟩
  · intro hcomment
    rw [reread lawful accepted, if_pos hcomment] at hreload
    exact hreload rfl
  · intro host' port' hsame
    by_contra hother
    have hnone := hothers host' port' hother
    rw [hsame, hmatch] at hnone
    cases hnone

theorem nothing_of_kept (accepted : Accepted format host port key)
    (hnone : ∀ name entry, (format.next (entryLine format host port key)).join = some entry →
      verdict format name key [entry] = .notFound) : PinsNothing format host port := by
  obtain ⟨entry, hentry, hmark, hfield, hdata⟩ := accepted_entry lawful accepted
  by_cases hcomment : (hostPattern host port).head? = some '#'
  · exact .inl hcomment
  · right
    apply (matches_nothing_iff lawful (pattern_ne_nil accepted) hfield).mp
    intro name
    have hname := hnone name entry (by rw [reread lawful accepted, if_neg hcomment, hentry])
    rw [verdict_single hmark hdata] at hname
    by_contra hyes
    simp [hyes] at hname

theorem unchanged_of_nothing (accepted : Accepted format host port key) (nothing : PinsNothing format host port) (disk : Disk)
    (appPath : LocalPath) (userPath : Option LocalPath) (host' : List Char) (port' : UInt16) (key' : PublicKey κ) :
    (KnownHostsStore.load format
      (Function.update disk appPath (.content ((disk appPath).appended (entryLine format host port key)))) appPath
      userPath).check format host' port' key' =
        (KnownHostsStore.load format disk appPath userPath).check format host' port' key' := by
  obtain ⟨entry, hentry, hmark, hfield, hdata⟩ := accepted_entry lawful accepted
  have hline : '\n' ∉ entryLine format host port key := fun h => accepted.2.2 (.inl h)
  have hmem := mem_reloaded lawful disk appPath userPath hline
  rw [KnownHostsStore.check_eq, KnownHostsStore.check_eq]
  by_cases hcomment : (hostPattern host port).head? = some '#'
  · apply verdict_congr
    intro x
    rw [hmem, reread lawful accepted, if_pos hcomment]
    simp
  · have hnames := (matches_nothing_iff lawful (pattern_ne_nil accepted) hfield).mpr (nothing.resolve_left hcomment)
    have hadded : ∀ x, x ∈ (KnownHostsStore.load format
        (Function.update disk appPath (.content ((disk appPath).appended (entryLine format host port key)))) appPath
        userPath).entries ↔ x ∈ (KnownHostsStore.load format disk appPath userPath).entries ∨ x = entry := by
      intro x
      rw [hmem, reread lawful accepted, if_neg hcomment, hentry]
      simp only [Option.some.injEq, eq_comm]
    apply verdict_unnamed hadded
    rw [names_unmarked hmark, hnames]

end Settled

section Main

variable {κ : Type} [DecidableEq κ] {format : HostFormat κ} (lawful : format.Lawful) (faults : WriteFaults) (host : List Char)
  (port : UInt16) (key : PublicKey κ)

include lawful

theorem trust_kept_of_sound (sound : TrustSound format faults host port key) (disk : Disk) (appPath : LocalPath)
    (userPath : Option LocalPath) : TrustKept format faults disk appPath userPath host port key := by
  have hadds := addTrusted_adds format faults disk (KnownHostsStore.load format disk appPath userPath) host port key appPath
  unfold TrustKept
  dsimp only
  generalize KnownHostsStore.addTrusted format faults disk (KnownHostsStore.load format disk appPath userPath) host port key
    appPath = trusting at hadds ⊢
  cases hadds with
  | refused error cause =>
    constructor
    · intro h
      cases h
    · intro _ _ _ _
      exact ⟨rfl, rfl⟩
  | pinned entry accepted hfirst hread hsync hentry =>
    have halone : PinsAlone format host port := by simpa [hsync] using sound accepted hfirst
    obtain ⟨hmatch, hothers, hreload⟩ := kept_of_alone lawful accepted halone hentry disk appPath userPath
    constructor
    · intro _
      exact ⟨hmatch, hothers, ⟨_, Function.update_self .., FileState.bytes_prefix _ _⟩, hreload⟩
    · intro h
      exact absurd rfl h
  | unsynced error accepted hfirst hread hsync =>
    have hnothing : PinsNothing format host port := by simpa [hsync] using sound accepted hfirst
    constructor
    · intro h
      cases h
    · intro _ host' port' key'
      exact ⟨rfl, unchanged_of_nothing lawful accepted hnothing disk appPath userPath host' port' key'⟩

theorem trust_sound_of_kept
    (kept : TrustKept format faults (fun _ => .missing) ⟨[]⟩ none host port key) : TrustSound format faults host port key := by
  intro accepted hfirst
  have hadds := addTrusted_adds format faults (fun _ => .missing)
    (KnownHostsStore.load format (fun _ => .missing) ⟨[]⟩ none) host port key ⟨[]⟩
  have hline : '\n' ∉ entryLine format host port key := fun h => accepted.2.2 (.inl h)
  have hmem := mem_reloaded lawful (fun _ => .missing) ⟨[]⟩ none hline
  unfold TrustKept at kept
  dsimp only at kept
  generalize KnownHostsStore.addTrusted format faults (fun _ => .missing)
    (KnownHostsStore.load format (fun _ => .missing) ⟨[]⟩ none) host port key ⟨[]⟩ = trusting at hadds kept
  simp only [KnownHostsStore.check_eq] at kept
  cases hadds with
  | refused error cause =>
    rcases cause with h | h | h
    · exact absurd accepted h
    · simp [hfirst] at h
    · cases h
  | pinned entry _ _ _ hsync hentry =>
    rw [if_pos hsync]
    obtain ⟨hmatch, hothers, -, hreload⟩ := kept.1 rfl
    have hmatched : verdict format (hostPattern host port) key [entry] = .matched := by
      rcases hmatch with ⟨entry, hmem, -⟩ | hmatch
      · cases hmem
      · exact hmatch
    apply alone_of_kept lawful accepted hentry hmatched
    · exact fun host' port' hother => hothers host' port' key hother
    · -- with nothing read back, the key would not match after a restart
      intro hnone
      have hnil : ∀ x, x ∈ (KnownHostsStore.load format (Function.update (fun _ => FileState.missing) ⟨[]⟩
          (.content (FileState.missing.appended (entryLine format host port key)))) ⟨[]⟩ none).entries ↔
            x ∈ ([] : List (Entry κ)) := by
        intro x
        rw [hmem, hnone, load_missing]
        simp
      have hempty := verdict_congr format hnil (hostPattern host port) key
      rw [hreload host port key] at hempty
      exact absurd (hmatched.symm.trans hempty) (by simp [verdict_nil])
  | unsynced error _ _ _ hsync =>
    rw [if_neg hsync]
    apply nothing_of_kept lawful accepted
    intro name entry hentry
    have hname := (kept.2 (by simp) name 22 key).2
    rw [hostPattern_default] at hname
    refine Eq.trans ?_ hname
    apply verdict_congr
    intro x
    rw [hmem, hentry, load_missing]
    simp [eq_comm]

/-- A trusted key is pinned for that host alone, on every disk and after every restart, exactly for the
hosts whose line pins them alone, and with a write that is synced. -/
theorem trust_kept_iff :
    (∀ disk appPath userPath, TrustKept format faults disk appPath userPath host port key) ↔
      TrustSound format faults host port key :=
  ⟨fun kept => trust_sound_of_kept lawful faults host port key (kept _ _ _),
    fun sound => trust_kept_of_sound lawful faults host port key sound⟩

end Main

theorem trusted_name_kept :
    TrustKept HostFormat.plain {} (fun _ => .missing) ⟨['k']⟩ none ['a'] 22 ⟨true, []⟩ := by
  refine (trust_kept_iff HostFormat.plain_lawful {} ['a'] 22 ⟨true, []⟩).mpr ?_ _ _ _
  intro _ _
  rw [if_pos rfl]
  refine ⟨by decide, ?_, by decide, alone_iff.mpr ⟨rfl, ?_⟩⟩
  · intro salt hash h
    cases h
  · intro host' port' hport hsame
    rw [hostPattern_bracketed hport] at hsame
    simp at hsame

theorem two_names_not_kept :
    HostFormat.plain.Lawful ∧ ¬ TrustKept HostFormat.plain {} (fun _ => .missing) ⟨['k']⟩ none ['a', ',', 'b'] 22 ⟨true, []⟩ ∧
      ¬ TrustKept HostFormat.plain { syncParent := some ⟨.other, "Input/output error"⟩ } (fun _ => .missing) ⟨['k']⟩ none
        ['a'] 22 ⟨true, []⟩ := by
  refine ⟨HostFormat.plain_lawful, fun kept => ?_, fun kept => ?_⟩
  · rcases (kept.1 (by decide +kernel)).1 with ⟨entry, hentry, -⟩ | hmatch
    · cases hentry
    · exact absurd hmatch (by decide +kernel)
  · have hreload := (kept.2 (by decide +kernel) ['a'] 22 ⟨true, []⟩).2
    exact absurd hreload (by decide +kernel)

end MacSftp
