import MacSftp.Storage.RecentEntries

namespace MacSftp.Recents

open Lib RecentsStore

section File

variable {Contents : Type} {codec : JsonCodec RecentsFile Contents} {disk : Option Contents}

/-- The entries in the text of the file. -/
def stored (codec : JsonCodec RecentsFile Contents) : Option Contents → List RecentEntry
  | none => []
  | some contents =>
    match codec.fromStr contents with
    | .ok file => file.entries
    | .error _ => []

def EmptyFile (codec : JsonCodec RecentsFile Contents) (disk : Option Contents) : Prop :=
  ∀ contents ∈ disk, codec.fromStr contents = .ok .empty

def Kept (codec : JsonCodec RecentsFile Contents) (disk : Option Contents) : Prop :=
  ∀ contents ∈ disk, ∃ file, codec.fromStr contents = .ok file ∧ KeptFile file

theorem kept_start (start : EmptyFile codec disk) : Kept codec disk :=
  fun contents mem => ⟨.empty, start contents mem, kept_empty⟩

theorem accept_kept {file : RecentsFile} (kept : KeptFile file) : file.accept = .ok file := by
  have known : ¬(file.version = 0 ∨ RecentsFile.currentVersion < file.version) := by
    rw [kept.version]
    decide
  have valid : file.entries.filter (fun entry => validEndpoint entry.host entry.port entry.username) = file.entries :=
    List.filter_eq_self.mpr fun entry mem => (kept.clean entry mem).1
  have clean : file.entries.map RecentsFile.cleanEntry = file.entries :=
    (List.map_congr_left fun entry mem => (kept.clean entry mem).2).trans (List.map_id _)
  rw [RecentsFile.accept, if_neg known, valid, clean]

theorem load_kept (kept : Kept codec disk) (path : String) :
    ∃ file, RecentsFile.load codec path none disk = .ok file ∧ stored codec disk = file.entries ∧ KeptFile file := by
  cases disk with
  | none => exact ⟨.empty, rfl, rfl, kept_empty⟩
  | some contents =>
    obtain ⟨file, parsed, keptFile⟩ := kept contents rfl
    refine ⟨file, ?_, ?_, keptFile⟩
    · simp only [RecentsFile.load, parsed, accept_kept keptFile]
    · simp only [stored, parsed]

theorem stored_written (file : RecentsFile) : stored codec (some (codec.toStringPretty file)) = file.entries := by
  simp only [stored, codec.fromStr_toStringPretty]

theorem kept_written {file : RecentsFile} (kept : KeptFile file) : Kept codec (some (codec.toStringPretty file)) := by
  intro contents mem
  cases mem
  exact ⟨file, codec.fromStr_toStringPretty file, kept⟩

end File

section Calls

variable {Contents : Type} {codec : JsonCodec RecentsFile Contents} {disk : Option Contents} {faults : CallFaults}
  {store : RecentsStore} {change : RecentsStore → RecentsStore × RecentsAnswer × Bool}

/-- The call gets to the change: the store is not blocked, and the lock and the reload succeed. -/
def Begins (faults : CallFaults) (store : RecentsStore) : Prop :=
  store.initialError = none ∧ faults.lock = none ∧ faults.read = none

instance decidableBegins (faults : CallFaults) (store : RecentsStore) : Decidable (Begins faults store) :=
  inferInstanceAs (Decidable (_ ∧ _ ∧ _))

theorem ensureWritable_ok (open_ : store.initialError = none) : store.ensureWritable = .ok () := by
  unfold ensureWritable
  rw [open_]
  rfl

theorem withLock_stuck (codec : JsonCodec RecentsFile Contents) (disk : Option Contents)
    (change : RecentsStore → RecentsStore × RecentsAnswer × Bool) (stuck : ¬Begins faults store) :
    ∃ error, store.withLock codec faults disk change = failed store disk error := by
  unfold withLock acquireWriteLock ensureWritable
  cases blocked : store.initialError with
  | some error => exact ⟨_, rfl⟩
  | none =>
    cases locked : faults.lock with
    | some message => exact ⟨_, rfl⟩
    | none =>
      cases unread : faults.read with
      | some message => exact ⟨_, rfl⟩
      | none => exact absurd ⟨blocked, locked, unread⟩ stuck

/-- What has been changed in memory, and in the file when there was something to write and the rename landed. -/
def ended (codec : JsonCodec RecentsFile Contents) (faults : CallFaults) (store : RecentsStore) (disk : Option Contents)
    (changed : RecentsStore × RecentsAnswer × Bool) : RecentsCall Contents :=
  if changed.2.2 then
    let saved := changed.1.file.save codec store.path faults.write disk
    ⟨⟨saved.1.map fun _ => changed.2.1, faults.write.replaced⟩, changed.1, saved.2⟩
  else ⟨⟨.ok changed.2.1, false⟩, changed.1, disk⟩

theorem withLock_begun (change : RecentsStore → RecentsStore × RecentsAnswer × Bool) (kept : Kept codec disk)
    (begins : Begins faults store) :
    ∃ file, stored codec disk = file.entries ∧ KeptFile file ∧
      store.withLock codec faults disk change = ended codec faults store disk (change { store with file := file }) := by
  obtain ⟨open_, unlocked, readable⟩ := begins
  obtain ⟨file, loaded, entries, keptFile⟩ := load_kept kept store.path
  refine ⟨file, entries, keptFile, ?_⟩
  unfold withLock acquireWriteLock
  simp only [ensureWritable_ok open_, unlocked, readable, loaded]
  rfl

theorem ended_left {changed : RecentsStore × RecentsAnswer × Bool}
    (left : (ended codec faults store disk changed).answer.replaced = false) :
    (ended codec faults store disk changed).cell = disk := by
  unfold ended at left ⊢
  split
  case isTrue writes =>
    rw [if_pos writes] at left
    change (FileWrite.writePrivateFileAtomically ..).2 = disk
    rw [FileWrite.write_disk, if_neg (ne_true_of_eq_false left)]
  case isFalse => rfl

theorem ended_replaced {changed : RecentsStore × RecentsAnswer × Bool}
    (replaced : (ended codec faults store disk changed).answer.replaced = true) :
    (ended codec faults store disk changed).cell = some (codec.toStringPretty changed.1.file) := by
  unfold ended at replaced ⊢
  split
  case isTrue writes =>
    rw [if_pos writes] at replaced
    change (FileWrite.writePrivateFileAtomically ..).2 = _
    rw [FileWrite.write_disk, if_pos replaced]
  case isFalse quiet =>
    rw [if_neg quiet] at replaced
    cases replaced

theorem ended_party (changed : RecentsStore × RecentsAnswer × Bool) :
    (ended codec faults store disk changed).party = changed.1 := by
  unfold ended
  split <;> rfl

theorem ended_error {changed : RecentsStore × RecentsAnswer × Bool} {error : StorageError}
    (failed : (ended codec faults store disk changed).answer.result = .error error)
    (left : (ended codec faults store disk changed).answer.replaced = false) :
    changed.2.2 = true ∧ faults.write.replaced = false := by
  unfold ended at failed left
  split at failed
  case isTrue writes =>
    rw [if_pos writes] at left
    exact ⟨writes, left⟩
  case isFalse => cases failed

/-- An error without a write leaves the instance with the entries of the file. -/
def Truthful (codec : JsonCodec RecentsFile Contents) (called : RecentsCall Contents) : Prop :=
  ∀ error, called.answer.result = .error error → called.answer.replaced = false → called.party.entries = stored codec called.cell

theorem withLock_kept (kept : Kept codec disk)
    (keeps : Begins faults store → ∀ file, stored codec disk = file.entries → KeptFile file →
      KeptFile (change { store with file := file }).1.file) : Kept codec (store.withLock codec faults disk change).cell := by
  by_cases begins : Begins faults store
  · obtain ⟨file, entries, keptFile, same⟩ := withLock_begun change kept begins
    rw [same]
    cases replaced : (ended codec faults store disk (change { store with file := file })).answer.replaced with
    | false =>
      rw [ended_left replaced]
      exact kept
    | true =>
      rw [ended_replaced replaced]
      exact kept_written (keeps begins file entries keptFile)
  · obtain ⟨error, same⟩ := withLock_stuck codec disk change begins
    rw [same]
    exact kept

theorem withLock_truthful (kept : Kept codec disk) (fresh : ¬Begins faults store → store.entries = stored codec disk)
    (still : Begins faults store → faults.write.replaced = false → ∀ file, stored codec disk = file.entries → KeptFile file →
      (change { store with file := file }).2.2 = true → (change { store with file := file }).1.entries = file.entries) :
    Truthful codec (store.withLock codec faults disk change) := by
  intro error failed left
  by_cases begins : Begins faults store
  · obtain ⟨file, entries, keptFile, same⟩ := withLock_begun change kept begins
    rw [same] at failed left ⊢
    obtain ⟨writes, missed⟩ := ended_error failed left
    rw [ended_left left, ended_party, entries]
    exact still begins missed file entries keptFile writes
  · obtain ⟨error, same⟩ := withLock_stuck codec disk change begins
    rw [same]
    exact fresh begins

theorem withLock_left (kept : Kept codec disk) (left : (store.withLock codec faults disk change).answer.replaced = false) :
    (store.withLock codec faults disk change).cell = disk := by
  by_cases begins : Begins faults store
  · obtain ⟨file, -, -, same⟩ := withLock_begun change kept begins
    rw [same] at left ⊢
    exact ended_left left
  · obtain ⟨error, same⟩ := withLock_stuck codec disk change begins
    rw [same]
    rfl

theorem withLock_replaced (kept : Kept codec disk) (replaced : (store.withLock codec faults disk change).answer.replaced = true) :
    Begins faults store ∧ ∃ file, stored codec disk = file.entries ∧ KeptFile file ∧
      stored codec (store.withLock codec faults disk change).cell = (change { store with file := file }).1.entries := by
  by_cases begins : Begins faults store
  · obtain ⟨file, entries, keptFile, same⟩ := withLock_begun change kept begins
    rw [same] at replaced ⊢
    refine ⟨begins, file, entries, keptFile, ?_⟩
    rw [ended_replaced replaced]
    exact stored_written _
  · obtain ⟨error, same⟩ := withLock_stuck codec disk change begins
    rw [same] at replaced
    cases replaced

end Calls

section Steps

variable {Contents ι : Type} (codec : JsonCodec RecentsFile Contents)

/-- The entry stands first already, with the same data. -/
def AlreadyFirst (entry : RecentEntryInput) (entries : List RecentEntry) : Prop :=
  ∃ first ∈ entries.head?, dedupeMatches entry first = true ∧ refreshed entry first = first

def cleanInput (entry : RecentEntryInput) : RecentEntryInput :=
  { entry with displayName := cleanText entry.displayName, lastRemotePath := cleanText entry.lastRemotePath }

/-- What a call must meet: what writes nothing fails in an instance that has the entries of the file, and would have changed
nothing when it fails at the write; the ids of new endpoints are not used up; and no profile is forgotten that joins entries. -/
def Sound (s : RecentsWorld Contents ι) (input : ι × RecentsOp) : Prop :=
  let store := s.parties input.1
  let entries := stored codec s.cell
  match input.2 with
  | .openOrEmpty _ => True
  | .upsert faults entry =>
    if Begins faults store ∧ validEndpoint entry.host entry.port entry.username = true then
      (entries.find? (dedupeMatches entry) = none → ∀ old ∈ entries, old.id < maxU64) ∧
        (faults.write.replaced = false → AlreadyFirst (cleanInput entry) entries)
    else store.entries = entries
  | .forget faults id =>
    if Begins faults store then faults.write.replaced = false → ∀ old ∈ entries, old.id ≠ id else store.entries = entries
  | .forgetProfile faults profileId =>
    if Begins faults store then
      ¬Joins profileId entries ∧ (faults.write.replaced = false → ∀ old ∈ entries, old.profileId ≠ some profileId)
    else store.entries = entries

variable {codec}

theorem sound_upsert {s : RecentsWorld Contents ι} {i : ι} {faults : CallFaults} {entry : RecentEntryInput}
    (sound : Sound codec s (i, .upsert faults entry)) (begins : Begins faults (s.parties i))
    (valid : validEndpoint entry.host entry.port entry.username = true) :
    ((stored codec s.cell).find? (dedupeMatches entry) = none → ∀ old ∈ stored codec s.cell, old.id < maxU64) ∧
      (faults.write.replaced = false → AlreadyFirst (cleanInput entry) (stored codec s.cell)) := by
  unfold Sound at sound
  dsimp only at sound
  rw [if_pos ⟨begins, valid⟩] at sound
  exact sound

theorem sound_forgetProfile {s : RecentsWorld Contents ι} {i : ι} {faults : CallFaults} {profileId : Nat}
    (sound : Sound codec s (i, .forgetProfile faults profileId)) (begins : Begins faults (s.parties i)) :
    ¬Joins profileId (stored codec s.cell) ∧
      (faults.write.replaced = false → ∀ old ∈ stored codec s.cell, old.profileId ≠ some profileId) := by
  unfold Sound at sound
  dsimp only at sound
  rw [if_pos begins] at sound
  exact sound

theorem upsertEntry_front (store : RecentsStore) {entry : RecentEntryInput} (kept : KeptFile store.file)
    (room : store.file.entries.find? (dedupeMatches entry) = none → ∀ old ∈ store.file.entries, old.id < maxU64) :
    ∃ front others, (upsertEntry entry store).1.entries = front :: others ∧ others.length < maxEntries ∧
      FrontOf (cleanInput entry) front others store.file.entries := by
  have room' : store.file.entries.find? (dedupeMatches (cleanInput entry)) = none → ∀ old ∈ store.file.entries,
    old.id < maxU64 := room
  exact insertEntry_front kept room'

theorem upsert_valid {faults : CallFaults} {store : RecentsStore} {disk : Option Contents} {entry : RecentEntryInput}
    (valid : validEndpoint entry.host entry.port entry.username = true) :
    store.upsert codec faults disk entry = store.withLock codec faults disk (upsertEntry entry) := by
  unfold upsert withLock acquireWriteLock
  rw [if_pos valid]
  cases store.ensureWritable <;> rfl

theorem upsert_invalid (codec : JsonCodec RecentsFile Contents) (faults : CallFaults) (store : RecentsStore)
    (disk : Option Contents)
    {entry : RecentEntryInput} (invalid : ¬validEndpoint entry.host entry.port entry.username = true) :
    ∃ error, store.upsert codec faults disk entry = failed store disk error := by
  unfold upsert
  rw [if_neg invalid]
  cases store.ensureWritable with
  | error error => exact ⟨error, rfl⟩
  | ok _ => exact ⟨_, rfl⟩

theorem upsertEntry_kept {store : RecentsStore} {entry : RecentEntryInput} (kept : KeptFile store.file)
    (valid : validEndpoint entry.host entry.port entry.username = true)
    (room : store.file.entries.find? (dedupeMatches entry) = none → ∀ old ∈ store.file.entries, old.id < maxU64) :
    KeptFile (upsertEntry entry store).1.file := by
  obtain ⟨front, others, entries, few, first⟩ := upsertEntry_front store kept room
  have version : (upsertEntry entry store).1.file.version = store.file.version := by
    rw [← reconciled_file store]
    exact insertEntry_version ..
  exact kept_front kept version entries few first valid ⟨cleanText_cleanText _, cleanText_cleanText _⟩

theorem upsertEntry_same {store : RecentsStore} {entry : RecentEntryInput} (kept : KeptFile store.file)
    (first : AlreadyFirst (cleanInput entry) store.file.entries) : (upsertEntry entry store).1.entries = store.file.entries := by
  obtain ⟨front, head, same, unchanged⟩ := first
  obtain ⟨rest, split⟩ := List.head?_eq_some_iff.mp head
  have found : store.reconcileNextId.file.entries.find? (dedupeMatches (cleanInput entry)) = some front := by
    rw [reconciled_file, split, List.find?_cons_of_pos same]
  change (store.reconcileNextId.insertEntry (cleanInput entry)).file.entries = _
  unfold insertEntry
  simp only [found, unchanged]
  rw [reconciled_file, split, List.eraseP_cons_of_pos same, ← split]
  exact List.take_of_length_le kept.few

theorem forgetEntry_same {store : RecentsStore} {id : Nat} (none_ : ∀ old ∈ store.file.entries, old.id ≠ id) :
    (forgetEntry id store).1.entries = store.file.entries :=
  List.filter_eq_self.mpr fun old mem => decide_eq_true (none_ old mem)

theorem decoupleEntries_same {store : RecentsStore} {profileId : Nat}
    (none_ : ∀ old ∈ store.file.entries, old.profileId ≠ some profileId) :
    (decoupleEntries profileId store).1.entries = store.file.entries :=
  (List.map_congr_left fun old mem => if_neg (none_ old mem)).trans (List.map_id _)

theorem serve_kept {s : RecentsWorld Contents ι} (i : ι) (op : RecentsOp) (kept : Kept codec s.cell)
    (sound : Sound codec s (i, op)) :
    Kept codec (op.serve codec (s.parties i) s.cell).cell := by
  cases op with
  | openOrEmpty faults => exact kept
  | upsert faults entry =>
    change Kept codec ((s.parties i).upsert codec faults s.cell entry).cell
    by_cases valid : validEndpoint entry.host entry.port entry.username = true
    · rw [upsert_valid valid]
      apply withLock_kept kept
      intro begins file entries keptFile
      have room := (sound_upsert sound begins valid).1
      rw [entries] at room
      exact upsertEntry_kept keptFile valid room
    · obtain ⟨error, same⟩ := upsert_invalid codec faults (s.parties i) s.cell valid
      rw [same]
      exact kept
  | forget faults id =>
    apply withLock_kept kept
    intro _ file _ keptFile
    exact keptFile.shorter rfl List.filter_sublist
  | forgetProfile faults profileId =>
    apply withLock_kept kept
    intro begins file entries keptFile
    have apart := (sound_forgetProfile sound begins).1
    rw [entries] at apart
    exact kept_decoupled keptFile apart

theorem serve_truthful {s : RecentsWorld Contents ι} (i : ι) (op : RecentsOp) (kept : Kept codec s.cell)
    (sound : Sound codec s (i, op)) : Truthful codec (op.serve codec (s.parties i) s.cell) := by
  unfold Sound at sound
  dsimp only at sound
  cases op with
  | openOrEmpty faults =>
    intro error never
    cases never
  | upsert faults entry =>
    change Truthful codec ((s.parties i).upsert codec faults s.cell entry)
    dsimp only at sound
    by_cases valid : validEndpoint entry.host entry.port entry.username = true
    · rw [upsert_valid valid]
      apply withLock_truthful kept
      · intro stuck
        rw [if_neg fun both => stuck both.1] at sound
        exact sound
      · intro begins missed file entries keptFile _
        rw [if_pos ⟨begins, valid⟩, entries] at sound
        exact upsertEntry_same keptFile (sound.2 missed)
    · obtain ⟨error, same⟩ := upsert_invalid codec faults (s.parties i) s.cell valid
      rw [if_neg fun both => valid both.2] at sound
      rw [same]
      intro _ _ _
      exact sound
  | forget faults id =>
    dsimp only at sound
    apply withLock_truthful kept
    · intro stuck
      rw [if_neg stuck] at sound
      exact sound
    · intro begins missed file entries _ _
      rw [if_pos begins, entries] at sound
      exact forgetEntry_same (sound missed)
  | forgetProfile faults profileId =>
    dsimp only at sound
    apply withLock_truthful kept
    · intro stuck
      rw [if_neg stuck] at sound
      exact sound
    · intro begins missed file entries _ _
      rw [if_pos begins, entries] at sound
      exact decoupleEntries_same (sound.2 missed)

end Steps

section Order

variable {Contents ι : Type} {codec : JsonCodec RecentsFile Contents}

/-- The entry that a call has put first in the file. -/
def upsertedId (codec : JsonCodec RecentsFile Contents) (s : RecentsWorld Contents ι) (input : ι × RecentsOp) : Option Nat :=
  match input.2 with
  | .upsert faults entry =>
    let called := (s.parties input.1).upsert codec faults s.cell entry
    if called.answer.replaced then ((stored codec called.cell).find? (dedupeMatches entry)).map RecentEntry.id else none
  | _ => none

def storedIds (codec : JsonCodec RecentsFile Contents) (disk : Option Contents) : List Nat := (stored codec disk).map RecentEntry.id

theorem withLock_fewer {faults : CallFaults} {store : RecentsStore} {disk : Option Contents}
    {change : RecentsStore → RecentsStore × RecentsAnswer × Bool} (kept : Kept codec disk)
    (fewer : ∀ file, ((change { store with file := file }).1.entries.map RecentEntry.id).Sublist
        (file.entries.map RecentEntry.id)) :
    (storedIds codec (store.withLock codec faults disk change).cell).Sublist (storedIds codec disk) := by
  unfold storedIds
  cases replaced : (store.withLock codec faults disk change).answer.replaced with
  | false => rw [withLock_left kept replaced]
  | true =>
    obtain ⟨-, file, entries, -, after⟩ := withLock_replaced kept replaced
    rw [entries, after]
    exact fewer file

theorem serve_fewer {s : RecentsWorld Contents ι} {i : ι} {op : RecentsOp} (kept : Kept codec s.cell)
    (none_ : upsertedId codec s (i, op) = none) (sound : Sound codec s (i, op)) :
    (storedIds codec (op.serve codec (s.parties i) s.cell).cell).Sublist (storedIds codec s.cell) := by
  cases op with
  | openOrEmpty faults => exact List.Sublist.refl _
  | forget faults id => exact withLock_fewer kept fun file => List.filter_sublist.map _
  | forgetProfile faults profileId =>
    apply withLock_fewer kept
    intro file
    change ((file.entries.map (decouple profileId)).map RecentEntry.id).Sublist _
    rw [List.map_map]
    exact (List.map_congr_left fun entry _ => decouple_id profileId entry) ▸ List.Sublist.refl _
  | upsert faults entry =>
    change (storedIds codec ((s.parties i).upsert codec faults s.cell entry).cell).Sublist _
    by_cases valid : validEndpoint entry.host entry.port entry.username = true
    · unfold upsertedId at none_
      dsimp only at none_
      rw [upsert_valid valid] at none_ ⊢
      cases replaced : ((s.parties i).withLock codec faults s.cell (upsertEntry entry)).answer.replaced with
      | false => rw [withLock_left kept replaced]
      | true =>
        obtain ⟨begins, file, entries, keptFile, after⟩ := withLock_replaced kept replaced
        have room := (sound_upsert sound begins valid).1
        rw [entries] at room
        obtain ⟨front, others, split, -, first⟩ := upsertEntry_front { s.parties i with file := file } keptFile room
        have named : dedupeMatches entry front = true := dedupeMatches_iff.mpr first.named
        rw [if_pos replaced, after, split, List.find?_cons_of_pos named] at none_
        cases none_
    · obtain ⟨error, same⟩ := upsert_invalid codec faults (s.parties i) s.cell valid
      rw [same]
      exact List.Sublist.refl _

theorem serve_first {s : RecentsWorld Contents ι} {i : ι} {op : RecentsOp} {id : Nat} (kept : Kept codec s.cell)
    (put : upsertedId codec s (i, op) = some id) (sound : Sound codec s (i, op)) :
    ∃ rest, storedIds codec (op.serve codec (s.parties i) s.cell).cell = id :: rest ∧ rest.Sublist (storedIds codec s.cell) ∧
      id ∉ rest := by
  cases op with
  | openOrEmpty faults => cases put
  | forget faults id => cases put
  | forgetProfile faults profileId => cases put
  | upsert faults entry =>
    unfold upsertedId at put
    dsimp only at put
    split at put
    case isFalse => cases put
    case isTrue replaced =>
      have valid : validEndpoint entry.host entry.port entry.username = true := by
        by_contra invalid
        obtain ⟨error, same⟩ := upsert_invalid codec faults (s.parties i) s.cell invalid
        rw [same] at replaced
        cases replaced
      change ∃ rest, storedIds codec ((s.parties i).upsert codec faults s.cell entry).cell = id :: rest ∧ _
      rw [upsert_valid valid] at replaced put ⊢
      obtain ⟨begins, file, entries, keptFile, after⟩ := withLock_replaced kept replaced
      have room := (sound_upsert sound begins valid).1
      rw [entries] at room
      obtain ⟨front, others, split, -, first⟩ := upsertEntry_front { s.parties i with file := file } keptFile room
      have named : dedupeMatches entry front = true := dedupeMatches_iff.mpr first.named
      rw [after, split, List.find?_cons_of_pos named] at put
      cases put
      refine ⟨others.map RecentEntry.id, ?_, ?_, first.newId⟩
      · rw [storedIds, after, split, List.map_cons]
      · rw [storedIds, entries]
        exact first.stored.map RecentEntry.id

theorem serve_order {s : RecentsWorld Contents ι} {i : ι} {op : RecentsOp} {history : List Nat} (kept : Kept codec s.cell)
    (sound : Sound codec s (i, op)) (order : (storedIds codec s.cell).Sublist (recency history)) :
    (storedIds codec (op.serve codec (s.parties i) s.cell).cell).Sublist
      (recency (history ++ (upsertedId codec s (i, op)).toList)) := by
  cases put : upsertedId codec s (i, op) with
  | none =>
    rw [Option.toList_none, List.append_nil]
    exact (serve_fewer kept put sound).trans order
  | some id =>
    obtain ⟨rest, ids, older, new⟩ := serve_first kept put sound
    rw [Option.toList_some, recency_concat, ids]
    exact cons_sublist_toFront (older.trans order) new

/-- What the file keeps: few entries, with keys and ids of their own, the one put first last before the others. -/
structure RecentsKept (codec : JsonCodec RecentsFile Contents) (history : List Nat) (disk : Option Contents) : Prop where
  few : (stored codec disk).length ≤ maxEntries
  keys : ((stored codec disk).map key).Nodup
  ids : (storedIds codec disk).Nodup
  order : (storedIds codec disk).Sublist (recency history)

theorem recentsKept_of {history : List Nat} {disk : Option Contents} (kept : Kept codec disk)
    (order : (storedIds codec disk).Sublist (recency history)) : RecentsKept codec history disk := by
  obtain ⟨file, -, entries, keptFile⟩ := load_kept kept ""
  constructor
  · rw [entries]
    exact keptFile.few
  · rw [entries]
    exact keptFile.keys
  · rw [storedIds, entries]
    exact keptFile.ids
  · exact order

variable [DecidableEq ι]

theorem run_kept {s : RecentsWorld Contents ι} {inputs : List (ι × RecentsOp)} (start : EmptyFile codec s.cell)
    (sound : (recentsMachine codec).Admissible (Sound codec) s inputs) :
    Kept codec ((recentsMachine codec).run s inputs).cell ∧
      (storedIds codec ((recentsMachine codec).run s inputs).cell).Sublist
        (recency ((recentsMachine codec).collect (upsertedId codec) s inputs)) := by
  induction inputs using List.reverseRecOn with
  | nil =>
    refine ⟨kept_start start, ?_⟩
    have none_ : stored codec s.cell = [] := by
      cases disk : s.cell with
      | none => rfl
      | some contents => simp only [stored, start contents disk, RecentsFile.empty]
    change ((stored codec s.cell).map RecentEntry.id).Sublist _
    rw [none_]
    exact List.nil_sublist _
  | append_singleton inputs input ih =>
    obtain ⟨before, last, -⟩ := ((recentsMachine codec).admissible_append s inputs [input]).mp sound
    obtain ⟨kept, order⟩ := ih before
    rw [Machine.run_concat, Machine.collect_concat]
    exact ⟨serve_kept input.1 input.2 kept last, serve_order kept last order⟩

/-- The recent connections over any run of any number of instances whose calls meet the condition. -/
theorem recents_kept (codec : JsonCodec RecentsFile Contents) (s : RecentsWorld Contents ι) (inputs : List (ι × RecentsOp))
    (start : EmptyFile codec s.cell) (sound : (recentsMachine codec).Admissible (Sound codec) s inputs) :
    RecentsKept codec ((recentsMachine codec).collect (upsertedId codec) s inputs) ((recentsMachine codec).run s inputs).cell ∧
      ∀ before i op after, inputs = before ++ (i, op) :: after →
        Truthful codec (op.serve codec (((recentsMachine codec).run s before).parties i)
            ((recentsMachine codec).run s before).cell) := by
  constructor
  · obtain ⟨kept, order⟩ := run_kept start sound
    exact recentsKept_of kept order
  · rintro before i op after rfl
    obtain ⟨earlier, now, -⟩ := ((recentsMachine codec).admissible_append s before ((i, op) :: after)).mp sound
    exact serve_truthful i op (run_kept start earlier).1 now

end Order

section Examples

instance decidableAlreadyFirst (entry : RecentEntryInput) (entries : List RecentEntry) : Decidable (AlreadyFirst entry entries) :=
  inferInstanceAs (Decidable (∃ first ∈ entries.head?, _))

instance decidableSound {Contents ι : Type} (codec : JsonCodec RecentsFile Contents) (s : RecentsWorld Contents ι) :
    (input : ι × RecentsOp) → Decidable (Sound codec s input)
  | (_, .openOrEmpty _) => isTrue trivial
  | (_, .upsert _ _) => by
    dsimp only [Sound]
    infer_instance
  | (_, .forget _ _) => by
    dsimp only [Sound]
    infer_instance
  | (_, .forgetProfile _ _) => by
    dsimp only [Sound]
    infer_instance

/-- Two instances that have just been opened on a file that does not exist. -/
def twoInstances : RecentsWorld RecentsFile Bool where
  cell := none
  parties := fun _ => .openOrEmpty (.plain RecentsFile) "recents.json" none none

def connected (host : String) (profileId : Option Nat) (lastConnectedAt : Nat) : RecentEntryInput :=
  ⟨host, 22, "alex", profileId, some host, none, lastConnectedAt⟩

def twoHosts : List (Bool × RecentsOp) :=
  [(false, .upsert {} (connected "a.example" none 1)), (true, .upsert {} (connected "b.example" (some 7) 2)),
    (false, .forgetProfile {} 7), (true, .upsert {} (connected "a.example" none 3)), (false, .forget {} 2)]

theorem recents_kept_two_hosts :
    (recentsMachine (.plain RecentsFile)).Admissible (Sound (.plain RecentsFile)) twoInstances twoHosts ∧
      RecentsKept (.plain RecentsFile)
        ((recentsMachine (.plain RecentsFile)).collect (upsertedId (.plain RecentsFile)) twoInstances twoHosts)
        ((recentsMachine (.plain RecentsFile)).run twoInstances twoHosts).cell := by
  have sound : (recentsMachine (.plain RecentsFile)).Admissible (Sound (.plain RecentsFile)) twoInstances twoHosts := by
    decide +kernel
  exact ⟨sound, (recents_kept (.plain RecentsFile) twoInstances twoHosts (fun _ never => nomatch never) sound).1⟩

/-- One host by hand and through a profile that is then deleted. -/
def joined : List (Bool × RecentsOp) :=
  [(false, .upsert {} (connected "a.example" (some 7) 1)), (false, .upsert {} (connected "a.example" none 2)),
    (false, .forgetProfile {} 7)]

/-- An upsert that fails before the rename. -/
def unwritten : RecentsOp := .upsert { write := .notCommitted "disk full" } (connected "a.example" none 1)

theorem recents_joined_and_misreported :
    (¬∀ inputs, RecentsKept (.plain RecentsFile)
        ((recentsMachine (.plain RecentsFile)).collect (upsertedId (.plain RecentsFile)) twoInstances inputs)
        ((recentsMachine (.plain RecentsFile)).run twoInstances inputs).cell) ∧
      ¬∀ op : RecentsOp, Truthful (.plain RecentsFile)
          (op.serve (.plain RecentsFile) (twoInstances.parties false) twoInstances.cell) := by
  constructor
  · intro every
    exact absurd (every joined).keys (by decide +kernel)
  · intro every
    exact absurd (every unwritten (.io "recents.json" "disk full") rfl rfl) (by decide +kernel)

end Examples

end MacSftp.Recents
