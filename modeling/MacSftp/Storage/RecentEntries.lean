import MacSftp.Lib.Recency
import MacSftp.Storage.Recents

namespace MacSftp.Recents

open Lib RecentsStore

/-- By this an entry is recognised when its endpoint is connected to again. -/
def key (entry : RecentEntry) : String × Nat × String × Option Nat := (entry.host, entry.port, entry.username, entry.profileId)

def inputKey (entry : RecentEntryInput) : String × Nat × String × Option Nat :=
  (entry.host, entry.port, entry.username, entry.profileId)

/-- What a file written by a store looks like. -/
structure KeptFile (file : RecentsFile) : Prop where
  version : file.version = RecentsFile.currentVersion
  clean : ∀ entry ∈ file.entries, validEndpoint entry.host entry.port entry.username = true ∧ RecentsFile.cleanEntry entry = entry
  few : file.entries.length ≤ maxEntries
  keys : (file.entries.map key).Nodup
  ids : (file.entries.map RecentEntry.id).Nodup

theorem kept_empty : KeptFile .empty := ⟨rfl, fun _ never => (nomatch never), Nat.zero_le _, .nil, .nil⟩

theorem KeptFile.shorter {file shorter : RecentsFile} (kept : KeptFile file) (version : shorter.version = file.version)
    (sub : shorter.entries.Sublist file.entries) : KeptFile shorter where
  version := version.trans kept.version
  clean := fun entry mem => kept.clean entry (sub.subset mem)
  few := sub.length_le.trans kept.few
  keys := kept.keys.sublist (sub.map key)
  ids := kept.ids.sublist (sub.map RecentEntry.id)

theorem cleanText_cleanText (text : Option String) : cleanText (cleanText text) = cleanText text := by
  cases text with
  | none => rfl
  | some text =>
    by_cases bad : text.toList.any isBidiOrControl = true <;> simp [cleanText, Option.filter, bad]

theorem dedupeMatches_iff {entry : RecentEntryInput} {existing : RecentEntry} :
    dedupeMatches entry existing = true ↔ key existing = inputKey entry := by
  simp [dedupeMatches, key, inputKey, and_assoc]

theorem find_split {α : Type} {p : α → Bool} {xs : List α} {x : α} (found : xs.find? p = some x) :
    ∃ before after, xs = before ++ x :: after ∧ xs.eraseP p = before ++ after := by
  obtain ⟨holds, before, after, rfl, earlier⟩ := List.find?_eq_some_iff_append.mp found
  refine ⟨before, after, rfl, ?_⟩
  rw [List.eraseP_append_right _ (fun y mem => by simpa using earlier y mem), List.eraseP_cons_of_pos holds]

section Insert

variable {store : RecentsStore}

theorem reconciled_file (store : RecentsStore) : store.reconcileNextId.file = store.file := by
  dsimp only [reconcileNextId]
  split <;> rfl

theorem le_highestId {entries : List RecentEntry} {entry : RecentEntry} (mem : entry ∈ entries) :
    entry.id ≤ (highestId entries).getD 0 := by
  have inside : entry.id ∈ entries.map RecentEntry.id := List.mem_map.mpr ⟨entry, mem, rfl⟩
  cases top : highestId entries with
  | none =>
    rw [List.max?_eq_none_iff.mp top] at inside
    cases inside
  | some highest => exact (List.max?_le_iff top).mp le_rfl _ inside

/-- Below the last number the next id is above every stored one. -/
theorem reconciled_above (room : ∀ entry ∈ store.file.entries, entry.id < maxU64) :
    ∀ entry ∈ store.file.entries, entry.id < store.reconcileNextId.nextId := by
  intro entry mem
  have below := le_highestId mem
  dsimp only [reconcileNextId]
  split
  case isFalse above => omega
  case isTrue =>
    have top : (highestId store.file.entries).getD 0 < maxU64 := by
      cases highest : highestId store.file.entries with
      | none => decide
      | some id =>
        obtain ⟨last, inside, rfl⟩ := List.mem_map.mp (List.max?_mem highest)
        exact room last inside
    change entry.id < min _ _
    omega

/-- The entry comes first, before others that were stored and are not the same. -/
structure FrontOf (entry : RecentEntryInput) (front : RecentEntry) (others entries : List RecentEntry) : Prop where
  named : key front = inputKey entry
  texts : front.displayName = entry.displayName ∧ front.lastRemotePath = entry.lastRemotePath
  stored : others.Sublist entries
  newKey : key front ∉ others.map key
  newId : front.id ∉ others.map RecentEntry.id

theorem insertEntry_found {entry : RecentEntryInput} {existing : RecentEntry} (kept : KeptFile store.file)
    (found : store.file.entries.find? (dedupeMatches entry) = some existing) :
    FrontOf entry (refreshed entry existing) (store.file.entries.eraseP (dedupeMatches entry)) store.file.entries := by
  have same := dedupeMatches_iff.mp (List.find?_some found)
  obtain ⟨before, after, split, erased⟩ := find_split found
  have keys := kept.keys
  have ids := kept.ids
  rw [split, List.map_append, List.map_cons, List.nodup_middle, List.nodup_cons, ← List.map_append] at keys ids
  refine ⟨same, ⟨rfl, rfl⟩, List.eraseP_sublist .., ?_, ?_⟩
  · rw [erased]
    exact keys.1
  · rw [erased]
    exact ids.1

theorem insertEntry_fresh {entry : RecentEntryInput} {id : Nat} {entries : List RecentEntry}
    (none_ : entries.find? (dedupeMatches entry) = none) (above : ∀ entry ∈ entries, entry.id < id) :
    FrontOf entry (numbered entry id) entries entries := by
  refine ⟨rfl, ⟨rfl, rfl⟩, List.Sublist.refl _, ?_, ?_⟩
  · intro mem
    obtain ⟨other, inside, same⟩ := List.mem_map.mp mem
    exact absurd (dedupeMatches_iff.mpr same) (List.find?_eq_none.mp none_ other inside)
  · intro mem
    obtain ⟨other, inside, same⟩ := List.mem_map.mp mem
    exact absurd same (Nat.ne_of_lt (above other inside))

theorem FrontOf.cut {entry : RecentEntryInput} {front : RecentEntry} {others entries : List RecentEntry}
    (first : FrontOf entry front others entries) (n : Nat) : FrontOf entry front (others.take n) entries where
  named := first.named
  texts := first.texts
  stored := (List.take_sublist n others).trans first.stored
  newKey := fun mem => first.newKey (((List.take_sublist n others).map key).subset mem)
  newId := fun mem => first.newId (((List.take_sublist n others).map RecentEntry.id).subset mem)

/-- What an upsert makes of the entries. A new endpoint needs a number that is left. -/
theorem insertEntry_front {entry : RecentEntryInput} (kept : KeptFile store.file)
    (room : store.file.entries.find? (dedupeMatches entry) = none → ∀ stored ∈ store.file.entries, stored.id < maxU64) :
    ∃ front others, (store.reconcileNextId.insertEntry entry).file.entries = front :: others ∧ others.length < maxEntries ∧
      FrontOf entry front others store.file.entries := by
  unfold insertEntry
  rw [reconciled_file]
  cases found : store.file.entries.find? (dedupeMatches entry) with
  | some existing =>
    refine ⟨_, _, List.take_succ_cons, ?_, (insertEntry_found kept found).cut _⟩
    exact Nat.lt_succ_of_le (List.length_take_le ..)
  | none =>
    refine ⟨_, _, List.take_succ_cons, ?_, (insertEntry_fresh found (reconciled_above (room found))).cut _⟩
    exact Nat.lt_succ_of_le (List.length_take_le ..)

theorem insertEntry_version (entry : RecentEntryInput) (store : RecentsStore) :
    (store.insertEntry entry).file.version = store.file.version := by
  unfold insertEntry
  split <;> rfl

theorem kept_front {entry : RecentEntryInput} {front : RecentEntry} {others : List RecentEntry} {file changed : RecentsFile}
    (kept : KeptFile file) (version : changed.version = file.version) (entries : changed.entries = front :: others)
    (few : others.length < maxEntries) (first : FrontOf entry front others file.entries)
    (valid : validEndpoint entry.host entry.port entry.username = true)
    (clean : cleanText entry.displayName = entry.displayName ∧ cleanText entry.lastRemotePath = entry.lastRemotePath) :
    KeptFile changed := by
  have rest : KeptFile ⟨file.version, others⟩ := kept.shorter rfl first.stored
  constructor
  · exact version.trans kept.version
  · rw [entries]
    intro stored mem
    rcases List.mem_cons.mp mem with rfl | old
    · have named := first.named
      simp only [key, inputKey, Prod.mk.injEq] at named
      rw [named.1, named.2.1, named.2.2.1]
      refine ⟨valid, ?_⟩
      unfold RecentsFile.cleanEntry
      rw [first.texts.1, first.texts.2, clean.1, clean.2, ← first.texts.1, ← first.texts.2]
    · exact rest.clean stored old
  · rw [entries]
    exact few
  · rw [entries]
    exact List.nodup_cons.mpr ⟨first.newKey, rest.keys⟩
  · rw [entries]
    exact List.nodup_cons.mpr ⟨first.newId, rest.ids⟩

end Insert

section Decouple

/-- Two entries of one endpoint, one linked to the profile and the other to none. -/
def Joins (profileId : Nat) (entries : List RecentEntry) : Prop :=
  ∃ linked ∈ entries, ∃ manual ∈ entries, linked.profileId = some profileId ∧ manual.profileId = none ∧
    linked.host = manual.host ∧ linked.port = manual.port ∧ linked.username = manual.username

instance decidableJoins (profileId : Nat) (entries : List RecentEntry) : Decidable (Joins profileId entries) :=
  inferInstanceAs (Decidable (∃ linked ∈ entries, _))

theorem decouple_id (profileId : Nat) (entry : RecentEntry) : (decouple profileId entry).id = entry.id := by
  unfold decouple
  split <;> rfl

theorem decouple_key_inj {profileId : Nat} {entries : List RecentEntry} (keys : (entries.map key).Nodup)
    (apart : ¬Joins profileId entries) {a b : RecentEntry} (inA : a ∈ entries) (inB : b ∈ entries)
    (same : key (decouple profileId a) = key (decouple profileId b)) : a = b := by
  have unique : ∀ {x y}, x ∈ entries → y ∈ entries → key x = key y → x = y := fun inX inY =>
    List.inj_on_of_nodup_map keys inX inY
  unfold decouple at same
  split_ifs at same with linkedA linkedB linkedB
  · apply unique inA inB
    simp only [key, Prod.mk.injEq] at same ⊢
    exact ⟨same.1, same.2.1, same.2.2.1, linkedA.trans linkedB.symm⟩
  · simp only [key, Prod.mk.injEq] at same
    exact absurd ⟨a, inA, b, inB, linkedA, same.2.2.2.symm, same.1, same.2.1, same.2.2.1⟩ apart
  · simp only [key, Prod.mk.injEq] at same
    exact absurd ⟨b, inB, a, inA, linkedB, same.2.2.2, same.1.symm, same.2.1.symm, same.2.2.1.symm⟩ apart
  · exact unique inA inB same

theorem kept_decoupled {profileId : Nat} {file : RecentsFile} (kept : KeptFile file) (apart : ¬Joins profileId file.entries) :
    KeptFile { file with entries := file.entries.map (decouple profileId) } where
  version := kept.version
  clean := by
    intro entry mem
    obtain ⟨old, inside, rfl⟩ := List.mem_map.mp mem
    obtain ⟨valid, clean⟩ := kept.clean old inside
    unfold decouple
    split
    · exact ⟨valid, congrArg (fun entry : RecentEntry => { entry with profileId := none }) clean⟩
    · exact ⟨valid, clean⟩
  few := (List.length_map _).trans_le kept.few
  keys := by
    rw [List.map_map]
    exact List.Nodup.map_on (fun a inA b inB => decouple_key_inj kept.keys apart inA inB) (List.Nodup.of_map key kept.keys)
  ids := by
    have same : RecentEntry.id ∘ decouple profileId = RecentEntry.id := by
      funext entry
      exact decouple_id profileId entry
    rw [List.map_map, same]
    exact kept.ids

end Decouple

end MacSftp.Recents
