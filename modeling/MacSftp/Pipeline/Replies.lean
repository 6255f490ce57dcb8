import MacSftp.Pipeline.Requests
import Mathlib.Data.List.Perm.Basic

namespace MacSftp

open Lib

namespace PipelinedDownloadReader

variable {words : Words} {r : PipelinedDownloadReader} {s s' : ReaderState} {chunk : Range} {data : List UInt8}

def taken (s : ReaderState) (index : Nat) : ReaderState := { s with inFlight := s.inFlight.eraseIdx index }

theorem taken_perm {index : Nat} (h : s.inFlight[index]? = some chunk) :
    s.inFlight.Perm (chunk :: (taken s index).inFlight) := by
  obtain ⟨below, rfl⟩ := List.getElem?_eq_some_iff.mp h
  exact (List.getElem_cons_eraseIdx_perm below).symm

theorem pieces_taken {index : Nat} (h : s.inFlight[index]? = some chunk) :
    (pieces [] s).Perm (pieces [chunk] (taken s index)) := by
  have moved : (s.retryRanges ++ (chunk :: (taken s index).inFlight) ++ s.destination.writes).Perm
      ([chunk] ++ s.retryRanges ++ (taken s index).inFlight ++ s.destination.writes) := by
    refine List.Perm.append_right _ ?_
    rw [← List.singleton_append, ← List.append_assoc]
    exact List.Perm.append_right _ List.perm_append_comm
  exact List.Perm.trans (List.Perm.append_right _ (List.Perm.append_left _ (taken_perm h))) moved

theorem Bounded.taken {limit : Nat} (b : r.Bounded limit s) (index : Nat) : r.Bounded limit (taken s index) where
  queued := b.queued
  flying x hx := b.flying x (List.eraseIdx_subset hx)
  sent := b.sent
  window := (List.length_eraseIdx_le _ _).trans b.window
  next_le := b.next_le

/-- What `received` bytes of a requested chunk leave to be asked for again. -/
def rest (chunk : Range) (received : Nat) : Range := ⟨chunk.start + received, chunk.length - received⟩

theorem receive_cases {limit : Nat} (small : limit < 2 ^ 64) (asked : r.Asked limit chunk)
    (within : ∀ total, r.bytesTotal = some total → chunk.stop ≤ total)
    (h : r.receive words s chunk data = .ok s') :
    data = [] ∧ s' = { s with eofReached := true } ∧ r.bytesTotal = none ∨
    data ≠ [] ∧ data.length < chunk.length ∧ s' = { s with retryRanges := s.retryRanges ++ [rest chunk data.length] } ∨
    chunk.length ≤ data.length ∧ s' = s := by
  have positive := asked.pos
  have stop : chunk.start + chunk.length ≤ limit := asked.stop
  unfold receive at h
  simp only at h
  split at h
  · rename_i empty
    have empty := List.length_eq_zero_iff.mp empty
    split at h
    · cases h
      exact Or.inl ⟨empty, rfl, ‹_›⟩
    · rename_i total known
      have below := within total known
      have ends : chunk.stop = chunk.start + chunk.length := rfl
      rw [if_pos (by omega)] at h
      cases h
  · rename_i some_
    have some_ : data ≠ [] := fun empty => some_ (by rw [empty, List.length_nil])
    split at h
    · rename_i short
      have requestedEnd : words.add chunk.start chunk.length = chunk.start + chunk.length :=
        words.add_eq _ _ (by omega)
      have receivedEnd : words.add chunk.start data.length = chunk.start + data.length :=
        words.add_eq _ _ (by omega)
      have missingEnd : r.bytesTotal.elim (chunk.start + chunk.length) (min (chunk.start + chunk.length)) =
          chunk.start + chunk.length := by
        cases known : r.bytesTotal with
        | none => rfl
        | some total => exact Nat.min_eq_left (within total known)
      have cast : words.u32 (chunk.start + chunk.length - (chunk.start + data.length)) =
          chunk.length - data.length := by
        have chunkBound := asked.chunk
        have wordBound := r.chunk_lt
        rw [Nat.add_sub_add_left]
        exact words.u32_eq _ (by omega)
      rw [requestedEnd, receivedEnd, missingEnd, cast, if_pos (by omega)] at h
      cases h
      exact Or.inr (Or.inl ⟨some_, short, rfl⟩)
    · cases h
      exact Or.inr (Or.inr ⟨by omega, rfl⟩)

theorem rest_asked {next : Nat} (asked : r.Asked next chunk) {received : Nat} (short : received < chunk.length) :
    r.Asked next (rest chunk received) := by
  have chunkBound := asked.chunk
  have stop : chunk.start + chunk.length ≤ next := asked.stop
  refine ⟨?_, ?_, ?_⟩
  · simp only [rest]
    omega
  · simp only [rest]
    omega
  · simp only [rest, Range.stop]
    omega

theorem Bounded.receive {limit : Nat} (small : limit < 2 ^ 64) (b : r.Bounded limit s)
    (asked : r.Asked s.nextRequestOffset chunk) (within : ∀ total, r.bytesTotal = some total → chunk.stop ≤ total)
    (h : r.receive words s chunk data = .ok s') : r.Bounded limit s' := by
  rcases receive_cases small (asked.mono b.next_le) within h with ⟨_, rfl, _⟩ | ⟨_, short, rfl⟩ | ⟨_, rfl⟩
  · exact ⟨b.queued, b.flying, b.sent, b.window, b.next_le⟩
  · refine ⟨?_, b.flying, b.sent, b.window, b.next_le⟩
    intro x hx
    rcases List.mem_append.mp hx with old | new
    · exact b.queued x old
    · rw [List.mem_singleton.mp new]
      exact rest_asked asked short
  · exact b

theorem pieces_rest (held : Range) (tail : Range) :
    (pieces [held] { s with retryRanges := s.retryRanges ++ [tail] }).Perm (tail :: pieces [held] s) := by
  have moved : ([held] ++ s.retryRanges ++ ([tail] ++ (s.inFlight ++ s.destination.writes))).Perm
      ([tail] ++ ([held] ++ s.retryRanges ++ (s.inFlight ++ s.destination.writes))) := List.perm_append_comm_assoc _ _ _
  simpa [pieces] using moved

/-- The stretch that the received bytes cover. -/
def arrived (chunk : Range) (data : List UInt8) : Range := ⟨chunk.start, data.length⟩

theorem pieces_held (held : Range) : pieces [held] s = held :: pieces [] s := by simp [pieces]

theorem Exactly.receive {limit size : Nat} (small : limit < 2 ^ 64) (e : Exactly size [chunk] s)
    (asked : r.Asked limit chunk) (within : ∀ total, r.bytesTotal = some total → chunk.stop ≤ total)
    (fits : data.length ≤ chunk.length) (dry : data = [] → size ≤ chunk.start)
    (h : r.receive words s chunk data = .ok s') : Exactly size [arrived chunk data] s' := by
  rcases receive_cases small asked within h with ⟨empty, rfl, _⟩ | ⟨_, short, rfl⟩ | ⟨long, rfl⟩
  · refine ⟨fun i hi => ?_, e.inside, e.cursor⟩
    have before := e.once i hi
    have beyond := dry empty
    rw [pieces_held, hits_cons, if_neg (by simp only [Range.Covers]; omega)] at before
    show hits (pieces [arrived chunk data] s) i + (if s.nextRequestOffset ≤ i then 1 else 0) = 1
    rw [pieces_held, hits_cons, if_neg (by simp only [Range.Covers, arrived]; omega)]
    exact before
  · refine ⟨fun i hi => ?_, e.inside, e.cursor⟩
    have before := e.once i hi
    have split := hits_split chunk.start short.le i
    rw [pieces_held, hits_head, split] at before
    show hits (pieces _ _) i + (if s.nextRequestOffset ≤ i then 1 else 0) = 1
    rw [hits_perm (pieces_rest _ _), hits_head, pieces_held, hits_head (arrived chunk data)]
    simp only [rest, arrived]
    omega
  · have same : arrived chunk data = chunk := by
      have length : data.length = chunk.length := le_antisymm fits long
      rw [arrived, length]
    rw [same]
    exact e

theorem within_size {size : Nat} (known : r.bytesTotal = some size) (asked : r.Asked size chunk) :
    ∀ total, r.bytesTotal = some total → chunk.stop ≤ total := by
  intro total same
  rw [known] at same
  cases same
  exact asked.stop

/-- An empty reply below the size ends the download. -/
theorem receive_nonempty {size : Nat} (known : r.bytesTotal = some size) (asked : r.Asked size chunk)
    (h : r.receive words s chunk data = .ok s') : data ≠ [] := by
  rintro rfl
  rcases receive_cases (r.total_lt size known) asked (within_size known asked) h with
    ⟨_, _, unknown⟩ | ⟨some_, _⟩ | ⟨long, _⟩
  · rw [known] at unknown
    cases unknown
  · exact some_ rfl
  · have positive := asked.pos
    rw [List.length_nil] at long
    omega

/-- A reply longer than its request is the only thing that adds to the sum. -/
theorem owed_receive {size : Nat} (known : r.bytesTotal = some size) (asked : r.Asked size chunk)
    (h : r.receive words s chunk data = .ok s') :
    owed size [arrived chunk data] s' = owed size [chunk] s + (data.length - chunk.length) := by
  unfold owed
  rcases receive_cases (r.total_lt size known) asked (within_size known asked) h with
    ⟨_, _, unknown⟩ | ⟨_, short, rfl⟩ | ⟨long, rfl⟩
  · rw [known] at unknown
    cases unknown
  · rw [total_perm (pieces_rest _ _), total_cons, pieces_held, total_cons, pieces_held, total_cons]
    simp only [rest, arrived]
    omega
  · rw [pieces_held, total_cons, pieces_held, total_cons]
    simp only [arrived]
    omega

theorem Account.receive {size : Nat} (known : r.bytesTotal = some size) (a : Account size [chunk] s)
    (asked : r.Asked size chunk) (h : r.receive words s chunk data = .ok s') : Account size [arrived chunk data] s' := by
  have due := a.due
  have owing := owed_receive known asked h
  refine ⟨by omega, fun balanced => ?_⟩
  have fits : data.length ≤ chunk.length := by omega
  have stop : chunk.start + chunk.length ≤ size := asked.stop
  refine ⟨(a.tight (by omega)).1.receive (r.total_lt size known) asked (within_size known asked) fits ?_ h, ?_⟩
  · exact fun empty => absurd empty (receive_nonempty known asked h)
  · intro x hx
    rw [List.mem_singleton.mp hx]
    show chunk.start + data.length ≤ size
    omega

/-- The destination with its cursor at the chunk. -/
def aimed (s : ReaderState) (chunk : Range) : Destination :=
  if s.currentOffset = some chunk.start then s.destination else s.destination.seek chunk.start

theorem store_cases (words : Words) (s : ReaderState) (chunk : Range) (data : List UInt8) (disk : DiskOutcome) :
    data = [] ∧ store words s chunk data disk = .running s ∨
    data ≠ [] ∧ (store words s chunk data disk = .running (stored words s chunk data (aimed s chunk)) ∨
      ∃ s' error, store words s chunk data disk = .ended s' (.error error) ∧ s'.requests = s.requests) := by
  unfold store
  split
  · exact Or.inl ⟨‹_›, rfl⟩
  rename_i some_
  refine Or.inr ⟨some_, ?_⟩
  have aim : (if decide (s.currentOffset ≠ some chunk.start) = true then s.destination.seek chunk.start else s.destination) =
      aimed s chunk := by
    unfold aimed
    by_cases here : s.currentOffset = some chunk.start <;> simp [here]
  simp only [aim]
  cases disk with
  | stored => exact Or.inl rfl
  | seekStopped cause =>
    dsimp only
    split
    · exact Or.inr ⟨_, _, rfl, rfl⟩
    · exact Or.inl rfl
  | writeStopped written cause => exact Or.inr ⟨_, _, rfl, rfl⟩
  | progressRefused => exact Or.inr ⟨_, _, rfl, rfl⟩

theorem aimed_writes : (aimed s chunk).writes = s.destination.writes := by
  unfold aimed
  split <;> rfl

theorem aimed_file : (aimed s chunk).file = s.destination.file := by
  unfold aimed
  split <;> rfl

theorem aimed_cursor (cursor : ∀ position, s.currentOffset = some position → position = s.destination.cursor) :
    (aimed s chunk).cursor = chunk.start := by
  unfold aimed
  split
  · exact (cursor chunk.start ‹_›).symm
  · rfl

theorem pieces_stored : pieces [] (stored words s chunk data (aimed s chunk)) =
    pieces [] s ++ [⟨(aimed s chunk).cursor, data.length⟩] := by
  simp [pieces, stored, Destination.writeAll, aimed_writes]

theorem Exactly.stored {size : Nat} (small : size < 2 ^ 64) (e : Exactly size [arrived chunk data] s)
    (some_ : data ≠ []) (below : chunk.start + data.length ≤ size) :
    Exactly size [] (stored words s chunk data (aimed s chunk)) := by
  have cursor : (aimed s chunk).cursor = chunk.start := aimed_cursor e.cursor
  have positive := List.length_pos_iff.mpr some_
  refine ⟨fun i hi => ?_, ?_, ?_⟩
  · have before := e.once i hi
    rw [pieces_held, hits_head] at before
    rw [pieces_stored, hits_append, cursor]
    show _ + (if s.nextRequestOffset ≤ i then 1 else 0) = 1
    simp only [arrived] at before
    omega
  · intro x hx
    simp only [PipelinedDownloadReader.stored, Destination.writeAll, aimed_writes, cursor] at hx
    rcases List.mem_append.mp hx with old | new
    · exact e.inside x old
    · rw [List.mem_singleton.mp new]
      exact ⟨positive, below⟩
  · intro position at_
    simp only [PipelinedDownloadReader.stored, Option.some.injEq, words.add_eq _ _ (lt_of_le_of_lt below small)] at at_
    simp only [PipelinedDownloadReader.stored, Destination.writeAll, cursor]
    exact at_.symm

theorem owed_stored (words : Words) (s : ReaderState) (chunk : Range) (data : List UInt8) (size : Nat) :
    owed size [] (stored words s chunk data (aimed s chunk)) = owed size [arrived chunk data] s := by
  unfold owed
  rw [pieces_stored, total_append, pieces_held, total_cons]
  show _ + total [_] + (size - s.nextRequestOffset) = _
  simp only [total_cons, total_nil, arrived]
  omega

theorem Account.stored {size : Nat} (small : size < 2 ^ 64) (a : Account size [arrived chunk data] s) (some_ : data ≠ []) :
    Account size [] (stored words s chunk data (aimed s chunk)) := by
  have same := owed_stored words s chunk data size
  refine ⟨same ▸ a.due, fun balanced => ?_⟩
  obtain ⟨exactly, inside⟩ := a.tight (same ▸ balanced)
  refine ⟨exactly.stored small some_ (inside _ List.mem_cons_self), ?_⟩
  exact fun x hx => absurd hx List.not_mem_nil

theorem owed_taken (size : Nat) {index : Nat} (found : s.inFlight[index]? = some chunk) :
    owed size [chunk] (taken s index) = owed size [] s := by
  unfold owed
  rw [total_perm (pieces_taken found)]
  rfl

theorem Exactly.taken {size index : Nat} (e : Exactly size [] s) (found : s.inFlight[index]? = some chunk) :
    Exactly size [chunk] (taken s index) := by
  refine ⟨fun i hi => ?_, e.inside, e.cursor⟩
  rw [← hits_perm (pieces_taken found)]
  exact e.once i hi

theorem Account.taken {size index : Nat} (a : Account size [] s) (found : s.inFlight[index]? = some chunk)
    (inside : chunk.stop ≤ size) : Account size [chunk] (taken s index) := by
  have same := owed_taken size found
  refine ⟨same ▸ a.due, fun balanced => ⟨(a.tight (same ▸ balanced)).1.taken found, ?_⟩⟩
  intro x hx
  rw [List.mem_singleton.mp hx]
  exact inside

end PipelinedDownloadReader

end MacSftp
