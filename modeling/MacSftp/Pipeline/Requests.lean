import MacSftp.Pipeline.Reader

namespace MacSftp

open Lib

namespace PipelinedDownloadReader

variable {words : Words} {r : PipelinedDownloadReader} {s s' : ReaderState} {x : Range}

def issue (s : ReaderState) (x : Range) : ReaderState :=
  { s with inFlight := s.inFlight ++ [x], requests := s.requests ++ [x] }

/-- How long the next request at the cursor is. -/
def freshLen (r : PipelinedDownloadReader) (s : ReaderState) : Nat :=
  (r.bytesTotal.map (fun total => min (total - s.nextRequestOffset) r.chunkSize)).getD r.chunkSize

theorem freshLen_le : r.freshLen s ≤ r.chunkSize := by
  unfold freshLen
  cases r.bytesTotal with
  | none => exact le_refl _
  | some total => exact Nat.min_le_right _ _

theorem nextRequest_cases (h : r.nextRequest words s = some (x, s')) :
    (∃ rest, s.retryRanges = x :: rest ∧ s' = { s with retryRanges := rest }) ∨
    s.retryRanges = [] ∧ s.eofReached = false ∧ (∀ total, r.bytesTotal = some total → s.nextRequestOffset < total) ∧
      x = ⟨s.nextRequestOffset, r.freshLen s⟩ ∧
      s' = { s with nextRequestOffset := words.add s.nextRequestOffset (r.freshLen s) } := by
  unfold nextRequest at h
  split at h
  · rename_i range rest queued
    cases h
    exact Or.inl ⟨rest, queued, rfl⟩
  rename_i none_
  split at h
  · cases h
  rename_i open_
  have open_ : s.eofReached = false := by simpa using open_
  right
  split at h
  · rename_i total known
    split at h
    · cases h
    rename_i more
    have len : r.freshLen s = nextChunkLen words (total - s.nextRequestOffset) r.chunkSize := by
      rw [nextChunkLen_eq words _ r.chunk_lt]
      simp [freshLen, known]
    cases h
    rw [len]
    refine ⟨none_, open_, ?_, rfl, rfl⟩
    intro total' known'
    rw [known] at known'
    cases known'
    omega
  · rename_i unknown
    have len : r.freshLen s = r.chunkSize := by simp [freshLen, unknown]
    cases h
    rw [len]
    refine ⟨none_, open_, ?_, rfl, rfl⟩
    intro total known
    rw [unknown] at known
    cases known

theorem nextRequest_none (h : r.nextRequest words s = none) :
    s.retryRanges = [] ∧ (s.eofReached = true ∨ ∃ total, r.bytesTotal = some total ∧ total ≤ s.nextRequestOffset) := by
  unfold nextRequest at h
  split at h
  · cases h
  rename_i none_
  refine ⟨none_, ?_⟩
  split at h
  · exact Or.inl ‹_›
  split at h
  · rename_i total known
    split at h
    · exact Or.inr ⟨total, known, ‹_›⟩
    · cases h
  · cases h

theorem spawn_rule {P : ReaderState → Prop} (one : ∀ s x s', P s → s.inFlight.length < r.windowCapacity →
      r.nextRequest words s = some (x, s') → P (issue s' x))
    (room : Nat) (start : P s) (fits : s.inFlight.length + room ≤ r.windowCapacity) : P (r.spawn words room s) := by
  induction room generalizing s with
  | zero => exact start
  | succ room ih =>
    unfold spawn
    split
    · exact start
    · rename_i x s' next
      have same : s'.inFlight = s.inFlight := by
        rcases nextRequest_cases next with ⟨_, _, rfl⟩ | ⟨_, _, _, _, rfl⟩ <;> rfl
      refine ih (s := issue s' x) (one s x s' start (by omega) next) ?_
      simp only [issue, same, List.length_append, List.length_singleton]
      omega

theorem spawnReadRequests_rule {P : ReaderState → Prop} (one : ∀ s x s', P s → s.inFlight.length < r.windowCapacity →
      r.nextRequest words s = some (x, s') → P (issue s' x))
    (start : P s) (fits : s.inFlight.length ≤ r.windowCapacity) : P (r.spawnReadRequests words s) :=
  spawn_rule one _ start (by omega)

/-- Nothing is in flight only when there is nothing left to ask for. -/
def Idle (words : Words) (r : PipelinedDownloadReader) (s : ReaderState) : Prop :=
  s.inFlight = [] → r.nextRequest words s = none

theorem spawn_keeps_flying (room : Nat) (h : s.inFlight ≠ []) : (r.spawn words room s).inFlight ≠ [] := by
  induction room generalizing s with
  | zero => exact h
  | succ room ih =>
    unfold spawn
    split
    · exact h
    · exact ih (by simp)

theorem spawnReadRequests_idle : r.Idle words (r.spawnReadRequests words s) := by
  intro empty
  by_contra more
  have room : r.windowCapacity - s.inFlight.length ≠ 0 ∨ s.inFlight ≠ [] := by
    by_cases flying : s.inFlight = []
    · have positive := r.window_pos
      simp [flying]
      omega
    · exact Or.inr flying
  unfold spawnReadRequests at empty more
  rcases room with room | flying
  · obtain ⟨k, hk⟩ := Nat.exists_eq_succ_of_ne_zero room
    rw [hk] at empty more
    unfold spawn at empty more
    split at empty
    · rename_i none_
      rw [none_] at more
      exact more none_
    · exact spawn_keeps_flying k (by simp) empty
  · exact spawn_keeps_flying _ flying empty

structure Asked (r : PipelinedDownloadReader) (next : Nat) (x : Range) : Prop where
  pos : 0 < x.length
  chunk : x.length ≤ r.chunkSize
  stop : x.stop ≤ next

theorem Asked.mono {a b : Nat} (h : r.Asked a x) (le : a ≤ b) : r.Asked b x := ⟨h.pos, h.chunk, h.stop.trans le⟩

/-- Every request is a proper one and lies below the cursor, and the cursor has not passed `limit`. -/
structure Bounded (r : PipelinedDownloadReader) (limit : Nat) (s : ReaderState) : Prop where
  queued : ∀ x ∈ s.retryRanges, r.Asked s.nextRequestOffset x
  flying : ∀ x ∈ s.inFlight, r.Asked s.nextRequestOffset x
  sent : ∀ x ∈ s.requests, r.Asked s.nextRequestOffset x
  window : s.inFlight.length ≤ r.windowCapacity
  next_le : s.nextRequestOffset ≤ limit

theorem init_bounded (limit : Nat) : r.Bounded limit .init where
  queued _ h := absurd h List.not_mem_nil
  flying _ h := absurd h List.not_mem_nil
  sent _ h := absurd h List.not_mem_nil
  window := Nat.zero_le _
  next_le := Nat.zero_le _

theorem freshLen_pos (more : ∀ total, r.bytesTotal = some total → s.nextRequestOffset < total) : 0 < r.freshLen s := by
  have positive := r.chunk_pos
  unfold freshLen
  cases known : r.bytesTotal with
  | none => exact positive
  | some total =>
    have below := more total known
    simp only [Option.map_some, Option.getD_some]
    omega

theorem nextRequest_exact {limit : Nat} (small : limit < 2 ^ 64)
    (room : s.retryRanges = [] → s.eofReached = false → (∀ total, r.bytesTotal = some total → s.nextRequestOffset < total) →
      s.nextRequestOffset + r.freshLen s ≤ limit)
    (h : r.nextRequest words s = some (x, s')) :
    (∃ rest, s.retryRanges = x :: rest ∧ s' = { s with retryRanges := rest }) ∨
    s.retryRanges = [] ∧ s.eofReached = false ∧ (∀ total, r.bytesTotal = some total → s.nextRequestOffset < total) ∧
      x = ⟨s.nextRequestOffset, r.freshLen s⟩ ∧ s.nextRequestOffset + r.freshLen s ≤ limit ∧
      s' = { s with nextRequestOffset := s.nextRequestOffset + r.freshLen s } := by
  rcases nextRequest_cases h with queued | ⟨none_, open_, more, hx, hs⟩
  · exact Or.inl queued
  · have fits := room none_ open_ more
    rw [words.add_eq _ _ (lt_of_le_of_lt fits small)] at hs
    exact Or.inr ⟨none_, open_, more, hx, fits, hs⟩

theorem Bounded.issue {limit : Nat} (small : limit < 2 ^ 64) (b : r.Bounded limit s)
    (slot : s.inFlight.length < r.windowCapacity)
    (room : s.retryRanges = [] → s.eofReached = false → (∀ total, r.bytesTotal = some total → s.nextRequestOffset < total) →
      s.nextRequestOffset + r.freshLen s ≤ limit)
    (h : r.nextRequest words s = some (x, s')) : r.Bounded limit (issue s' x) := by
  rcases nextRequest_exact small room h with ⟨rest, queue, rfl⟩ | ⟨none_, _, more, rfl, fits, rfl⟩
  · have head := b.queued x (queue ▸ List.mem_cons_self)
    refine ⟨?_, ?_, ?_, ?_, b.next_le⟩
    · exact fun y hy => b.queued y (queue ▸ List.mem_cons_of_mem x hy)
    · intro y hy
      rcases List.mem_append.mp hy with old | new
      · exact b.flying y old
      · rw [List.mem_singleton.mp new]
        exact head
    · intro y hy
      rcases List.mem_append.mp hy with old | new
      · exact b.sent y old
      · rw [List.mem_singleton.mp new]
        exact head
    · simpa [PipelinedDownloadReader.issue, Nat.succ_le_iff] using slot
  · have grows : s.nextRequestOffset ≤ s.nextRequestOffset + r.freshLen s := Nat.le_add_right _ _
    have fresh : r.Asked (s.nextRequestOffset + r.freshLen s) ⟨s.nextRequestOffset, r.freshLen s⟩ :=
      ⟨freshLen_pos more, freshLen_le, le_refl _⟩
    refine ⟨fun y hy => (b.queued y hy).mono grows, ?_, ?_, ?_, fits⟩
    · intro y hy
      rcases List.mem_append.mp hy with old | new
      · exact (b.flying y old).mono grows
      · rw [List.mem_singleton.mp new]
        exact fresh
    · intro y hy
      rcases List.mem_append.mp hy with old | new
      · exact (b.sent y old).mono grows
      · rw [List.mem_singleton.mp new]
        exact fresh
    · simpa [PipelinedDownloadReader.issue, Nat.succ_le_iff] using slot

/-- All stretches the download has asked for and not dropped: `held` is what has arrived and is not stored yet. -/
def pieces (held : List Range) (s : ReaderState) : List Range :=
  held ++ s.retryRanges ++ s.inFlight ++ s.destination.writes

/-- Up to `size`, every offset is asked for, held or written exactly once, or still above the cursor. -/
structure Exactly (size : Nat) (held : List Range) (s : ReaderState) : Prop where
  once : ∀ i < size, hits (pieces held s) i + (if s.nextRequestOffset ≤ i then 1 else 0) = 1
  inside : ∀ x ∈ s.destination.writes, 0 < x.length ∧ x.stop ≤ size
  cursor : ∀ position, s.currentOffset = some position → position = s.destination.cursor

theorem pieces_queued {held rest : List Range} (queue : s.retryRanges = x :: rest) :
    (pieces held (issue { s with retryRanges := rest } x)).Perm (pieces held s) := by
  have moved : (held ++ (rest ++ (s.inFlight ++ ([x] ++ s.destination.writes)))).Perm
      (held ++ ([x] ++ (rest ++ (s.inFlight ++ s.destination.writes)))) := by
    refine List.Perm.append_left held ?_
    rw [← List.append_assoc rest, ← List.append_assoc rest s.inFlight]
    exact List.perm_append_comm_assoc _ _ _
  simpa [pieces, issue, queue] using moved

theorem pieces_fresh (held : List Range) (next : Nat) :
    (pieces held (issue { s with nextRequestOffset := next } x)).Perm (x :: pieces held s) := by
  have moved : (held ++ s.retryRanges ++ s.inFlight ++ ([x] ++ s.destination.writes)).Perm
      ([x] ++ (held ++ s.retryRanges ++ s.inFlight ++ s.destination.writes)) := List.perm_append_comm_assoc _ _ _
  simpa [pieces, issue] using moved

theorem Exactly.issue {limit size : Nat} {held : List Range} (small : limit < 2 ^ 64) (e : Exactly size held s)
    (room : s.retryRanges = [] → s.eofReached = false → (∀ total, r.bytesTotal = some total → s.nextRequestOffset < total) →
      s.nextRequestOffset + r.freshLen s ≤ limit)
    (h : r.nextRequest words s = some (x, s')) : Exactly size held (issue s' x) := by
  rcases nextRequest_exact small room h with ⟨rest, queue, rfl⟩ | ⟨_, _, _, rfl, _, rfl⟩
  · refine ⟨fun i hi => ?_, e.inside, e.cursor⟩
    rw [hits_perm (pieces_queued queue)]
    exact e.once i hi
  · refine ⟨fun i hi => ?_, e.inside, e.cursor⟩
    have before := e.once i hi
    rw [hits_perm (pieces_fresh held _), hits_head, hits_singleton]
    show _ + (if s.nextRequestOffset + r.freshLen s ≤ i then 1 else 0) = 1
    by_cases below : s.nextRequestOffset ≤ i
    · rw [if_pos below] at before
      by_cases covered : i < s.nextRequestOffset + r.freshLen s
      · rw [if_pos ⟨below, covered⟩, if_neg (by omega)]
        omega
      · rw [if_neg (by omega), if_pos (by omega)]
        omega
    · rw [if_neg below] at before
      rw [if_neg (by omega), if_neg (by omega)]
      omega

/-- What is written, held, asked for and still above the cursor, added up. -/
def owed (size : Nat) (held : List Range) (s : ReaderState) : Nat :=
  total (pieces held s) + (size - s.nextRequestOffset)

theorem sized_room {size : Nat} (known : r.bytesTotal = some size) : s.retryRanges = [] → s.eofReached = false →
    (∀ total, r.bytesTotal = some total → s.nextRequestOffset < total) → s.nextRequestOffset + r.freshLen s ≤ size := by
  intro _ _ more
  have below := more size known
  simp only [freshLen, known, Option.map_some, Option.getD_some]
  omega

theorem owed_issue {size : Nat} (held : List Range) (known : r.bytesTotal = some size)
    (h : r.nextRequest words s = some (x, s')) : owed size held (issue s' x) = owed size held s := by
  unfold owed
  rcases nextRequest_exact (r.total_lt size known) (sized_room known) h with ⟨rest, queue, rfl⟩ | ⟨_, _, _, rfl, fits, rfl⟩
  · rw [total_perm (pieces_queued queue)]
    rfl
  · rw [total_perm (pieces_fresh held _), total_cons]
    show _ + _ + (size - (s.nextRequestOffset + r.freshLen s)) = _
    simp only
    omega

/-- The pieces add up to `size` at least, and to `size` only if nothing is covered twice. -/
structure Account (size : Nat) (held : List Range) (s : ReaderState) : Prop where
  due : size ≤ owed size held s
  tight : owed size held s = size → Exactly size held s ∧ ∀ x ∈ held, x.stop ≤ size

theorem Account.issue {size : Nat} {held : List Range} (known : r.bytesTotal = some size) (a : Account size held s)
    (h : r.nextRequest words s = some (x, s')) : Account size held (issue s' x) := by
  have same := owed_issue held known h
  refine ⟨same ▸ a.due, fun balanced => ?_⟩
  obtain ⟨exactly, inside⟩ := a.tight (same ▸ balanced)
  exact ⟨exactly.issue (r.total_lt size known) (sized_room known) h, inside⟩

end PipelinedDownloadReader

end MacSftp
