import MacSftp.Pipeline.Writer
import Mathlib.Data.List.Perm.Basic

namespace MacSftp

open Lib

theorem fillBuffer_spec {room : Nat} {source rest : List SourceRead} {data : List UInt8} {ended : Bool}
    (h : fillBuffer room source = .ok (data, rest, ended)) :
    contents source = data ++ contents rest ∧ data.length ≤ room ∧ (ended = true → rest = []) ∧
      (data.length < room → ended = true) := by
  induction source generalizing room rest data ended with
  | nil =>
    cases room with
    | zero =>
      cases h
      exact ⟨rfl, le_refl _, Bool.noConfusion, fun short => absurd short (lt_irrefl _)⟩
    | succ room =>
      cases h
      exact ⟨rfl, Nat.zero_le _, fun _ => rfl, fun _ => rfl⟩
  | cons read source ih =>
    cases room with
    | zero =>
      cases h
      exact ⟨rfl, le_refl _, Bool.noConfusion, fun short => absurd short (lt_irrefl _)⟩
    | succ room =>
      cases read with
      | stopped cause => cases h
      | bytes piece some_ =>
        unfold fillBuffer at h
        split at h
        · rename_i surplus
          cases h
          have long : room + 1 ≤ piece.length := by
            by_contra short
            exact surplus (List.drop_of_length_le (by omega))
          refine ⟨?_, List.length_take_le _ _, Bool.noConfusion, fun short => ?_⟩
          · simp only [contents, List.flatMap_cons, SourceRead.contents]
            rw [← List.append_assoc, List.take_append_drop]
          · rw [List.length_take] at short
            omega
        · rename_i fits
          have fits : piece.length ≤ room + 1 := by simpa [List.drop_eq_nil_iff] using fits
          split at h
          · cases h
          · rename_i more source' ended' filled
            cases h
            obtain ⟨split, bound, atEof, short⟩ := ih filled
            refine ⟨?_, ?_, atEof, fun less => short ?_⟩
            · simp only [contents, List.flatMap_cons, SourceRead.contents, List.append_assoc] at split ⊢
              rw [split]
            · rw [List.length_append]
              omega
            · rw [List.length_append] at less
              omega

namespace PipelinedUploadWriter

variable {words : Words} {w : PipelinedUploadWriter} {s s' : WriterState} {stream : List UInt8} {chunk : WriteChunk}

/-- The chunk is a stretch of the stream at its offset, and no longer than the chunk size. -/
structure Cut (w : PipelinedUploadWriter) (stream : List UInt8) (chunk : WriteChunk) : Prop where
  some_ : chunk.data ≠ []
  bound : chunk.data.length ≤ w.chunkSize
  part : chunk.data <+: stream.drop chunk.offset

def pieces (s : WriterState) : List Range := s.inFlight.map WriteChunk.range ++ s.remote.writes

/-- What has been read so far is in flight or on the server, each byte once, and the rest is still to be read. -/
structure Carries (w : PipelinedUploadWriter) (stream : List UInt8) (s : WriterState) : Prop where
  rest : contents s.source = stream.drop s.currentOffset
  within : s.currentOffset ≤ stream.length
  sized : ∀ total, w.bytesTotal = some total → s.currentOffset ≤ total
  chunks : ∀ c ∈ s.inFlight, w.Cut stream c
  tiles : Tiles (pieces s) s.currentOffset
  written : ∀ x ∈ s.remote.writes, 0 < x.length
  agrees : Agrees stream s.currentOffset s.remote.file s.remote.writes
  bytes : s.bytesDone = total s.remote.writes
  atEof : s.eofReached = true → contents s.source = [] ∨ ∃ total, w.bytesTotal = some total ∧ total ≤ s.currentOffset

def Short (w : PipelinedUploadWriter) (stream : List UInt8) : Prop := w.bytesTotal = none → stream.length < 2 ^ 64

theorem Carries.small (c : w.Carries stream s) (short : w.Short stream) : s.currentOffset < 2 ^ 64 := by
  cases known : w.bytesTotal with
  | none => exact lt_of_le_of_lt c.within (short known)
  | some total => exact lt_of_le_of_lt (c.sized total known) (w.total_lt total known)

theorem toRead_cases (words : Words) (w : PipelinedUploadWriter) (s : WriterState) :
    (w.toRead words s = none ∧ ∃ total, w.bytesTotal = some total ∧ total ≤ s.currentOffset) ∨
    ∃ size, w.toRead words s = some size ∧ 0 < size ∧ size ≤ w.chunkSize ∧
      ∀ total, w.bytesTotal = some total → s.currentOffset + size ≤ total := by
  have positive := w.chunk_pos
  unfold toRead
  cases known : w.bytesTotal with
  | none => exact Or.inr ⟨_, rfl, positive, le_refl _, fun total is => absurd is (by simp)⟩
  | some total =>
    dsimp only
    split
    · exact Or.inl ⟨rfl, total, rfl, ‹_›⟩
    · rename_i more
      rw [nextChunkLen_eq words _ w.chunk_lt]
      refine Or.inr ⟨_, rfl, by omega, Nat.min_le_right _ _, ?_⟩
      intro total' is
      cases is
      omega

def sent (s : WriterState) (source : List SourceRead) (ended : Bool) (data : List UInt8) (offset : Nat) : WriterState :=
  { s with
    source := source
    eofReached := ended
    inFlight := s.inFlight ++ [⟨s.currentOffset, data⟩]
    currentOffset := offset }

theorem Carries.ended (c : w.Carries stream s) {source : List SourceRead} (dry : contents source = [])
    (read : contents s.source = contents source) : w.Carries stream { s with source := source, eofReached := true } :=
  ⟨read ▸ c.rest, c.within, c.sized, c.chunks, c.tiles, c.written, c.agrees, c.bytes, fun _ => Or.inl dry⟩

theorem Carries.sent (c : w.Carries stream s) {source : List SourceRead} {ended : Bool} {data : List UInt8} {size : Nat}
    (chunkBound : size ≤ w.chunkSize) (fits : ∀ total, w.bytesTotal = some total → s.currentOffset + size ≤ total)
    (filled : fillBuffer size s.source = .ok (data, source, ended)) (some_ : data ≠ []) :
    w.Carries stream (sent s source ended data (s.currentOffset + data.length)) := by
  obtain ⟨split, bound, atEof, _⟩ := fillBuffer_spec filled
  have tail : stream.drop s.currentOffset = data ++ contents source := c.rest.symm.trans split
  have room : data.length ≤ stream.length - s.currentOffset := by
    rw [← List.length_drop, tail, List.length_append]
    exact Nat.le_add_right _ _
  have positive := List.length_pos_iff.mpr some_
  have within := c.within
  refine ⟨?_, ?_, ?_, ?_, ?_, c.written, c.agrees.mono (Nat.le_add_right _ _), c.bytes, ?_⟩
  · show contents source = stream.drop (s.currentOffset + data.length)
    rw [← List.drop_drop, tail, List.drop_left]
  · show s.currentOffset + data.length ≤ stream.length
    omega
  · intro total known
    have total_ := fits total known
    show s.currentOffset + data.length ≤ total
    omega
  · intro chunk hc
    rcases List.mem_append.mp hc with old | new
    · exact c.chunks chunk old
    · rw [List.mem_singleton.mp new]
      exact ⟨some_, bound.trans chunkBound, ⟨_, tail.symm⟩⟩
  · intro i
    have before := c.tiles i
    simp only [pieces, hits_append] at before
    show hits ((s.inFlight ++ [WriteChunk.mk s.currentOffset data]).map WriteChunk.range ++ s.remote.writes) i =
      if i < s.currentOffset + data.length then 1 else 0
    rw [List.map_append, hits_append, hits_append]
    show _ + hits [⟨s.currentOffset, data.length⟩] i + _ = _
    rw [hits_singleton]
    by_cases below : i < s.currentOffset
    · rw [if_pos below] at before
      rw [if_neg (by omega), if_pos (show i < s.currentOffset + data.length by omega)]
      omega
    · rw [if_neg below] at before
      by_cases here : i < s.currentOffset + data.length
      · rw [if_pos ⟨by omega, here⟩, if_pos here]
        omega
      · rw [if_neg (by omega), if_neg here]
        omega
  · intro eof
    rw [show source = [] from atEof eof]
    exact Or.inl rfl

theorem Carries.spawn (short : w.Short stream) {room : Nat} (c : w.Carries stream s)
    (h : w.spawn words room s = .ok s') : w.Carries stream s' := by
  induction room generalizing s with
  | zero =>
    cases h
    exact c
  | succ room ih =>
    unfold PipelinedUploadWriter.spawn at h
    split at h
    · cases h
      exact c
    rcases toRead_cases words w s with ⟨none_, total, known, reached⟩ | ⟨size, some_, positive, chunkBound, fits⟩
    · rw [none_] at h
      cases h
      exact ⟨c.rest, c.within, c.sized, c.chunks, c.tiles, c.written, c.agrees, c.bytes,
        fun _ => Or.inr ⟨total, known, reached⟩⟩
    · rw [some_] at h
      dsimp only at h
      split at h
      · cases h
      rename_i data source ended filled
      obtain ⟨split, bound, atEof, less⟩ := fillBuffer_spec filled
      split at h
      · rename_i empty
        cases h
        have dry : source = [] := atEof (less (by rw [empty]; exact positive))
        rw [empty, List.nil_append] at split
        exact c.ended (by rw [dry]; rfl) split
      · rename_i data_
        have next := c.sent chunkBound fits filled data_
        have word := w.chunk_lt
        have cast : words.u32 data.length = data.length := words.u32_eq _ (by omega)
        have offset : words.add s.currentOffset data.length = s.currentOffset + data.length :=
          words.add_eq _ _ (next.small short)
        rw [cast, offset] at h
        exact ih next h

/-- Nothing is in flight only when the source has come to its end or the size is reached. -/
def Idle (w : PipelinedUploadWriter) (s : WriterState) : Prop :=
  s.inFlight = [] → s.eofReached = true ∨ ∃ total, w.bytesTotal = some total ∧ total ≤ s.currentOffset

theorem spawn_keeps_flying {room : Nat} (flying : s.inFlight ≠ []) (h : w.spawn words room s = .ok s') :
    s'.inFlight ≠ [] := by
  induction room generalizing s with
  | zero =>
    cases h
    exact flying
  | succ room ih =>
    unfold PipelinedUploadWriter.spawn at h
    split at h
    · cases h
      exact flying
    split at h
    · cases h
      exact flying
    split at h
    · cases h
    split at h
    · cases h
      exact flying
    · exact ih (by simp) h

theorem spawnWriteRequests_idle (h : w.spawnWriteRequests words s = .ok s') : w.Idle s' := by
  intro empty
  by_cases flying : s.inFlight = []
  · have positive := w.window_pos
    unfold spawnWriteRequests at h
    rw [flying, List.length_nil, Nat.sub_zero] at h
    obtain ⟨room, hr⟩ := Nat.exists_eq_succ_of_ne_zero positive.ne'
    rw [hr] at h
    unfold PipelinedUploadWriter.spawn at h
    split at h
    · rename_i ended
      cases h
      exact Or.inl ended
    split at h
    · cases h
      exact Or.inl rfl
    split at h
    · cases h
    split at h
    · cases h
      exact Or.inl rfl
    · exact absurd empty (spawn_keeps_flying (by simp) h)
  · exact absurd empty (spawn_keeps_flying flying h)

def taken (s : WriterState) (index : Nat) : WriterState := { s with inFlight := s.inFlight.eraseIdx index }

def landed (words : Words) (s : WriterState) (chunk : WriteChunk) : WriterState :=
  { s with
    remote := s.remote.write chunk
    bytesDone := words.add s.bytesDone (words.u32 chunk.data.length) }

theorem Carries.landed {index : Nat} (short : w.Short stream) (c : w.Carries stream s)
    (found : s.inFlight[index]? = some chunk) :
    w.Carries stream (landed words (taken s index) chunk) := by
  obtain ⟨some_, bound, part⟩ := c.chunks chunk (List.mem_of_getElem? found)
  have perm : s.inFlight.Perm (chunk :: s.inFlight.eraseIdx index) := by
    obtain ⟨below, rfl⟩ := List.getElem?_eq_some_iff.mp found
    exact (List.getElem_cons_eraseIdx_perm below).symm
  have moved : (pieces (PipelinedUploadWriter.landed words (taken s index) chunk)).Perm (pieces s) := by
    refine List.Perm.trans ?_ ((perm.map WriteChunk.range).append_right s.remote.writes).symm
    show ((s.inFlight.eraseIdx index).map WriteChunk.range ++ (s.remote.writes ++ [chunk.range])).Perm
      (chunk.range :: (s.inFlight.eraseIdx index).map WriteChunk.range ++ s.remote.writes)
    rw [← List.append_assoc]
    exact List.perm_append_singleton _ _
  have positive := List.length_pos_iff.mpr some_
  have proper : ∀ x ∈ pieces s, 0 < x.length := by
    intro x hx
    rcases List.mem_append.mp hx with flying | done
    · obtain ⟨y, hy, rfl⟩ := List.mem_map.mp flying
      exact List.length_pos_iff.mpr (c.chunks y hy).some_
    · exact c.written x done
  have below : chunk.offset + chunk.data.length ≤ s.currentOffset := by
    refine c.tiles.stop_le proper chunk.range ?_
    exact List.mem_append_left _ (List.mem_map_of_mem (List.mem_of_getElem? found))
  have whole : total s.remote.writes + chunk.data.length ≤ s.currentOffset := by
    rw [← c.tiles.total_eq proper, ← total_perm moved]
    show _ ≤ total (_ ++ (s.remote.writes ++ [chunk.range]))
    simp only [total_append, total_cons, total_nil, WriteChunk.range]
    omega
  have small := c.small short
  have word := w.chunk_lt
  refine ⟨c.rest, c.within, c.sized, ?_, ?_, ?_, ?_, ?_, c.atEof⟩
  · exact fun y hy => c.chunks y (List.eraseIdx_subset hy)
  · intro i
    rw [hits_perm moved]
    exact c.tiles i
  · intro x hx
    rcases List.mem_append.mp hx with old | new
    · exact c.written x old
    · rw [List.mem_singleton.mp new]
      exact positive
  · exact c.agrees.write 0 part below
  · show words.add s.bytesDone (words.u32 chunk.data.length) = total (s.remote.writes ++ [chunk.range])
    rw [c.bytes, words.u32_eq _ (by omega), words.add_eq _ _ (by omega), total_append, total_cons, total_nil]
    rfl

/-- The invariant of an upload of this stream. -/
def Uploads (w : PipelinedUploadWriter) (stream : List UInt8) : Upload → Prop
  | .running s => w.Carries stream s ∧ w.Idle s
  | .ended s (.ok n) => w.Carries stream s ∧ w.Idle s ∧ s.inFlight = [] ∧ n = s.bytesDone ∧
      ∀ total, w.bytesTotal = some total → n = total
  | .ended _ (.error _) => True

theorem proceed_uploads (short : w.Short stream) (c : w.Carries stream s) :
    w.Uploads stream (proceed s (w.spawnWriteRequests words s)) := by
  cases spawned : w.spawnWriteRequests words s with
  | error error => trivial
  | ok s' => exact ⟨c.spawn short spawned, spawnWriteRequests_idle spawned⟩

theorem acknowledge_uploads {index : Nat} (short : w.Short stream) (c : w.Carries stream s)
    (found : s.inFlight[index]? = some chunk) (reply : WriteReply) (progressRefused : Bool) :
    w.Uploads stream (w.acknowledge words (taken s index) chunk reply progressRefused) := by
  have next : w.Carries stream (landed words (taken s index) chunk) := c.landed short found
  unfold acknowledge
  split
  · trivial
  dsimp only
  split
  · trivial
  rename_i s' spawned
  split
  · trivial
  · exact proceed_uploads short (next.spawn short spawned)

theorem finish_uploads (c : w.Carries stream s) (idle : w.Idle s) (empty : s.inFlight = []) (progressRefused : Bool) :
    w.Uploads stream (w.finish s progressRefused) := by
  unfold finish
  split
  · trivial
  rename_i agreed
  split
  · trivial
  · refine ⟨c, idle, empty, rfl, ?_⟩
    intro total known
    simpa [known] using agreed

theorem react_uploads (short : w.Short stream) (c : w.Carries stream s) (idle : w.Idle s) (event : WriteEvent) :
    w.Uploads stream (w.react words s event) := by
  cases event with
  | cancelled => trivial
  | joinFailed =>
    simp only [react]
    split
    · exact ⟨c, idle⟩
    · trivial
  | acknowledged index reply progressRefused =>
    simp only [react]
    split
    · exact ⟨c, idle⟩
    · exact acknowledge_uploads short c ‹_› reply progressRefused
  | finish progressRefused =>
    simp only [react]
    split
    · exact finish_uploads c idle ‹_› progressRefused
    · exact ⟨c, idle⟩

theorem init_carries (source : List SourceRead) : w.Carries (contents source) (.init source) where
  rest := rfl
  within := Nat.zero_le _
  sized _ _ := Nat.zero_le _
  chunks _ h := absurd h List.not_mem_nil
  tiles _ := rfl
  written _ h := absurd h List.not_mem_nil
  agrees := agrees_nil _ _
  bytes := rfl
  atEof eof := Bool.noConfusion eof

theorem uploadFrom_uploads (words : Words) {source : List SourceRead} (short : w.Short (contents source))
    (events : List WriteEvent) : w.Uploads (contents source) (w.uploadFrom words source events) := by
  refine (w.machine words).run_invariant ?_ ?_ events
  · intro u event holds
    cases u with
    | running s => exact react_uploads short holds.1 holds.2 event
    | ended s result => exact holds
  · unfold start
    split
    · rename_i nothing
      exact ⟨init_carries source, fun _ => Or.inr ⟨0, nothing, Nat.zero_le _⟩⟩
    · exact proceed_uploads short (init_carries source)

theorem Carries.done (c : w.Carries stream s) (idle : w.Idle s) (empty : s.inFlight = []) :
    s.bytesDone = s.currentOffset ∧ Tiles s.remote.writes s.currentOffset ∧
      s.remote.file = stream.take s.currentOffset ∧ (w.bytesTotal = none → s.currentOffset = stream.length) := by
  have all : pieces s = s.remote.writes := by simp [pieces, empty]
  have tiles := c.tiles
  rw [all] at tiles
  refine ⟨c.bytes.trans (tiles.total_eq c.written), tiles, c.agrees.eq_take fun i below => ?_, fun unknown => ?_⟩
  · rw [tiles i, if_pos below]
  · have dry : contents s.source = [] := by
      have none_ : ¬ ∃ total, w.bytesTotal = some total ∧ total ≤ s.currentOffset := by
        rintro ⟨total, known, _⟩
        rw [unknown] at known
        cases known
      rcases idle empty with eof | reached
      · exact (c.atEof eof).resolve_right none_
      · exact absurd reached none_
    have within := c.within
    have behind := List.drop_eq_nil_iff.mp (c.rest.symm.trans dry)
    omega

theorem ended_absorbs (events : List WriteEvent) (result : Except UserFacingError Nat) :
    (w.machine words).run (.ended s result) events = .ended s result := by
  induction events with
  | nil => rfl
  | cons event events ih => exact ih

theorem refused_write_fails {source : List SourceRead} {before after : List WriteEvent} {index : Nat} {reply : WriteReply}
    {progressRefused : Bool} (reached : w.uploadFrom words source before = .running s) (flying : index < s.inFlight.length)
    (refused : reply ≠ .ok) : ∃ s' error,
      w.uploadFrom words source (before ++ .acknowledged index reply progressRefused :: after) = .ended s' (.error error) := by
  have step : ∃ s' error, w.react words s (.acknowledged index reply progressRefused) = .ended s' (.error error) := by
    simp only [react, List.getElem?_eq_getElem flying, acknowledge]
    cases reply with
    | ok => exact absurd rfl refused
    | status code => exact ⟨_, _, rfl⟩
    | failed guidance => exact ⟨_, _, rfl⟩
  obtain ⟨s', error, failed⟩ := step
  refine ⟨s', error, ?_⟩
  unfold uploadFrom at reached ⊢
  rw [Machine.run_append, reached, Machine.run_cons]
  show (w.machine words).run (w.react words s (.acknowledged index reply progressRefused)) after = _
  rw [failed, ended_absorbs]

theorem uploadFrom_done {source : List SourceRead} (short : w.Short (contents source)) {events : List WriteEvent} {n : Nat}
    (done : w.uploadFrom words source events = .ended s (.ok n)) :
    s.remote.file = (contents source).take n ∧ n ≤ (contents source).length ∧ Tiles s.remote.writes n ∧
      (∀ total, w.bytesTotal = some total → n = total) ∧ (w.bytesTotal = none → n = (contents source).length) := by
  have uploads := uploadFrom_uploads words short events
  rw [done] at uploads
  obtain ⟨c, idle, empty, rfl, sized⟩ := uploads
  obtain ⟨bytes, tiles, file, whole⟩ := c.done idle empty
  rw [bytes]
  exact ⟨file, c.within, tiles, fun total known => bytes.symm.trans (sized total known), whole⟩

theorem pipelined_upload (w : PipelinedUploadWriter) (source : List SourceRead) (events : List WriteEvent) :
    ((w.bytesTotal = none → (contents source).length < 2 ^ 64) → ∀ s n,
      w.uploadFrom .wrapping source events = .ended s (.ok n) →
        s.remote.file = (contents source).take n ∧ n ≤ (contents source).length ∧ Tiles s.remote.writes n ∧
          (∀ total, w.bytesTotal = some total → n = total) ∧ (w.bytesTotal = none → n = (contents source).length)) ∧
    ∀ before after index reply progressRefused s, events = before ++ .acknowledged index reply progressRefused :: after →
      w.uploadFrom .wrapping source before = .running s → index < s.inFlight.length → reply ≠ .ok →
        ∃ s' error, w.uploadFrom .wrapping source events = .ended s' (.error error) := by
  constructor
  · intro short s n done
    exact uploadFrom_done short done
  · rintro before after index reply progressRefused s rfl reached flying refused
    exact refused_write_fails reached flying refused

def sampleWriter : PipelinedUploadWriter :=
  ((new (some 7) (by decide)).withChunkSize 3 (by decide)).withWindowCapacity 2

theorem pipelined_upload_sample :
    ∃ s, sampleWriter.uploadFrom .wrapping [.bytes [1, 2] (by decide), .bytes [3, 4, 5, 6, 7, 8] (by decide)]
        [.acknowledged 1 .ok false, .acknowledged 0 .ok false, .acknowledged 0 .ok false, .finish false] =
        .ended s (.ok 7) ∧ s.remote.file = [1, 2, 3, 4, 5, 6, 7] ∧ Tiles s.remote.writes 7 := by
  obtain ⟨uploaded, _⟩ := pipelined_upload sampleWriter [.bytes [1, 2] (by decide), .bytes [3, 4, 5, 6, 7, 8] (by decide)]
    [.acknowledged 1 .ok false, .acknowledged 0 .ok false, .acknowledged 0 .ok false, .finish false]
  obtain ⟨file, _, tiles, _⟩ := uploaded (by simp [sampleWriter, new, withChunkSize, withWindowCapacity]) _ 7 rfl
  exact ⟨_, rfl, file, tiles⟩

section Around

variable {piece : List UInt8} {some_ : piece ≠ []}

theorem contents_replicate (n : Nat) :
    (contents (List.replicate n (.bytes piece some_))).length = n * piece.length := by
  induction n with
  | zero => simp [contents]
  | succ n ih =>
    simp only [contents, List.replicate_succ, List.flatMap_cons, List.length_append, SourceRead.contents] at ih ⊢
    rw [ih, Nat.succ_mul, Nat.add_comm]

theorem fillBuffer_piece (rest : List SourceRead) :
    fillBuffer piece.length (.bytes piece some_ :: rest) = .ok (piece, rest, false) := by
  obtain ⟨k, hk⟩ := Nat.exists_eq_succ_of_ne_zero (List.length_pos_iff.mpr some_).ne'
  rw [hk]
  unfold fillBuffer
  rw [dif_neg (by rw [← Nat.succ_eq_add_one, ← hk]; simp), ← Nat.succ_eq_add_one, ← hk, Nat.sub_self]
  cases rest <;> simp [fillBuffer]

variable (unknown : w.bytesTotal = none) (window : w.windowCapacity = 1) (whole : piece.length = w.chunkSize)

include unknown window whole

theorem acknowledge_last {offset : Nat} (flying : s.inFlight = [⟨offset, piece⟩]) (source : s.source = [])
    (more : s.eofReached = false) : ∃ t, (w.machine .wrapping).next (.running s) (.acknowledged 0 .ok false) = .running t ∧
      t.inFlight = [] ∧ t.bytesDone = (s.bytesDone + w.chunkSize) % 2 ^ 64 := by
  have cast : piece.length % 4294967296 = w.chunkSize := by rw [whole]; exact Nat.mod_eq_of_lt w.chunk_lt
  obtain ⟨k, hk⟩ := Nat.exists_eq_succ_of_ne_zero w.chunk_pos.ne'
  refine ⟨{ landed .wrapping { s with inFlight := [] } ⟨offset, piece⟩ with eofReached := true }, ?_, rfl, ?_⟩
  · simp [Machine.next, machine, react, flying, acknowledge, WriteReply.result, spawnWriteRequests, window, spawn, more,
      toRead, unknown, source, hk, fillBuffer, proceed, landed]
  · simp [landed, Words.wrapping, cast]

theorem acknowledge_next {offset : Nat} {rest : List SourceRead} (flying : s.inFlight = [⟨offset, piece⟩])
    (source : s.source = .bytes piece some_ :: rest) (more : s.eofReached = false) :
    ∃ t, (w.machine .wrapping).next (.running s) (.acknowledged 0 .ok false) = .running t ∧
      t.inFlight = [⟨s.currentOffset, piece⟩] ∧ t.source = rest ∧ t.eofReached = false ∧
      t.bytesDone = (s.bytesDone + w.chunkSize) % 2 ^ 64 := by
  have cast : piece.length % 4294967296 = w.chunkSize := by rw [whole]; exact Nat.mod_eq_of_lt w.chunk_lt
  have filled : fillBuffer w.chunkSize (.bytes piece some_ :: rest) = .ok (piece, rest, false) := by
    rw [← whole]
    exact fillBuffer_piece rest
  refine ⟨sent (landed .wrapping { s with inFlight := [] } ⟨offset, piece⟩) rest false piece
    (Words.wrapping.add s.currentOffset (Words.wrapping.u32 piece.length)), ?_, rfl, rfl, rfl, ?_⟩
  · simp [Machine.next, machine, react, flying, acknowledge, WriteReply.result, spawnWriteRequests, window, spawn, more,
      toRead, unknown, source, filled, proceed, landed, sent, some_]
  · simp [landed, sent, Words.wrapping, cast]

/-- With a window of one chunk, the chunks are counted one after the other, and the count wraps. -/
theorem acknowledge_around (n : Nat) {offset : Nat} (flying : s.inFlight = [⟨offset, piece⟩])
    (source : s.source = List.replicate n (.bytes piece some_)) (more : s.eofReached = false) :
    ∃ t, (w.machine .wrapping).run (.running s) (List.replicate (n + 1) (.acknowledged 0 .ok false)) = .running t ∧
      t.inFlight = [] ∧ t.bytesDone = (s.bytesDone + (n + 1) * w.chunkSize) % 2 ^ 64 := by
  induction n generalizing s offset with
  | zero =>
    obtain ⟨t, next, empty, bytes⟩ := acknowledge_last unknown window whole flying source more
    refine ⟨t, next, empty, ?_⟩
    rw [bytes, Nat.zero_add, Nat.one_mul]
  | succ n ih =>
    obtain ⟨t, next, flying', source', more', bytes⟩ := acknowledge_next unknown window whole flying source more
    obtain ⟨u, run, empty, bytes'⟩ := ih flying' source' more'
    refine ⟨u, ?_, empty, ?_⟩
    · rw [List.replicate_succ, Machine.run_cons, next]
      exact run
    · rw [bytes', bytes, Nat.mod_add_mod, Nat.add_assoc, Nat.succ_mul (n + 1), Nat.add_comm w.chunkSize]

/-- So many chunks that their lengths add up to a multiple of the counter's range. -/
theorem upload_wraps {n : Nat} (around : (n + 1) * w.chunkSize = 2 ^ 64) :
    ∃ s, w.uploadFrom .wrapping (List.replicate (n + 1) (.bytes piece some_))
      (List.replicate (n + 1) (.acknowledged 0 .ok false) ++ [.finish false]) = .ended s (.ok 0) := by
  have filled : fillBuffer w.chunkSize (.bytes piece some_ :: List.replicate n (.bytes piece some_)) =
      .ok (piece, List.replicate n (.bytes piece some_), false) := by
    rw [← whole]
    exact fillBuffer_piece _
  have begin_ : w.start .wrapping (List.replicate (n + 1) (.bytes piece some_)) =
      .running (sent (.init (List.replicate (n + 1) (.bytes piece some_))) (List.replicate n (.bytes piece some_)) false piece
        (Words.wrapping.add 0 (Words.wrapping.u32 piece.length))) := by
    simp [start, unknown, spawnWriteRequests, window, spawn, WriterState.init, toRead, List.replicate_succ, filled, some_,
      proceed, sent]
  obtain ⟨t, run, empty, bytes⟩ := acknowledge_around unknown window whole n
    (s := sent (.init (List.replicate (n + 1) (.bytes piece some_))) (List.replicate n (.bytes piece some_)) false piece
      (Words.wrapping.add 0 (Words.wrapping.u32 piece.length)))
    rfl rfl rfl
  have zero : t.bytesDone = 0 := by
    rw [bytes, around]
    exact (Nat.add_mod_right 0 (2 ^ 64)).trans (Nat.zero_mod _)
  refine ⟨t, ?_⟩
  unfold uploadFrom
  rw [begin_, Machine.run_append, run]
  show w.react .wrapping t (.finish false) = _
  simp [react, empty, finish, unknown, zero]

end Around

def singleWriter : PipelinedUploadWriter :=
  ((new none unknown_lt).withChunkSize (2 ^ 30) (by decide)).withWindowCapacity 1

theorem zeros_ne (n : Nat) : List.replicate (n + 1) (0 : UInt8) ≠ [] := by simp

/-- A source of `2 ^ 34` reads of `2 ^ 30` bytes each is uploaded with the result that nothing was. -/
theorem pipelined_upload_wraps :
    ∃ s, singleWriter.uploadFrom .wrapping (List.replicate (2 ^ 34 - 1 + 1) (.bytes _ (zeros_ne (2 ^ 30 - 1))))
        (List.replicate (2 ^ 34 - 1 + 1) (.acknowledged 0 .ok false) ++ [.finish false]) = .ended s (.ok 0) ∧
      0 < (contents (List.replicate (2 ^ 34 - 1 + 1) (.bytes _ (zeros_ne (2 ^ 30 - 1))))).length := by
  have whole : (List.replicate (2 ^ 30 - 1 + 1) (0 : UInt8)).length = singleWriter.chunkSize := by
    rw [List.length_replicate]
    decide
  obtain ⟨s, done⟩ := upload_wraps (w := singleWriter) rfl rfl whole (n := 2 ^ 34 - 1) (by decide)
  refine ⟨s, done, ?_⟩
  rw [contents_replicate, List.length_replicate]
  decide

end PipelinedUploadWriter

end MacSftp
