import MacSftp.Pipeline.Honest
import MacSftp.Pipeline.Wrapping

namespace MacSftp

open Lib

namespace PipelinedDownloadReader

/-- A reply that is cut short puts back one range, which is shorter and ends where the request ended. -/
def RetriesShrink (words : Words) (r : PipelinedDownloadReader) (s : ReaderState) : Prop :=
  ∀ index chunk data s', s.inFlight[index]? = some chunk → r.receive words (taken s index) chunk data = .ok s' →
    s'.retryRanges = s.retryRanges ∨
      ∃ x, s'.retryRanges = s.retryRanges ++ [x] ∧ x.length < chunk.length ∧ x.stop = chunk.stop

theorem Sized.retriesShrink {words : Words} {r : PipelinedDownloadReader} {s : ReaderState} {size : Nat}
    (known : r.bytesTotal = some size) (sized : r.Sized size [] s) : r.RetriesShrink words s := by
  intro index chunk data s' found h
  have asked := (sized.bounded.flying chunk (List.mem_of_getElem? found)).mono sized.bounded.next_le
  rcases receive_cases (r.total_lt size known) asked (within_size known asked) h with
    ⟨_, rfl, _⟩ | ⟨some_, short, rfl⟩ | ⟨_, rfl⟩
  · exact Or.inl rfl
  · have received := List.length_pos_iff.mpr some_
    refine Or.inr ⟨rest chunk data.length, rfl, ?_, ?_⟩
    · simp only [rest]
      omega
    · simp only [rest, Range.stop]
      omega
  · exact Or.inl rfl

theorem pipelined_download (r : PipelinedDownloadReader) (events : List ReadEvent) :
    (∀ file, (r.machine .wrapping).Admissible (Honest file) (r.start .wrapping) events →
      (r.bytesTotal = some file.length ∨
        r.bytesTotal = none ∧ file.length + r.chunkSize * (r.windowCapacity + 1) < 2 ^ 64) →
      ∀ s n, r.downloadTo .wrapping events = .ended s (.ok n) →
        n = file.length ∧ s.destination.file = file ∧ Tiles s.destination.writes file.length) ∧
    ∀ total, r.bytesTotal = some total →
      ((events.map received).sum < 2 ^ 64 → ∀ s n, r.downloadTo .wrapping events = .ended s (.ok n) →
        n = total ∧ Tiles s.destination.writes total) ∧
      r.Frugal total (r.downloadTo .wrapping events).state ∧
      (∀ s, r.downloadTo .wrapping events = .running s → r.RetriesShrink .wrapping s) ∧
      ((r.machine .wrapping).Admissible Fitting (r.start .wrapping) events →
        r.downloadTo .wrapping events = r.downloadTo .exact events) := by
  constructor
  · intro file honest size s n done
    rcases size with known | ⟨unknown, small⟩
    · exact downloadTo_honest (r.total_lt _ known) (Or.inl ⟨known, rfl, rfl⟩) honest done
    · refine downloadTo_honest small (Or.inr ⟨unknown, rfl, fun _ => Nat.zero_le _, ?_⟩) honest done
      exact fun eof => Bool.noConfusion eof
  · intro total known
    have sizes := downloadTo_sizes .wrapping known events
    refine ⟨fun small s n done => ?_, ?_, ?_, downloadTo_words .wrapping .exact known⟩
    · obtain ⟨size, _, tiles⟩ := downloadTo_known known small done
      exact ⟨size, tiles⟩
    · cases reached : r.downloadTo .wrapping events with
      | running s =>
        rw [reached] at sizes
        exact sizes.1.frugal
      | ended s result =>
        rw [reached] at sizes
        cases result with
        | ok n => exact sizes.1.frugal
        | error error => exact sizes
    · intro s reached
      rw [reached] at sizes
      exact sizes.1.retriesShrink known

def sampleReader : PipelinedDownloadReader :=
  ((new (some 5) (by decide)).withChunkSize 2 (by decide)).withWindowCapacity 2

/-- Three requests, the first one cut short, answered out of order. -/
def sampleEvents : List ReadEvent :=
  [.completed 1 (.data [3, 4]) .stored, .completed 0 (.data [1]) .stored, .completed 0 (.data [5]) .stored,
    .completed 0 (.data [2]) .stored, .finish .closed]

theorem pipelined_download_sample :
    (∃ s, sampleReader.downloadTo .wrapping sampleEvents = .ended s (.ok 5) ∧ s.destination.file = [1, 2, 3, 4, 5] ∧
        Tiles s.destination.writes 5) ∧
      sampleReader.downloadTo .wrapping sampleEvents = sampleReader.downloadTo .exact sampleEvents := by
  obtain ⟨honest, known⟩ := pipelined_download sampleReader sampleEvents
  refine ⟨⟨_, rfl, ?_⟩, (known 5 rfl).2.2.2 (by decide)⟩
  exact (honest [1, 2, 3, 4, 5] (by decide) (Or.inl rfl) _ 5 rfl).2

def byteReader : PipelinedDownloadReader :=
  ((new (some 3) (by decide)).withChunkSize 1 (by decide)).withWindowCapacity 1

/-- The three bytes of a file of size 3 are asked for one at a time, and the replies are too long. -/
def floodedEvents (a b c : List UInt8) : List ReadEvent :=
  [.completed 0 (.data a) .stored, .completed 0 (.data b) .stored, .completed 0 (.data c) .stored, .finish .closed]

theorem flooded_succeeds {a b c : List UInt8} (ha : 2 ≤ a.length ∧ a.length < 2 ^ 63) (hb : 2 ≤ b.length ∧ b.length < 2 ^ 63)
    (hc : 2 ≤ c.length) (sum : (a.length + b.length + c.length) % 2 ^ 64 = 3) :
    ∃ s, byteReader.downloadTo .wrapping (floodedEvents a b c) = .ended s (.ok 3) ∧
      s.destination.writes = [⟨0, a.length⟩, ⟨1, b.length⟩, ⟨2, c.length⟩] := by
  have someA : a ≠ [] := by rintro rfl; simp at ha
  have someB : b ≠ [] := by rintro rfl; simp at hb
  have someC : c ≠ [] := by rintro rfl; simp at hc
  have longA : ¬ a.length < 1 := by omega
  have longB : ¬ b.length < 1 := by omega
  have longC : ¬ c.length < 1 := by omega
  have seeksB : a.length % 18446744073709551616 ≠ 1 := by omega
  have seeksC : (1 + b.length) % 18446744073709551616 ≠ 2 := by omega
  have wrapped : (a.length + b.length + c.length) % 18446744073709551616 = 3 := by omega
  simp [downloadTo, floodedEvents, Machine.run, Machine.next, machine, start, byteReader, new, withChunkSize,
    withWindowCapacity, spawnReadRequests, spawn, nextRequest, ReaderState.init, nextChunkLen, Words.wrapping, react,
    complete, ReadReply.result, receive, store, stored, again, Destination.empty, Destination.seek, Destination.writeAll,
    finish, someA, someB, someC, longA, longB, longC, seeksB, seeksC, wrapped]
  exact ⟨_, rfl, rfl⟩

theorem spawn_unknown {r : PipelinedDownloadReader} (unknown : r.bytesTotal = none) (room : Nat) (s : ReaderState)
    (queue : s.retryRanges = []) (more : s.eofReached = false) (below : s.nextRequestOffset < 2 ^ 64) :
    (r.spawn .wrapping room s).inFlight = s.inFlight ++
        (List.range room).map (fun k => ⟨(s.nextRequestOffset + k * r.chunkSize) % 2 ^ 64, r.chunkSize⟩) ∧
      (r.spawn .wrapping room s).retryRanges = [] ∧ (r.spawn .wrapping room s).eofReached = false ∧
      (r.spawn .wrapping room s).destination = s.destination ∧ (r.spawn .wrapping room s).bytesDone = s.bytesDone ∧
      (r.spawn .wrapping room s).currentOffset = s.currentOffset := by
  induction room generalizing s with
  | zero => simp [spawn, queue, more]
  | succ room ih =>
    have next : r.nextRequest .wrapping s = some (⟨s.nextRequestOffset, r.chunkSize⟩,
        { s with nextRequestOffset := (s.nextRequestOffset + r.chunkSize) % 2 ^ 64 }) := by
      unfold nextRequest
      simp [queue, more, unknown, Words.wrapping]
    unfold spawn
    simp only [next]
    obtain ⟨flying, rest⟩ := ih (issue { s with nextRequestOffset := (s.nextRequestOffset + r.chunkSize) % 2 ^ 64 }
      ⟨s.nextRequestOffset, r.chunkSize⟩) queue more (Nat.mod_lt _ (by decide))
    refine ⟨flying.trans ?_, rest⟩
    simp only [issue, List.append_assoc, List.singleton_append, List.range_succ_eq_map, List.map_cons, List.map_map]
    congr 2
    · rw [Nat.zero_mul, Nat.add_zero, Nat.mod_eq_of_lt below]
    · refine List.map_congr_left fun k _ => ?_
      simp only [Function.comp_apply, Nat.mod_add_mod, Nat.succ_mul]
      congr 2
      omega

theorem drain_one {r : PipelinedDownloadReader} (unknown : r.bytesTotal = none) {s : ReaderState} {chunk : Range}
    {rest : List Range} (flying : s.inFlight = chunk :: rest) (queue : s.retryRanges = []) :
    (r.machine .wrapping).next (.running s) (.completed 0 .eof .stored) =
      .running { s with inFlight := rest, eofReached := true } := by
  have dry : ∀ (room : Nat) (s : ReaderState), s.retryRanges = [] → s.eofReached = true → r.spawn .wrapping room s = s := by
    intro room s queue eof
    cases room with
    | zero => rfl
    | succ room => simp [spawn, nextRequest, queue, eof]
  simp [Machine.next, machine, react, flying, complete, ReadReply.result, receive, unknown, store, again,
    spawnReadRequests, dry, queue]

/-- The server that serves `file` may answer like this, and the download gets from one state to the other. -/
def Leads (r : PipelinedDownloadReader) (file : List UInt8) (d : Download) (events : List ReadEvent) (d' : Download) : Prop :=
  (r.machine .wrapping).Admissible (Honest file) d events ∧ (r.machine .wrapping).run d events = d'

theorem Leads.trans {r : PipelinedDownloadReader} {file : List UInt8} {d d' d'' : Download} {before after : List ReadEvent}
    (h : r.Leads file d before d') (k : r.Leads file d' after d'') : r.Leads file d (before ++ after) d'' := by
  obtain ⟨fair, rfl⟩ := h
  refine ⟨((r.machine .wrapping).admissible_append d before after).mpr ⟨fair, k.1⟩, ?_⟩
  rw [Machine.run_append]
  exact k.2

theorem Leads.step {r : PipelinedDownloadReader} {file : List UInt8} {d d' : Download} {event : ReadEvent}
    (fair : Honest file d event) (h : (r.machine .wrapping).next d event = d') : r.Leads file d [event] d' :=
  ⟨⟨fair, trivial⟩, h⟩

theorem drain {r : PipelinedDownloadReader} (unknown : r.bytesTotal = none) (file : List UInt8) (before : List Range)
    {after : List Range} (behind : ∀ x ∈ before, file.length ≤ x.start) {s : ReaderState}
    (flying : s.inFlight = before ++ after) (queue : s.retryRanges = []) (some_ : before ≠ []) :
    ∃ t, r.Leads file (.running s) (List.replicate before.length (.completed 0 .eof .stored)) (.running t) ∧
      t.inFlight = after ∧ t.retryRanges = [] ∧ t.eofReached = true ∧ t.bytesDone = s.bytesDone := by
  induction before generalizing s with
  | nil => exact absurd rfl some_
  | cons x xs ih =>
    have first : r.Leads file (.running s) [.completed 0 .eof .stored]
        (.running { s with inFlight := xs ++ after, eofReached := true }) := by
      refine .step ?_ (drain_one unknown flying queue)
      intro chunk found
      rw [flying] at found
      cases found
      exact behind x List.mem_cons_self
    cases xs with
    | nil => exact ⟨_, first, rfl, queue, rfl, rfl⟩
    | cons y ys =>
      have behind' : ∀ z ∈ y :: ys, file.length ≤ z.start := fun z hz => behind z (List.mem_cons_of_mem x hz)
      obtain ⟨t, rest, flight, none_, dry, bytes⟩ :=
        ih behind' (s := { s with inFlight := (y :: ys) ++ after, eofReached := true }) rfl queue (by simp)
      exact ⟨t, first.trans rest, flight, none_, dry, bytes⟩

theorem one_byte {r : PipelinedDownloadReader} (unknown : r.bytesTotal = none) (large : 2 ≤ r.chunkSize)
    {s : ReaderState} {rest : List Range} (flying : s.inFlight = ⟨0, r.chunkSize⟩ :: rest) (queue : s.retryRanges = [])
    (window : rest.length + 1 ≤ r.windowCapacity) (calm : s.eofReached = true ∨ rest.length + 1 = r.windowCapacity) :
    ∃ t, r.Leads [7] (.running s) [.completed 0 (.data [7]) .stored] (.running t) ∧
      t.inFlight = rest ++ [⟨1, r.chunkSize - 1⟩] ∧ t.retryRanges = [] ∧ t.eofReached = s.eofReached ∧
      t.bytesDone = (s.bytesDone + 1) % 2 ^ 64 := by
  set t := issue { s with inFlight := rest } ⟨1, r.chunkSize - 1⟩ with ht
  have word := r.chunk_lt
  have still : ∀ u : ReaderState, u.retryRanges = [] → u.inFlight = t.inFlight → u.eofReached = s.eofReached →
      r.spawnReadRequests .wrapping u = u := by
    intro u none_ same eof
    have length : u.inFlight.length = rest.length + 1 := by simp [same, t, issue]
    unfold spawnReadRequests
    rw [length]
    rcases calm with dry | full
    · cases r.windowCapacity - (rest.length + 1) with
      | zero => rfl
      | succ room => simp [spawn, nextRequest, none_, eof, dry]
    · rw [full, Nat.sub_self]
      rfl
  have receipt : r.receive .wrapping { s with inFlight := rest } ⟨0, r.chunkSize⟩ [7] =
      .ok { s with inFlight := rest, retryRanges := [⟨1, r.chunkSize - 1⟩] } := by
    have short : 1 < r.chunkSize := large
    have chunk64 : r.chunkSize % 18446744073709551616 = r.chunkSize := Nat.mod_eq_of_lt (by omega)
    have tail32 : (r.chunkSize - 1) % 4294967296 = r.chunkSize - 1 := Nat.mod_eq_of_lt (by omega)
    simp [receive, unknown, Words.wrapping, short, chunk64, tail32, queue]
  have spawned : r.spawnReadRequests .wrapping { s with inFlight := rest, retryRanges := [⟨1, r.chunkSize - 1⟩] } = t := by
    obtain ⟨room, hr⟩ := Nat.exists_eq_add_of_le window
    have first : r.spawnReadRequests .wrapping { s with inFlight := rest, retryRanges := [⟨1, r.chunkSize - 1⟩] } =
        r.spawn .wrapping room t := by
      unfold spawnReadRequests
      rw [show r.windowCapacity - rest.length = room + 1 by omega]
      simp [spawn, nextRequest, t, issue, queue]
    have same := still t queue rfl rfl
    unfold spawnReadRequests at same
    rw [show r.windowCapacity - t.inFlight.length = room by simp [t, issue]; omega] at same
    rw [first, same]
  have kept := still (stored .wrapping t ⟨0, r.chunkSize⟩ [7] (aimed t ⟨0, r.chunkSize⟩)) queue rfl rfl
  refine ⟨stored .wrapping t ⟨0, r.chunkSize⟩ [7] (aimed t ⟨0, r.chunkSize⟩), .step ?_ ?_, rfl, queue, rfl, rfl⟩
  · intro chunk found
    rw [flying] at found
    cases found
    refine ⟨?_, fun empty => absurd empty (List.cons_ne_nil _ _)⟩
    obtain ⟨k, hk⟩ := Nat.exists_eq_succ_of_ne_zero r.chunk_pos.ne'
    simp [hk]
  show r.react .wrapping s (.completed 0 (.data [7]) .stored) = _
  simp only [react, flying, List.getElem?_cons_zero, List.eraseIdx_cons_zero, complete, ReadReply.result]
  rw [receipt]
  dsimp only
  rw [spawned]
  rcases store_cases .wrapping t ⟨0, r.chunkSize⟩ [7] .stored with ⟨empty, _⟩ | ⟨_, done | ⟨_, _, failed, _⟩⟩
  · cases empty
  · rw [done]
    simp only [again, kept]
  · simp only [store] at failed
    cases failed

def wideEvents (n : Nat) : List ReadEvent :=
  [.completed 0 (.data [7]) .stored] ++ List.replicate n (.completed 0 .eof .stored) ++
    [.completed 0 (.data [7]) .stored] ++ List.replicate 2 (.completed 0 .eof .stored) ++ [.finish .closed]

theorem wide_succeeds {r : PipelinedDownloadReader} (unknown : r.bytesTotal = none) (large : 2 ≤ r.chunkSize) {n : Nat}
    (some_ : 0 < n) (window : r.windowCapacity = n + 2) (around : (n + 1) * r.chunkSize = 2 ^ 64) :
    (r.machine .wrapping).Admissible (Honest [7]) (r.start .wrapping) (wideEvents n) ∧
      ∃ s, r.downloadTo .wrapping (wideEvents n) = .ended s (.ok 2) := by
  obtain ⟨flying, queue, more, destination, bytes, current⟩ :=
    spawn_unknown unknown (n + 2) .init rfl rfl (by decide)
  set s := r.spawn .wrapping (n + 2) .init with hs
  have begin_ : r.start .wrapping = .running s := by
    unfold start spawnReadRequests
    rw [window, if_neg (by simp [unknown])]
    rfl
  obtain ⟨mid, length, behind, flying⟩ : ∃ mid : List Range, mid.length = n ∧ (∀ x ∈ mid, [(7 : UInt8)].length ≤ x.start) ∧
      s.inFlight = ⟨0, r.chunkSize⟩ :: (mid ++ [⟨0, r.chunkSize⟩]) := by
    refine ⟨(List.range n).map (fun k => ⟨(k + 1) * r.chunkSize, r.chunkSize⟩), by simp, ?_, ?_⟩
    · intro x hx
      obtain ⟨k, _, rfl⟩ := List.mem_map.mp hx
      exact Nat.mul_pos k.succ_pos r.chunk_pos
    · rw [flying, List.range_succ, List.range_succ_eq_map]
      simp only [ReaderState.init, List.nil_append, List.map_append, List.map_cons, List.map_nil, List.map_map,
        Nat.zero_mul, Nat.zero_add, List.cons_append, around, Nat.mod_self, Nat.zero_mod]
      congr 2
      refine List.map_congr_left fun k hk => ?_
      have below : (k + 1) * r.chunkSize < (n + 1) * r.chunkSize :=
        Nat.mul_lt_mul_of_pos_right (by simpa using hk) r.chunk_pos
      rw [around] at below
      simp only [Function.comp_apply, Nat.succ_eq_add_one, Nat.mod_eq_of_lt below]
  have midSome : mid ≠ [] := by
    rintro rfl
    simp at length
    omega
  -- The first copy of the byte, the empty replies behind it, the second copy, and the two tails.
  obtain ⟨s₁, first, flying₁, queue₁, _, bytes₁⟩ :=
    one_byte unknown large flying queue (by simp [length, window]) (Or.inr (by simp [length, window]))
  obtain ⟨s₂, second, flying₂, queue₂, dry₂, bytes₂⟩ :=
    drain unknown _ mid behind (flying₁.trans (List.append_assoc _ _ _)) queue₁ midSome
  obtain ⟨s₃, third, flying₃, queue₃, _, bytes₃⟩ :=
    one_byte unknown large flying₂ queue₂ (by simp [window]) (Or.inl dry₂)
  obtain ⟨s₄, fourth, flying₄, _, _, bytes₄⟩ :=
    drain unknown [7] [⟨1, r.chunkSize - 1⟩, ⟨1, r.chunkSize - 1⟩] (by simp) flying₃ queue₃ (by simp)
  have two : s₄.bytesDone = 2 := by
    rw [bytes₄, bytes₃, bytes₂, bytes₁, bytes]
    rfl
  have last : r.Leads [7] (.running s₄) [.finish .closed] (.ended s₄ (.ok 2)) := by
    refine .step trivial ?_
    show r.react .wrapping s₄ (.finish .closed) = _
    simp [react, flying₄, finish, unknown, two]
  rw [length] at second
  have whole := (((first.trans second).trans third).trans fourth).trans last
  unfold downloadTo
  rw [begin_]
  exact ⟨whole.1, s₄, whole.2⟩

def wideReader : PipelinedDownloadReader :=
  ((new none unknown_lt).withChunkSize (2 ^ 31) (by decide)).withWindowCapacity (2 ^ 33 + 1)

/-- Three replies that together wrap the byte counter, and a window that wraps the request cursor. -/
theorem pipelined_download_wraps :
    (∃ s, byteReader.downloadTo .wrapping (floodedEvents (List.replicate (2 ^ 63 - 1) 0) (List.replicate (2 ^ 63 - 1) 0)
        (List.replicate 5 0)) = .ended s (.ok 3) ∧ ¬ ∀ i < 3, hits s.destination.writes i = 1) ∧
      (wideReader.machine .wrapping).Admissible (Honest [7]) (wideReader.start .wrapping) (wideEvents (2 ^ 33 - 1)) ∧
        ∃ s, wideReader.downloadTo .wrapping (wideEvents (2 ^ 33 - 1)) = .ended s (.ok 2) := by
  constructor
  · have long : ∀ n : Nat, (List.replicate n (0 : UInt8)).length = n := fun n => List.length_replicate
    obtain ⟨s, done, writes⟩ := flooded_succeeds (a := List.replicate (2 ^ 63 - 1) 0) (b := List.replicate (2 ^ 63 - 1) 0)
      (c := List.replicate 5 0) (by rw [long]; decide) (by rw [long]; decide) (by rw [long]; decide)
      (by rw [long, long]; decide)
    refine ⟨s, done, fun once => ?_⟩
    have twice := once 1 (by decide)
    rw [writes, long, long, hits_head, hits_singleton, if_pos (by decide), hits_head, hits_singleton,
      if_pos (by decide)] at twice
    omega
  · exact wide_succeeds rfl (by decide) (by decide) (by decide) (by decide)

end PipelinedDownloadReader

end MacSftp
