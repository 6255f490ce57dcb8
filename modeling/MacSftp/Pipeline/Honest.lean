import MacSftp.Pipeline.Download

namespace MacSftp

open Lib

namespace PipelinedDownloadReader

variable {words : Words} {r : PipelinedDownloadReader} {s s' : ReaderState} {chunk : Range} {data file : List UInt8}
  {limit : Nat}

/-- How a server that serves `file` answers: part of what was asked for, and nothing only at or behind the end. -/
def Answers (file : List UInt8) (chunk : Range) : ReadReply → Prop
  | .data bytes => bytes <+: (file.drop chunk.start).take chunk.length ∧ (bytes = [] → file.length ≤ chunk.start)
  | .eof => file.length ≤ chunk.start
  | .failed _ => True

def Honest (file : List UInt8) : Download → ReadEvent → Prop
  | .running s, .completed index reply _ => ∀ chunk, s.inFlight[index]? = some chunk → Answers file chunk reply
  | _, _ => True

instance (file : List UInt8) (chunk : Range) : (reply : ReadReply) → Decidable (Answers file chunk reply)
  | .data _ => inferInstanceAs (Decidable (_ ∧ _))
  | .eof => inferInstanceAs (Decidable (_ ≤ _))
  | .failed _ => isTrue trivial

instance (file : List UInt8) : (d : Download) → (event : ReadEvent) → Decidable (Honest file d event)
  | .running s, .completed index reply _ =>
    inferInstanceAs (Decidable (∀ chunk ∈ s.inFlight[index]?, Answers file chunk reply))
  | .running _, .cancelled => isTrue trivial
  | .running _, .joinFailed => isTrue trivial
  | .running _, .finish _ => isTrue trivial
  | .ended _ _, _ => isTrue trivial

/-- While the end has not been seen, all requests beyond it are still in flight. -/
structure Ahead (r : PipelinedDownloadReader) (size : Nat) (s : ReaderState) : Prop where
  beyond : s.eofReached = false →
    s.nextRequestOffset ≤ size + r.chunkSize * (1 + s.inFlight.countP (fun x => size ≤ x.start))
  reached : s.eofReached = true → size ≤ s.nextRequestOffset

def Reach (r : PipelinedDownloadReader) (size limit : Nat) (s : ReaderState) : Prop :=
  r.bytesTotal = some size ∧ limit = size ∧ s.eofReached = false ∨
    r.bytesTotal = none ∧ limit = size + r.chunkSize * (r.windowCapacity + 1) ∧ r.Ahead size s

structure Tracks (r : PipelinedDownloadReader) (file : List UInt8) (limit : Nat) (held : List Range) (s : ReaderState) :
    Prop where
  bounded : r.Bounded limit s
  exactly : Exactly file.length held s
  counted : Counted s
  copied : Agrees file file.length s.destination.file s.destination.writes
  reach : r.Reach file.length limit s

theorem Reach.room {size : Nat} (reach : r.Reach size limit s) (slot : s.inFlight.length < r.windowCapacity) :
    s.retryRanges = [] → s.eofReached = false → (∀ total, r.bytesTotal = some total → s.nextRequestOffset < total) →
      s.nextRequestOffset + r.freshLen s ≤ limit := by
  intro none_ open_ more
  rcases reach with ⟨known, rfl, _⟩ | ⟨unknown, rfl, ahead⟩
  · exact sized_room known none_ open_ more
  · have beyond := ahead.beyond open_
    have flights := List.countP_le_length (p := fun x : Range => decide (size ≤ x.start)) (l := s.inFlight)
    have grows : r.chunkSize * (1 + s.inFlight.countP (fun x => size ≤ x.start)) + r.chunkSize ≤
        r.chunkSize * (r.windowCapacity + 1) := by
      rw [← Nat.mul_succ]
      exact Nat.mul_le_mul_left _ (by omega)
    have fresh : r.freshLen s ≤ r.chunkSize := freshLen_le
    omega

theorem Reach.issue {size : Nat} {x : Range} (small : limit < 2 ^ 64) (reach : r.Reach size limit s)
    (slot : s.inFlight.length < r.windowCapacity) (h : r.nextRequest words s = some (x, s')) :
    r.Reach size limit (issue s' x) := by
  have eof := (nextRequest_frame h).2.2.2.1
  have room := reach.room slot
  rcases reach with ⟨known, rfl, open_⟩ | ⟨unknown, rfl, ahead⟩
  · exact Or.inl ⟨known, rfl, eof.trans open_⟩
  · refine Or.inr ⟨unknown, rfl, ?_⟩
    rcases nextRequest_exact small room h with ⟨rest, _, rfl⟩ | ⟨_, open_, _, rfl, _, rfl⟩
    · refine ⟨fun open_ => (ahead.beyond open_).trans ?_, ahead.reached⟩
      refine Nat.add_le_add_left (Nat.mul_le_mul_left _ (Nat.add_le_add_left ?_ 1)) size
      simp only [PipelinedDownloadReader.issue, List.countP_append]
      exact Nat.le_add_right _ _
    · have whole : r.freshLen s = r.chunkSize := by simp [freshLen, unknown]
      have beyond := ahead.beyond open_
      refine ⟨fun _ => ?_, fun eof => absurd (show s.eofReached = true from eof) (by simp [open_])⟩
      show s.nextRequestOffset + r.freshLen s ≤
        size + r.chunkSize * (1 + List.countP (fun x : Range => decide (size ≤ x.start))
          (s.inFlight ++ [⟨s.nextRequestOffset, r.freshLen s⟩]))
      rw [whole, List.countP_append]
      by_cases passed : size ≤ s.nextRequestOffset
      · have one : List.countP (fun x : Range => decide (size ≤ x.start)) [⟨s.nextRequestOffset, r.chunkSize⟩] = 1 := by
          simp [passed]
        rw [one, ← Nat.add_assoc, Nat.mul_succ]
        omega
      · have first : r.chunkSize ≤ r.chunkSize * (1 + (s.inFlight.countP (fun x => size ≤ x.start) +
            List.countP (fun x : Range => decide (size ≤ x.start)) [⟨s.nextRequestOffset, r.chunkSize⟩])) :=
          Nat.le_mul_of_pos_right _ (by omega)
        omega

theorem Tracks.issue {held : List Range} {x : Range} (small : limit < 2 ^ 64) (t : r.Tracks file limit held s)
    (slot : s.inFlight.length < r.windowCapacity) (h : r.nextRequest words s = some (x, s')) :
    r.Tracks file limit held (issue s' x) where
  bounded := t.bounded.issue small slot (t.reach.room slot) h
  exactly := t.exactly.issue small (t.reach.room slot) h
  counted := t.counted.issue h
  copied := by
    show Agrees file file.length s'.destination.file s'.destination.writes
    rw [(nextRequest_frame h).1]
    exact t.copied
  reach := t.reach.issue small slot h

theorem Tracks.spawn (words : Words) {held : List Range} (small : limit < 2 ^ 64) (t : r.Tracks file limit held s) :
    r.Tracks file limit held (r.spawnReadRequests words s) :=
  spawnReadRequests_rule (fun _ _ _ now slot next => now.issue small slot next) t t.bounded.window

theorem Answers.bounds {reply : ReadReply} (answers : Answers file chunk reply) (h : reply.result = .ok data) :
    data <+: (file.drop chunk.start).take chunk.length ∧ (data = [] → file.length ≤ chunk.start) := by
  cases reply with
  | data bytes =>
    cases h
    exact answers
  | eof =>
    cases h
    exact ⟨List.nil_prefix, fun _ => answers⟩
  | failed guidance => cases h

theorem prefix_bounds (part : data <+: (file.drop chunk.start).take chunk.length) :
    data.length ≤ chunk.length ∧ (data ≠ [] → chunk.start + data.length ≤ file.length) := by
  have length := part.length_le
  rw [List.length_take, List.length_drop] at length
  refine ⟨by omega, fun some_ => ?_⟩
  have positive := List.length_pos_iff.mpr some_
  omega

theorem Tracks.receive {index : Nat} (small : limit < 2 ^ 64) (t : r.Tracks file limit [] s)
    (found : s.inFlight[index]? = some chunk) (part : data <+: (file.drop chunk.start).take chunk.length)
    (dry : data = [] → file.length ≤ chunk.start) (h : r.receive words (taken s index) chunk data = .ok s') :
    r.Tracks file limit [arrived chunk data] s' := by
  have flying := t.bounded.flying chunk (List.mem_of_getElem? found)
  have asked := flying.mono t.bounded.next_le
  have within : ∀ total, r.bytesTotal = some total → chunk.stop ≤ total := by
    intro total is
    rcases t.reach with ⟨known, rfl, _⟩ | ⟨unknown, _⟩
    · rw [known] at is
      cases is
      exact asked.stop
    · rw [unknown] at is
      cases is
  have held := t.exactly.taken found
  have destination := receive_destination h
  obtain ⟨fits, _⟩ := prefix_bounds part
  refine ⟨(t.bounded.taken index).receive small flying within h, held.receive small asked within fits dry h, ?_, ?_, ?_⟩
  · have bytes : s'.bytesDone = s.bytesDone := by
      rcases receive_cases small asked within h with ⟨_, rfl, _⟩ | ⟨_, _, rfl⟩ | ⟨_, rfl⟩ <;> rfl
    intro few
    rw [destination] at few ⊢
    exact bytes.trans (t.counted few)
  · rw [destination]
    exact t.copied
  · rcases t.reach with ⟨known, rfl, open_⟩ | ⟨unknown, rfl, ahead⟩
    · refine Or.inl ⟨known, rfl, ?_⟩
      rcases receive_cases small asked within h with ⟨_, _, unknown⟩ | ⟨_, _, rfl⟩ | ⟨_, rfl⟩
      · rw [known] at unknown
        cases unknown
      · exact open_
      · exact open_
    · refine Or.inr ⟨unknown, rfl, ?_⟩
      have stop : chunk.start + chunk.length ≤ s.nextRequestOffset := flying.stop
      -- Only an empty reply takes a request beyond the end out of flight, and that one sets the flag.
      have kept : data ≠ [] → (taken s index).inFlight.countP (fun x => file.length ≤ x.start) =
          s.inFlight.countP (fun x => file.length ≤ x.start) := by
        intro some_
        have inside := (prefix_bounds part).2 some_
        have positive := List.length_pos_iff.mpr some_
        rw [(taken_perm found).countP_eq, List.countP_cons_of_neg]
        simp only [decide_eq_true_eq]
        omega
      have still : data ≠ [] → r.Ahead file.length (taken s index) := by
        intro some_
        refine ⟨fun open_ => ?_, ahead.reached⟩
        rw [kept some_]
        exact ahead.beyond open_
      rcases receive_cases small asked within h with ⟨empty, rfl, _⟩ | ⟨some_, _, rfl⟩ | ⟨long, rfl⟩
      · refine ⟨fun open_ => Bool.noConfusion open_, fun _ => ?_⟩
        have behind := dry empty
        show file.length ≤ s.nextRequestOffset
        omega
      · exact ⟨(still some_).beyond, (still some_).reached⟩
      · refine still ?_
        rintro rfl
        have positive := asked.pos
        rw [List.length_nil] at long
        omega

theorem Tracks.stored (small : file.length < 2 ^ 64) (t : r.Tracks file limit [arrived chunk data] s) (some_ : data ≠ [])
    (part : data <+: (file.drop chunk.start).take chunk.length) :
    r.Tracks file limit [] (stored words s chunk data (aimed s chunk)) := by
  have below := (prefix_bounds part).2 some_
  have cursor : (aimed s chunk).cursor = chunk.start := aimed_cursor t.exactly.cursor
  refine ⟨⟨t.bounded.queued, t.bounded.flying, t.bounded.sent, t.bounded.window, t.bounded.next_le⟩,
    t.exactly.stored small some_ below, counted_stored t.counted, ?_, ?_⟩
  · have written := t.copied.write 0 (part.trans (List.take_prefix _ _)) below
    show Agrees file file.length (overwrite 0 (aimed s chunk).file (aimed s chunk).cursor data)
      ((aimed s chunk).writes ++ [⟨(aimed s chunk).cursor, data.length⟩])
    rw [aimed_file, aimed_writes, cursor]
    exact written
  · rcases t.reach with ⟨known, rfl, open_⟩ | ⟨unknown, rfl, ahead⟩
    · exact Or.inl ⟨known, rfl, open_⟩
    · exact Or.inr ⟨unknown, rfl, ahead.beyond, ahead.reached⟩

theorem Tracks.nothing (t : r.Tracks file limit [arrived chunk []] s) : r.Tracks file limit [] s := by
  refine ⟨t.bounded, ⟨fun i hi => ?_, t.exactly.inside, t.exactly.cursor⟩, t.counted, t.copied, t.reach⟩
  have once := t.exactly.once i hi
  rw [pieces_held, hits_head, arrived, List.length_nil, hits_singleton, if_neg (by omega), Nat.zero_add] at once
  exact once

/-- The invariant of a download from a server that serves `file`. -/
def Serves (words : Words) (r : PipelinedDownloadReader) (file : List UInt8) (limit : Nat) : Download → Prop
  | .running s => r.Tracks file limit [] s ∧ r.Idle words s
  | .ended s (.ok n) => r.Tracks file limit [] s ∧ r.Idle words s ∧ s.inFlight = [] ∧ n = s.bytesDone
  | .ended _ (.error _) => True

theorem limit_small (t : r.Tracks file limit [] s) (small : limit < 2 ^ 64) : file.length < 2 ^ 64 := by
  rcases t.reach with ⟨_, rfl, _⟩ | ⟨_, rfl, _⟩
  · exact small
  · omega

theorem complete_serves {index : Nat} (small : limit < 2 ^ 64) (t : r.Tracks file limit [] s)
    (found : s.inFlight[index]? = some chunk) {reply : ReadReply} (answers : Answers file chunk reply)
    (disk : DiskOutcome) : r.Serves words file limit (r.complete words (taken s index) chunk reply disk) := by
  unfold complete
  split
  · trivial
  rename_i data result
  split
  · trivial
  rename_i s' received
  obtain ⟨part, dry⟩ := answers.bounds result
  have arrived_ := (t.receive small found part dry received).spawn words small
  rcases store_cases words (r.spawnReadRequests words s') chunk data disk with
    ⟨empty, same⟩ | ⟨some_, stored_ | ⟨s'', error, stopped, _⟩⟩
  · rw [same]
    rw [empty] at arrived_
    exact ⟨arrived_.nothing.spawn words small, spawnReadRequests_idle⟩
  · rw [stored_]
    exact ⟨(arrived_.stored (limit_small t small) some_ part).spawn words small, spawnReadRequests_idle⟩
  · rw [stopped]
    trivial

theorem react_serves (small : limit < 2 ^ 64) (t : r.Tracks file limit [] s) (idle : r.Idle words s) {event : ReadEvent}
    (honest : Honest file (.running s) event) : r.Serves words file limit (r.react words s event) := by
  cases event with
  | cancelled => trivial
  | joinFailed =>
    simp only [react]
    split
    · exact ⟨t, idle⟩
    · trivial
  | completed index reply disk =>
    simp only [react]
    split
    · exact ⟨t, idle⟩
    · exact complete_serves small t ‹_› (honest _ ‹_›) disk
  | finish outcome =>
    simp only [react]
    split
    · unfold finish
      split
      · trivial
      · cases outcome with
        | closed => exact ⟨t, idle, ‹_›, rfl⟩
        | stopped cause => trivial
        | progressRefused => trivial
    · exact ⟨t, idle⟩

theorem init_tracks (reach : r.Reach file.length limit .init) : r.Tracks file limit [] .init where
  bounded := init_bounded limit
  exactly := by
    refine ⟨fun i _ => ?_, fun x hx => absurd hx List.not_mem_nil, fun position at_ => by cases at_⟩
    simp [pieces, ReaderState.init, Destination.empty]
  counted _ := rfl
  copied := agrees_nil file file.length
  reach := reach

theorem downloadTo_serves (small : limit < 2 ^ 64) (reach : r.Reach file.length limit .init) {events : List ReadEvent}
    (honest : (r.machine words).Admissible (Honest file) (r.start words) events) :
    r.Serves words file limit (r.downloadTo words events) := by
  refine (r.machine words).admissible_invariant ?_ ?_ events honest
  · intro d event fair holds
    cases d with
    | running s => exact react_serves small holds.1 holds.2 fair
    | ended s result => exact holds
  · unfold start
    split
    · exact ⟨init_tracks reach, init_idle ‹_›⟩
    · exact ⟨(init_tracks reach).spawn words small, spawnReadRequests_idle⟩

theorem Tracks.done (t : r.Tracks file limit [] s) (idle : r.Idle words s) (empty : s.inFlight = []) :
    s.destination.file = file ∧ Tiles s.destination.writes file.length := by
  obtain ⟨noRetry, stopped⟩ := nextRequest_none (idle empty)
  have reached : file.length ≤ s.nextRequestOffset := by
    rcases t.reach with ⟨known, rfl, open_⟩ | ⟨unknown, rfl, ahead⟩
    · rcases stopped with eof | ⟨total, is, reached⟩
      · rw [open_] at eof
        cases eof
      · rw [known] at is
        cases is
        exact reached
    · rcases stopped with eof | ⟨total, is, _⟩
      · exact ahead.reached eof
      · rw [unknown] at is
        cases is
  have all : pieces [] s = s.destination.writes := by simp [pieces, noRetry, empty]
  have once : ∀ i < file.length, hits s.destination.writes i = 1 := by
    intro i below
    have covered := t.exactly.once i below
    rwa [all, if_neg (by omega), Nat.add_zero] at covered
  refine ⟨?_, tiles_of_inside once fun x hx => (t.exactly.inside x hx).2⟩
  rw [t.copied.eq_take once, List.take_length]

theorem downloadTo_honest (small : limit < 2 ^ 64) (reach : r.Reach file.length limit .init) {events : List ReadEvent}
    (honest : (r.machine words).Admissible (Honest file) (r.start words) events) {n : Nat}
    (h : r.downloadTo words events = .ended s (.ok n)) :
    n = file.length ∧ s.destination.file = file ∧ Tiles s.destination.writes file.length := by
  have serves := downloadTo_serves small reach honest
  rw [h] at serves
  obtain ⟨t, idle, empty, bytes⟩ := serves
  obtain ⟨copied, tiles⟩ := t.done idle empty
  refine ⟨?_, copied, tiles⟩
  have whole := tiles.total_eq fun x hx => (t.exactly.inside x hx).1
  rw [bytes, t.counted (by rw [whole]; exact limit_small t small), whole]

end PipelinedDownloadReader

end MacSftp
