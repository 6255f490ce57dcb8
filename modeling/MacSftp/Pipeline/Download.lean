import MacSftp.Pipeline.Replies

namespace MacSftp

open Lib

def Download.state : Download → ReaderState
  | .running s => s
  | .ended s _ => s

namespace PipelinedDownloadReader

variable {words : Words} {r : PipelinedDownloadReader} {s s' : ReaderState} {chunk : Range} {data : List UInt8} {size : Nat}

def Counted (s : ReaderState) : Prop :=
  total s.destination.writes < 2 ^ 64 → s.bytesDone = total s.destination.writes

theorem counted_stored (c : Counted s) : Counted (stored words s chunk data (aimed s chunk)) := by
  intro small
  have writes : (stored words s chunk data (aimed s chunk)).destination.writes =
      s.destination.writes ++ [⟨(aimed s chunk).cursor, data.length⟩] := by
    simp [stored, Destination.writeAll, aimed_writes]
  rw [writes, total_append, total_cons, total_nil, Nat.add_zero] at small ⊢
  have before := c (by omega)
  show words.add s.bytesDone data.length = _
  rw [before, words.add_eq _ _ small]

/-- What holds of a download of known size, whatever the server answers. -/
structure Sized (r : PipelinedDownloadReader) (size : Nat) (held : List Range) (s : ReaderState) : Prop where
  bounded : r.Bounded size s
  unfinished : s.eofReached = false
  count : s.requests.length + total s.retryRanges + total s.inFlight + (size - s.nextRequestOffset) ≤
    size + s.inFlight.length
  account : Account size held s
  counted : Counted s

theorem nextRequest_frame {x : Range} (h : r.nextRequest words s = some (x, s')) :
    s'.destination = s.destination ∧ s'.bytesDone = s.bytesDone ∧ s'.currentOffset = s.currentOffset ∧
      s'.eofReached = s.eofReached ∧ s'.inFlight = s.inFlight ∧ s'.requests = s.requests := by
  rcases nextRequest_cases h with ⟨_, _, rfl⟩ | ⟨_, _, _, _, rfl⟩
  · exact ⟨rfl, rfl, rfl, rfl, rfl, rfl⟩
  · exact ⟨rfl, rfl, rfl, rfl, rfl, rfl⟩

theorem Counted.issue {x : Range} (c : Counted s) (h : r.nextRequest words s = some (x, s')) : Counted (issue s' x) := by
  obtain ⟨destination, bytes, _⟩ := nextRequest_frame h
  intro small
  have same : (PipelinedDownloadReader.issue s' x).destination = s.destination := destination
  rw [same] at small ⊢
  exact bytes.trans (c small)

theorem Sized.issue {held : List Range} {x : Range} (known : r.bytesTotal = some size) (sized : r.Sized size held s)
    (slot : s.inFlight.length < r.windowCapacity) (h : r.nextRequest words s = some (x, s')) :
    r.Sized size held (issue s' x) := by
  have small := r.total_lt size known
  refine ⟨sized.bounded.issue small slot (sized_room known) h, ?_, ?_, sized.account.issue known h,
    sized.counted.issue h⟩
  · exact (nextRequest_frame h).2.2.2.1.trans sized.unfinished
  · have count := sized.count
    rcases nextRequest_exact small (sized_room known) h with ⟨rest, queue, rfl⟩ | ⟨none_, _, _, rfl, fits, rfl⟩
    · rw [queue, total_cons] at count
      simp only [PipelinedDownloadReader.issue, List.length_append, List.length_singleton, total_append, total_cons, total_nil]
      omega
    · simp only [PipelinedDownloadReader.issue, List.length_append, List.length_singleton, total_append, total_cons, total_nil]
      omega

theorem Sized.spawn (words : Words) {held : List Range} (known : r.bytesTotal = some size) (sized : r.Sized size held s) :
    r.Sized size held (r.spawnReadRequests words s) :=
  spawnReadRequests_rule (fun _ _ _ now slot next => now.issue known slot next) sized sized.bounded.window

theorem Sized.receive {index : Nat} (known : r.bytesTotal = some size) (sized : r.Sized size [] s)
    (found : s.inFlight[index]? = some chunk) (h : r.receive words (taken s index) chunk data = .ok s') :
    r.Sized size [arrived chunk data] s' := by
  have small := r.total_lt size known
  have flying := sized.bounded.flying chunk (List.mem_of_getElem? found)
  have asked := flying.mono sized.bounded.next_le
  have within := within_size known asked
  have account := (sized.account.taken found asked.stop).receive known asked h
  have bounded := (sized.bounded.taken index).receive small flying within h
  have count := sized.count
  have flight := total_perm (taken_perm found)
  have flights := (taken_perm found).length_eq
  have positive := asked.pos
  rw [total_cons] at flight
  rw [List.length_cons] at flights
  rcases receive_cases small asked within h with ⟨_, _, unknown⟩ | ⟨some_, short, rfl⟩ | ⟨long, rfl⟩
  · rw [known] at unknown
    cases unknown
  · refine ⟨bounded, sized.unfinished, ?_, account, sized.counted⟩
    have received := List.length_pos_iff.mpr some_
    show s.requests.length + total (s.retryRanges ++ [rest chunk data.length]) + total (taken s index).inFlight +
      (size - s.nextRequestOffset) ≤ size + (taken s index).inFlight.length
    simp only [total_append, total_cons, total_nil, rest]
    omega
  · refine ⟨bounded, sized.unfinished, ?_, account, sized.counted⟩
    show s.requests.length + total s.retryRanges + total (taken s index).inFlight +
      (size - s.nextRequestOffset) ≤ size + (taken s index).inFlight.length
    omega

theorem Sized.stored (known : r.bytesTotal = some size) (sized : r.Sized size [arrived chunk data] s) (some_ : data ≠ []) :
    r.Sized size [] (stored words s chunk data (aimed s chunk)) where
  bounded := ⟨sized.bounded.queued, sized.bounded.flying, sized.bounded.sent, sized.bounded.window, sized.bounded.next_le⟩
  unfinished := sized.unfinished
  count := sized.count
  account := sized.account.stored (r.total_lt size known) some_
  counted := counted_stored sized.counted

theorem length_le_total {ranges : List Range} (proper : ∀ x ∈ ranges, 0 < x.length) : ranges.length ≤ total ranges := by
  induction ranges with
  | nil => exact Nat.zero_le _
  | cons x xs ih =>
    have rest := ih fun y hy => proper y (List.mem_cons_of_mem x hy)
    have first := proper x List.mem_cons_self
    rw [List.length_cons, total_cons]
    omega

/-- The requests of a download are few and never reach beyond its size. -/
structure Frugal (r : PipelinedDownloadReader) (size : Nat) (s : ReaderState) : Prop where
  few : s.requests.length ≤ size
  within : ∀ x ∈ s.requests, r.Asked size x

theorem Sized.frugal {held : List Range} (sized : r.Sized size held s) : r.Frugal size s := by
  have flights := length_le_total fun x hx => (sized.bounded.flying x hx).pos
  have count := sized.count
  refine ⟨by omega, ?_⟩
  exact fun x hx => (sized.bounded.sent x hx).mono sized.bounded.next_le

/-- The invariant of a download of known size. -/
def Sizes (words : Words) (r : PipelinedDownloadReader) (size : Nat) : Download → Prop
  | .running s => r.Sized size [] s ∧ r.Idle words s
  | .ended s (.ok n) => r.Sized size [] s ∧ r.Idle words s ∧ s.inFlight = [] ∧ n = s.bytesDone ∧ n = size
  | .ended s (.error _) => r.Frugal size s

theorem complete_sizes {index : Nat} (known : r.bytesTotal = some size) (sized : r.Sized size [] s)
    (found : s.inFlight[index]? = some chunk) (reply : ReadReply) (disk : DiskOutcome) :
    r.Sizes words size (r.complete words (taken s index) chunk reply disk) := by
  have frugal : r.Frugal size (taken s index) := ⟨sized.frugal.few, sized.frugal.within⟩
  unfold complete
  split
  · exact frugal
  rename_i data _
  split
  · exact frugal
  rename_i s' received
  have arrived_ := (sized.receive known found received).spawn words known
  rcases store_cases words (r.spawnReadRequests words s') chunk data disk with
    ⟨empty, same⟩ | ⟨some_, stored_ | ⟨s'', error, stopped, requests⟩⟩
  · have asked := (sized.bounded.flying chunk (List.mem_of_getElem? found)).mono sized.bounded.next_le
    exact absurd empty (receive_nonempty known asked received)
  · rw [stored_]
    exact ⟨(arrived_.stored known some_).spawn words known, spawnReadRequests_idle⟩
  · rw [stopped]
    show r.Frugal size s''
    exact ⟨requests ▸ arrived_.frugal.few, requests ▸ arrived_.frugal.within⟩

theorem finish_sizes (known : r.bytesTotal = some size) (sized : r.Sized size [] s) (idle : r.Idle words s)
    (empty : s.inFlight = []) (outcome : FinishOutcome) : r.Sizes words size (r.finish s outcome) := by
  unfold finish
  split
  · exact sized.frugal
  rename_i agreed
  have done : s.bytesDone = size := by simpa [known] using agreed
  cases outcome with
  | closed => exact ⟨sized, idle, empty, rfl, done⟩
  | stopped cause => exact sized.frugal
  | progressRefused => exact sized.frugal

theorem react_sizes (known : r.bytesTotal = some size) (sized : r.Sized size [] s) (idle : r.Idle words s)
    (event : ReadEvent) : r.Sizes words size (r.react words s event) := by
  cases event with
  | cancelled => exact sized.frugal
  | joinFailed =>
    simp only [react]
    split
    · exact ⟨sized, idle⟩
    · exact sized.frugal
  | completed index reply disk =>
    simp only [react]
    split
    · exact ⟨sized, idle⟩
    · exact complete_sizes known sized ‹_› reply disk
  | finish outcome =>
    simp only [react]
    split
    · exact finish_sizes known sized idle ‹_› outcome
    · exact ⟨sized, idle⟩

theorem init_sized (size : Nat) : r.Sized size [] .init where
  bounded := init_bounded size
  unfinished := rfl
  count := by simp [ReaderState.init]
  account := by
    refine ⟨by simp [owed, ReaderState.init], fun _ => ⟨⟨?_, ?_, ?_⟩, ?_⟩⟩
    · intro i _
      simp [pieces, ReaderState.init, Destination.empty]
    · exact fun x hx => absurd hx List.not_mem_nil
    · intro position at_
      cases at_
    · exact fun x hx => absurd hx List.not_mem_nil
  counted _ := rfl

theorem init_idle (nothing : r.bytesTotal = some 0) : r.Idle words .init := by
  intro _
  simp [nextRequest, ReaderState.init, nothing]

theorem downloadTo_sizes (words : Words) (known : r.bytesTotal = some size) (events : List ReadEvent) :
    r.Sizes words size (r.downloadTo words events) := by
  refine (r.machine words).run_invariant ?_ ?_ events
  · intro d event holds
    cases d with
    | running s => exact react_sizes known holds.1 holds.2 event
    | ended s result => exact holds
  · unfold start
    split
    · exact ⟨init_sized size, init_idle ‹_›⟩
    · exact ⟨(init_sized size).spawn words known, spawnReadRequests_idle⟩

theorem spawn_frame (room : Nat) : (r.spawn words room s).destination = s.destination ∧
    (r.spawn words room s).bytesDone = s.bytesDone ∧ (r.spawn words room s).currentOffset = s.currentOffset := by
  induction room generalizing s with
  | zero => exact ⟨rfl, rfl, rfl⟩
  | succ room ih =>
    unfold spawn
    split
    · exact ⟨rfl, rfl, rfl⟩
    · rename_i x s' next
      obtain ⟨destination, bytes, current, _⟩ := nextRequest_frame next
      obtain ⟨destination', bytes', current'⟩ := ih (s := issue s' x)
      exact ⟨destination'.trans destination, bytes'.trans bytes, current'.trans current⟩

def received : ReadEvent → Nat
  | .completed _ (.data bytes) _ => bytes.length
  | _ => 0

def written (d : Download) : Nat := total d.state.destination.writes

theorem receive_destination (h : r.receive words s chunk data = .ok s') : s'.destination = s.destination := by
  unfold receive at h
  simp only at h
  split at h
  · split at h
    · cases h
      rfl
    · split at h
      · cases h
      · cases h
        rfl
  · split at h
    · split at h
      · cases h
        rfl
      · cases h
        rfl
    · cases h
      rfl

theorem store_written (words : Words) (s : ReaderState) (chunk : Range) (data : List UInt8) (disk : DiskOutcome) :
    written (store words s chunk data disk) ≤ total s.destination.writes + data.length := by
  have whole : ∀ d : Destination, d.writes = s.destination.writes →
      total (d.writeAll data).writes ≤ total s.destination.writes + data.length := by
    intro d same
    simp [Destination.writeAll, same]
  have aim : (if decide (s.currentOffset ≠ some chunk.start) = true then s.destination.seek chunk.start
      else s.destination).writes = s.destination.writes := by split <;> rfl
  unfold store
  split
  · exact Nat.le_add_right _ _
  cases disk with
  | stored => exact whole _ aim
  | seekStopped cause =>
    dsimp only
    split
    · exact Nat.le_add_right _ _
    · exact whole _ rfl
  | writeStopped count cause =>
    have part : ∀ d : Destination, d.writes = s.destination.writes →
        total (d.writeAll (data.take count)).writes ≤ total s.destination.writes + data.length := by
      intro d same
      simp only [Destination.writeAll, same, total_append, total_cons, total_nil, List.length_take]
      omega
    exact part _ aim
  | progressRefused => exact whole _ aim

theorem react_written (words : Words) (r : PipelinedDownloadReader) (s : ReaderState) (event : ReadEvent) :
    written (r.react words s event) ≤ total s.destination.writes + received event := by
  cases event with
  | cancelled => exact Nat.le_add_right _ _
  | joinFailed =>
    simp only [react]
    split <;> exact Nat.le_add_right _ _
  | completed index reply disk =>
    simp only [react]
    split
    · exact Nat.le_add_right _ _
    unfold complete
    split
    · exact Nat.le_add_right _ _
    rename_i data result
    have length : data.length ≤ received (.completed index reply disk) := by
      cases reply with
      | data bytes =>
        cases result
        exact le_refl _
      | eof =>
        cases result
        exact Nat.zero_le _
      | failed guidance => cases result
    split
    · exact Nat.le_add_right _ _
    rename_i s' receipt
    have same : (r.spawnReadRequests words s').destination = s.destination :=
      (spawn_frame _).1.trans (receive_destination (s := taken s index) receipt)
    have bound := store_written words (r.spawnReadRequests words s') ‹Range› data disk
    rw [same] at bound
    have kept : ∀ d : Download, written (r.again words d) = written d := by
      intro d
      cases d with
      | running s => exact congrArg (fun d => total d.writes) (spawn_frame _).1
      | ended s result => rfl
    rw [kept]
    omega
  | finish outcome =>
    simp only [react]
    split
    · unfold finish
      split
      · exact Nat.le_add_right _ _
      · cases outcome <;> exact Nat.le_add_right _ _
    · exact Nat.le_add_right _ _

theorem downloadTo_written (words : Words) (r : PipelinedDownloadReader) (events : List ReadEvent) :
    written (r.downloadTo words events) ≤ (events.map received).sum := by
  induction events using List.reverseRecOn with
  | nil =>
    unfold downloadTo start
    simp only [Machine.run_nil]
    split
    · exact le_refl _
    · show total (r.spawnReadRequests words .init).destination.writes ≤ 0
      rw [show (r.spawnReadRequests words .init).destination = _ from (spawn_frame _).1]
      exact le_refl _
  | append_singleton before event ih =>
    unfold downloadTo at ih ⊢
    rw [Machine.run_concat, List.map_append, List.sum_append]
    generalize (r.machine words).run (r.start words) before = d at ih ⊢
    cases d with
    | running s =>
      have step := react_written words r s event
      show written (r.react words s event) ≤ _
      simp only [List.map_cons, List.map_nil, List.sum_cons, List.sum_nil]
      exact step.trans (Nat.add_le_add_right ih _)
    | ended s result => exact ih.trans (Nat.le_add_right _ _)

/-- Whatever the server answers: a download of known size that succeeds has stored each byte once. -/
theorem downloadTo_known (known : r.bytesTotal = some size) {events : List ReadEvent}
    (small : (events.map received).sum < 2 ^ 64) {n : Nat} (h : r.downloadTo words events = .ended s (.ok n)) :
    n = size ∧ Exactly size [] s ∧ Tiles s.destination.writes size := by
  have sizes := downloadTo_sizes words known events
  have few := downloadTo_written words r events
  rw [h] at sizes few
  obtain ⟨sized, idle, empty, bytes, done⟩ := sizes
  have counted := sized.counted (lt_of_le_of_lt few small)
  obtain ⟨noRetry, stopped⟩ := nextRequest_none (idle empty)
  have reached : size ≤ s.nextRequestOffset := by
    rcases stopped with eof | ⟨total, is, reached⟩
    · rw [sized.unfinished] at eof
      cases eof
    · rw [known] at is
      cases is
      exact reached
  have all : pieces [] s = s.destination.writes := by simp [pieces, noRetry, empty]
  have exactly := (sized.account.tight (by rw [owed, all]; omega)).1
  refine ⟨done, exactly, tiles_of_inside (fun i below => ?_) fun x hx => (exactly.inside x hx).2⟩
  have once := exactly.once i below
  rwa [all, if_neg (by omega), Nat.add_zero] at once

end PipelinedDownloadReader

end MacSftp
