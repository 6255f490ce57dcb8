import MacSftp.Pipeline.Download

namespace MacSftp

open Lib

namespace PipelinedDownloadReader

variable {words words' : Words} {r : PipelinedDownloadReader} {s s' : ReaderState} {chunk : Range} {data : List UInt8}
  {size : Nat}

def Fitting : Download → ReadEvent → Prop
  | .running s, .completed index (.data bytes) _ => ∀ chunk, s.inFlight[index]? = some chunk → bytes.length ≤ chunk.length
  | _, _ => True

theorem nextRequest_words (words words' : Words) (known : r.bytesTotal = some size) (s : ReaderState) :
    r.nextRequest words s = r.nextRequest words' s := by
  have small := r.total_lt size known
  unfold nextRequest
  split
  · rfl
  split
  · rfl
  split
  · rename_i total is
    split
    · rfl
    · rename_i more
      rw [known] at is
      cases is
      dsimp only
      rw [nextChunkLen_eq words _ r.chunk_lt, nextChunkLen_eq words' _ r.chunk_lt, words.add_eq _ _ (by omega),
        words'.add_eq _ _ (by omega)]
  · rename_i unknown
    rw [known] at unknown
    cases unknown

theorem spawn_words (words words' : Words) (known : r.bytesTotal = some size) (room : Nat) (s : ReaderState) :
    r.spawn words room s = r.spawn words' room s := by
  induction room generalizing s with
  | zero => rfl
  | succ room ih =>
    unfold spawn
    rw [nextRequest_words words words' known s]
    split
    · rfl
    · exact ih _

theorem receive_words (words words' : Words) (asked : r.Asked size chunk) (small : size < 2 ^ 64) :
    r.receive words s chunk data = r.receive words' s chunk data := by
  have stop : chunk.start + chunk.length ≤ size := asked.stop
  have chunkBound := asked.chunk
  have wordBound := r.chunk_lt
  unfold receive
  dsimp only
  split
  · rfl
  split
  · rw [words.add_eq _ _ (by omega), words'.add_eq _ _ (by omega), words.add_eq _ _ (by omega),
      words'.add_eq _ _ (by omega)]
    have cut : r.bytesTotal.elim (chunk.start + chunk.length) (min (chunk.start + chunk.length)) ≤
        chunk.start + chunk.length := by
      cases r.bytesTotal with
      | none => exact le_refl _
      | some total => exact Nat.min_le_left _ _
    rw [words.u32_eq _ (by omega), words'.u32_eq _ (by omega)]
  · rfl

theorem store_words (offset : chunk.start + data.length < 2 ^ 64) (done : s.bytesDone + data.length < 2 ^ 64)
    (disk : DiskOutcome) : store words s chunk data disk = store words' s chunk data disk := by
  have same : ∀ d, stored words s chunk data d = stored words' s chunk data d := by
    intro d
    unfold stored
    rw [words.add_eq _ _ offset, words'.add_eq _ _ offset, words.add_eq _ _ done, words'.add_eq _ _ done]
  unfold store
  dsimp only
  simp only [same]

theorem again_words (known : r.bytesTotal = some size) (d : Download) : r.again words d = r.again words' d := by
  cases d with
  | running s => exact congrArg Download.running (spawn_words words words' known _ s)
  | ended s result => rfl

theorem owed_spawn (words : Words) (held : List Range) (known : r.bytesTotal = some size)
    (window : s.inFlight.length ≤ r.windowCapacity) : owed size held (r.spawnReadRequests words s) = owed size held s := by
  refine spawnReadRequests_rule (P := fun t => owed size held t = owed size held s) ?_ rfl window
  exact fun _ _ _ before _ next => (owed_issue held known next).trans before

instance : (d : Download) → (event : ReadEvent) → Decidable (Fitting d event)
  | .running s, .completed index (.data bytes) _ =>
    inferInstanceAs (Decidable (∀ chunk ∈ s.inFlight[index]?, bytes.length ≤ chunk.length))
  | .running _, .completed _ .eof _ => isTrue trivial
  | .running _, .completed _ (.failed _) _ => isTrue trivial
  | .running _, .cancelled => isTrue trivial
  | .running _, .joinFailed => isTrue trivial
  | .running _, .finish _ => isTrue trivial
  | .ended _ _, _ => isTrue trivial

/-- While no reply has been longer than its request, the pieces of a download of known size add up to that size. -/
def Plain (r : PipelinedDownloadReader) (size : Nat) : Download → Prop
  | .running s => r.Sized size [] s ∧ owed size [] s = size
  | .ended _ _ => True

theorem stored_bounds (sized : r.Sized size [arrived chunk data] s) (balanced : owed size [arrived chunk data] s = size)
    (small : size < 2 ^ 64) : chunk.start + data.length < 2 ^ 64 ∧ s.bytesDone + data.length < 2 ^ 64 := by
  have inside := (sized.account.tight balanced).2 _ List.mem_cons_self
  have writes : total s.destination.writes + data.length ≤ owed size [arrived chunk data] s := by
    unfold owed pieces
    simp only [total_append, total_cons, total_nil, arrived]
    omega
  have counted := sized.counted (by omega)
  refine ⟨lt_of_le_of_lt inside small, ?_⟩
  rw [counted]
  omega

theorem complete_words {index : Nat} (known : r.bytesTotal = some size) (sized : r.Sized size [] s)
    (balanced : owed size [] s = size) (found : s.inFlight[index]? = some chunk) {reply : ReadReply}
    (fits : ∀ data, reply.result = .ok data → data.length ≤ chunk.length) (disk : DiskOutcome) :
    r.complete words (taken s index) chunk reply disk = r.complete words' (taken s index) chunk reply disk ∧
      r.Plain size (r.complete words (taken s index) chunk reply disk) := by
  have small := r.total_lt size known
  have asked := (sized.bounded.flying chunk (List.mem_of_getElem? found)).mono sized.bounded.next_le
  unfold complete
  cases result : reply.result with
  | error error => exact ⟨rfl, trivial⟩
  | ok data =>
    dsimp only
    rw [receive_words words words' asked small]
    cases received : r.receive words' (taken s index) chunk data with
    | error error => exact ⟨rfl, trivial⟩
    | ok s' =>
      dsimp only
      have spawned := spawn_words words words' known (r.windowCapacity - s'.inFlight.length) s'
      have sized' := (sized.receive known found received).spawn words' known
      have window := (sized.receive known found received).bounded.window
      have owing : owed size [arrived chunk data] (r.spawnReadRequests words' s') = size := by
        have short := fits data result
        rw [owed_spawn words' _ known window, owed_receive known asked received, owed_taken size found]
        omega
      obtain ⟨offset, done⟩ := stored_bounds sized' owing small
      have same : r.spawnReadRequests words s' = r.spawnReadRequests words' s' := spawned
      rw [same, store_words offset done, again_words known]
      refine ⟨rfl, ?_⟩
      have some_ := receive_nonempty known asked received
      rcases store_cases words' (r.spawnReadRequests words' s') chunk data disk with
        ⟨empty, _⟩ | ⟨_, stored_ | ⟨s'', error, stopped, _⟩⟩
      · exact absurd empty some_
      · rw [stored_]
        have kept : r.Sized size [] (stored words' (r.spawnReadRequests words' s') chunk data
            (aimed (r.spawnReadRequests words' s') chunk)) := sized'.stored known some_
        refine ⟨kept.spawn words' known, ?_⟩
        rw [owed_spawn words' _ known kept.bounded.window, owed_stored]
        exact owing
      · rw [stopped]
        trivial

theorem react_words (known : r.bytesTotal = some size) (sized : r.Sized size [] s) (balanced : owed size [] s = size)
    {event : ReadEvent} (fits : Fitting (.running s) event) :
    r.react words s event = r.react words' s event ∧ r.Plain size (r.react words s event) := by
  cases event with
  | cancelled => exact ⟨rfl, trivial⟩
  | joinFailed =>
    simp only [react]
    split
    · exact ⟨trivial, sized, balanced⟩
    · exact ⟨trivial, trivial⟩
  | completed index reply disk =>
    simp only [react]
    split
    · exact ⟨rfl, sized, balanced⟩
    · rename_i chunk found
      refine complete_words known sized balanced found ?_ disk
      intro data result
      cases reply with
      | data bytes =>
        cases result
        exact fits chunk found
      | eof =>
        cases result
        exact Nat.zero_le _
      | failed guidance => cases result
  | finish outcome =>
    simp only [react]
    split
    · refine ⟨trivial, ?_⟩
      unfold finish
      split
      · trivial
      · cases outcome <;> trivial
    · exact ⟨trivial, sized, balanced⟩

theorem downloadTo_words (words words' : Words) (known : r.bytesTotal = some size) {events : List ReadEvent}
    (fits : (r.machine words).Admissible Fitting (r.start words) events) :
    r.downloadTo words events = r.downloadTo words' events := by
  have start_ : r.start words = r.start words' := by
    unfold start
    split
    · rfl
    · exact congrArg Download.running (spawn_words words words' known _ _)
  have plain : r.Plain size (r.start words) := by
    have owing : owed size [] .init = size := by simp [owed, pieces, ReaderState.init, Destination.empty]
    unfold start
    split
    · exact ⟨init_sized size, owing⟩
    · refine ⟨(init_sized size).spawn words known, ?_⟩
      rw [owed_spawn words _ known (Nat.zero_le _)]
      exact owing
  unfold downloadTo
  rw [← start_]
  generalize r.start words = d at fits plain
  induction events generalizing d with
  | nil => rfl
  | cons event events ih =>
    rw [Machine.run_cons, Machine.run_cons]
    have step : (r.machine words).next d event = (r.machine words').next d event ∧
        r.Plain size ((r.machine words).next d event) := by
      cases d with
      | running s => exact react_words known plain.1 plain.2 fits.1
      | ended s result => exact ⟨rfl, trivial⟩
    rw [← step.1]
    exact ih _ fits.2 step.2

end PipelinedDownloadReader

end MacSftp
