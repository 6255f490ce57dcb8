import MacSftp.Pipeline.Words
import MacSftp.Lib.Ranges
import MacSftp.Lib.Runs

namespace MacSftp

open Lib

/-- The fields and bounds of a reader: `u32` chunks and `u64` totals, and both sizes at least 1 by its constructors. -/
structure PipelinedDownloadReader where
  chunkSize : Nat
  windowCapacity : Nat
  bytesTotal : Option Nat
  chunk_pos : 0 < chunkSize
  chunk_lt : chunkSize < 2 ^ 32
  window_pos : 0 < windowCapacity
  total_lt : ∀ total, bytesTotal = some total → total < 2 ^ 64

namespace PipelinedDownloadReader

def new (bytesTotal : Option Nat) (total_lt : ∀ total, bytesTotal = some total → total < 2 ^ 64) :
    PipelinedDownloadReader where
  chunkSize := 256 * 1024
  windowCapacity := 32
  bytesTotal := bytesTotal
  chunk_pos := default_chunk_pos
  chunk_lt := default_chunk_lt
  window_pos := default_window_pos
  total_lt := total_lt

def withChunkSize (r : PipelinedDownloadReader) (chunkSize : Nat) (h : chunkSize < 2 ^ 32) : PipelinedDownloadReader :=
  { r with
    chunkSize := max chunkSize 1
    chunk_pos := max_one_pos chunkSize
    chunk_lt := max_one_lt h }

def withWindowCapacity (r : PipelinedDownloadReader) (windowCapacity : Nat) : PipelinedDownloadReader :=
  { r with
    windowCapacity := max windowCapacity 1
    window_pos := max_one_pos windowCapacity }

end PipelinedDownloadReader

/-- A file that is written at a cursor, and the stretches written so far. -/
structure Destination where
  file : List UInt8
  cursor : Nat
  writes : List Range
  deriving DecidableEq, Repr

namespace Destination

def empty : Destination := ⟨[], 0, []⟩

def seek (d : Destination) (position : Nat) : Destination := { d with cursor := position }

def writeAll (d : Destination) (data : List UInt8) : Destination where
  file := overwrite 0 d.file d.cursor data
  cursor := d.cursor + data.length
  writes := d.writes ++ [⟨d.cursor, data.length⟩]

end Destination

/-- The local variables of `download_to`, the destination, and every request sent so far. -/
structure ReaderState where
  inFlight : List Range
  retryRanges : List Range
  nextRequestOffset : Nat
  eofReached : Bool
  bytesDone : Nat
  currentOffset : Option Nat
  destination : Destination
  requests : List Range
  deriving DecidableEq, Repr

def ReaderState.init : ReaderState := ⟨[], [], 0, false, 0, none, .empty, []⟩

inductive ReadReply
  | data (bytes : List UInt8)
  | eof
  | failed (guidance : String)
  deriving DecidableEq, Repr

def ReadReply.result : ReadReply → Except UserFacingError (List UInt8)
  | .data bytes => .ok bytes
  | .eof => .ok []
  | .failed guidance =>
    .error (transferError .unknown "Transfer Read Failed" "The remote file could not be read." guidance)

/-- What happens while a chunk is stored. A `seek` can only be stopped when there is one. -/
inductive DiskOutcome
  | stored
  | seekStopped (cause : StopCause)
  | writeStopped (written : Nat) (cause : StopCause)
  | progressRefused
  deriving DecidableEq, Repr

inductive FinishOutcome
  | closed
  | stopped (cause : StopCause)
  | progressRefused
  deriving DecidableEq, Repr

inductive ReadEvent
  | cancelled
  | joinFailed
  | completed (index : Nat) (reply : ReadReply) (disk : DiskOutcome)
  | finish (outcome : FinishOutcome)
  deriving DecidableEq, Repr

/-- A download waits for its requests, or for the end once none is left, or it has returned. -/
inductive Download
  | running (s : ReaderState)
  | ended (s : ReaderState) (result : Except UserFacingError Nat)

namespace PipelinedDownloadReader

variable (words : Words) (r : PipelinedDownloadReader)

def nextRequest (s : ReaderState) : Option (Range × ReaderState) :=
  match s.retryRanges with
  | range :: rest => some (range, { s with retryRanges := rest })
  | [] =>
    if s.eofReached then none
    else
      match r.bytesTotal with
      | some total =>
        if total ≤ s.nextRequestOffset then none
        else
          let len := nextChunkLen words (total - s.nextRequestOffset) r.chunkSize
          some (⟨s.nextRequestOffset, len⟩, { s with nextRequestOffset := words.add s.nextRequestOffset len })
      | none =>
        some (⟨s.nextRequestOffset, r.chunkSize⟩,
          { s with nextRequestOffset := words.add s.nextRequestOffset r.chunkSize })

def spawn : Nat → ReaderState → ReaderState
  | 0, s => s
  | room + 1, s =>
    match r.nextRequest words s with
    | none => s
    | some (range, s) =>
      spawn room { s with inFlight := s.inFlight ++ [range], requests := s.requests ++ [range] }

def spawnReadRequests (s : ReaderState) : ReaderState := r.spawn words (r.windowCapacity - s.inFlight.length) s

def receive (s : ReaderState) (chunk : Range) (data : List UInt8) : Except UserFacingError ReaderState :=
  let received := data.length
  if received = 0 then
    match r.bytesTotal with
    | none => .ok { s with eofReached := true }
    | some total =>
      if chunk.start < total then
        let bytesDone := s.bytesDone
        .error (transferError .unknown "Transfer Incomplete"
          "The server stopped sending data before the file was complete."
          s!"Expected {total} bytes, received {bytesDone} bytes")
      else .ok s
  else if received < chunk.length then
    let receivedEnd := words.add chunk.start received
    let requestedEnd := words.add chunk.start chunk.length
    let missingEnd := r.bytesTotal.elim requestedEnd (min requestedEnd)
    if receivedEnd < missingEnd then
      .ok { s with retryRanges := s.retryRanges ++ [⟨receivedEnd, words.u32 (missingEnd - receivedEnd)⟩] }
    else .ok s
  else .ok s

def stored (s : ReaderState) (chunk : Range) (data : List UInt8) (destination : Destination) : ReaderState :=
  { s with
    destination := destination.writeAll data
    currentOffset := some (words.add chunk.start data.length)
    bytesDone := words.add s.bytesDone data.length }

def store (s : ReaderState) (chunk : Range) (data : List UInt8) (disk : DiskOutcome) : Download :=
  if data = [] then .running s
  else
    let seeks : Bool := s.currentOffset ≠ some chunk.start
    let destination := if seeks then s.destination.seek chunk.start else s.destination
    let next := stored words s chunk data destination
    match disk with
    | .stored => .running next
    | .seekStopped cause => if seeks then .ended s (.error (cause.error "Transfer Write Failed")) else .running next
    | .writeStopped written cause =>
      .ended { s with destination := destination.writeAll (data.take written) }
        (.error (cause.error "Transfer Write Failed"))
    | .progressRefused => .ended next (.error transferStoppedError)

def finish (s : ReaderState) (outcome : FinishOutcome) : Download :=
  match r.bytesTotal.filter (fun total => s.bytesDone ≠ total) with
  | some total => .ended s (.error (sizeMismatchError total s.bytesDone))
  | none =>
    match outcome with
    | .closed => .ended s (.ok s.bytesDone)
    | .stopped cause => .ended s (.error (cause.error "Transfer Couldn’t Finish"))
    | .progressRefused => .ended s (.error transferStoppedError)

def joinError : UserFacingError where
  code := .unknown
  title := "Transfer Read Failed"
  message := "The transfer read worker failed unexpectedly."

/-- The top of the loop: what it spawns there, unless the chunk has ended the download. -/
def again : Download → Download
  | .running s => .running (r.spawnReadRequests words s)
  | ended => ended

def complete (s : ReaderState) (chunk : Range) (reply : ReadReply) (disk : DiskOutcome) : Download :=
  match reply.result with
  | .error error => .ended s (.error error)
  | .ok data =>
    match r.receive words s chunk data with
    | .error error => .ended s (.error error)
    | .ok s => r.again words (store words (r.spawnReadRequests words s) chunk data disk)

/-- One turn of the loop. The token is looked at in several places of a turn, always with this outcome. -/
def react (s : ReaderState) : ReadEvent → Download
  | .cancelled => .ended s (.error cancelledTransferError)
  | .joinFailed => if s.inFlight = [] then .running s else .ended s (.error joinError)
  | .completed index reply disk =>
    match s.inFlight[index]? with
    | none => .running s
    | some chunk => r.complete words { s with inFlight := s.inFlight.eraseIdx index } chunk reply disk
  | .finish outcome => if s.inFlight = [] then r.finish s outcome else .running s

def machine : Machine Download ReadEvent Unit where
  step
    | .running s, event => (r.react words s event, ())
    | .ended s result, _ => (.ended s result, ())

/-- A file known to be empty is not requested at all. -/
def start : Download :=
  if r.bytesTotal = some 0 then .running .init else .running (r.spawnReadRequests words .init)

def downloadTo (events : List ReadEvent) : Download := (r.machine words).run (r.start words) events

end PipelinedDownloadReader

end MacSftp
