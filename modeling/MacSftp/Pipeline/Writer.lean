import MacSftp.Pipeline.Words
import MacSftp.Lib.Ranges
import MacSftp.Lib.Runs

namespace MacSftp

open Lib

structure PipelinedUploadWriter where
  chunkSize : Nat
  windowCapacity : Nat
  bytesTotal : Option Nat
  chunk_pos : 0 < chunkSize
  chunk_lt : chunkSize < 2 ^ 32
  window_pos : 0 < windowCapacity
  total_lt : ∀ total, bytesTotal = some total → total < 2 ^ 64

namespace PipelinedUploadWriter

def new (bytesTotal : Option Nat) (total_lt : ∀ total, bytesTotal = some total → total < 2 ^ 64) :
    PipelinedUploadWriter where
  chunkSize := 256 * 1024
  windowCapacity := 32
  bytesTotal := bytesTotal
  chunk_pos := default_chunk_pos
  chunk_lt := default_chunk_lt
  window_pos := default_window_pos
  total_lt := total_lt

def withChunkSize (w : PipelinedUploadWriter) (chunkSize : Nat) (h : chunkSize < 2 ^ 32) : PipelinedUploadWriter :=
  { w with
    chunkSize := max chunkSize 1
    chunk_pos := max_one_pos chunkSize
    chunk_lt := max_one_lt h }

def withWindowCapacity (w : PipelinedUploadWriter) (windowCapacity : Nat) : PipelinedUploadWriter :=
  { w with
    windowCapacity := max windowCapacity 1
    window_pos := max_one_pos windowCapacity }

end PipelinedUploadWriter

/-- What the source's next read gives. A read gives no bytes only at the end of the source, which is the end of the list. -/
inductive SourceRead
  | bytes (piece : List UInt8) (some_ : piece ≠ [])
  | stopped (cause : StopCause)

def SourceRead.contents : SourceRead → List UInt8
  | .bytes piece _ => piece
  | .stopped _ => []

def contents (source : List SourceRead) : List UInt8 := source.flatMap SourceRead.contents

/-- Reads into a buffer with room for so many bytes until it is full or the source ends. A read that could give more than
the room leaves the surplus to the next one. -/
def fillBuffer : Nat → List SourceRead → Except UserFacingError (List UInt8 × List SourceRead × Bool)
  | 0, source => .ok ([], source, false)
  | _ + 1, [] => .ok ([], [], true)
  | _ + 1, .stopped cause :: _ => .error (cause.error "Transfer Read Failed")
  | room + 1, .bytes piece _ :: rest =>
    if surplus : piece.drop (room + 1) ≠ [] then
      .ok (piece.take (room + 1), .bytes (piece.drop (room + 1)) surplus :: rest, false)
    else
      match fillBuffer (room + 1 - piece.length) rest with
      | .error error => .error error
      | .ok (data, source, ended) => .ok (piece ++ data, source, ended)

/-- A write request: its offset and its bytes. -/
structure WriteChunk where
  offset : Nat
  data : List UInt8
  deriving DecidableEq, Repr

def WriteChunk.range (chunk : WriteChunk) : Range := ⟨chunk.offset, chunk.data.length⟩

/-- The file on the server, and the stretches it has acknowledged. -/
structure RemoteFile where
  file : List UInt8
  writes : List Range
  deriving DecidableEq, Repr

def RemoteFile.write (f : RemoteFile) (chunk : WriteChunk) : RemoteFile where
  file := overwrite 0 f.file chunk.offset chunk.data
  writes := f.writes ++ [chunk.range]

/-- The local variables of `upload_from`, the source it has still to read, and the remote file. -/
structure WriterState where
  source : List SourceRead
  inFlight : List WriteChunk
  currentOffset : Nat
  eofReached : Bool
  bytesDone : Nat
  remote : RemoteFile

def WriterState.init (source : List SourceRead) : WriterState := ⟨source, [], 0, false, 0, ⟨[], []⟩⟩

inductive WriteReply
  | ok
  | status (code : String)
  | failed (guidance : String)
  deriving DecidableEq, Repr

def WriteReply.result : WriteReply → Except UserFacingError Unit
  | .ok => .ok ()
  | .status code =>
    .error (transferError .unknown "Transfer Write Failed" "The remote file could not be written."
      s!"Server status code: {code}")
  | .failed guidance =>
    .error (transferError .unknown "Transfer Write Failed" "The remote file could not be written." guidance)

inductive WriteEvent
  | cancelled
  | joinFailed
  | acknowledged (index : Nat) (reply : WriteReply) (progressRefused : Bool)
  | finish (progressRefused : Bool)
  deriving DecidableEq, Repr

inductive Upload
  | running (s : WriterState)
  | ended (s : WriterState) (result : Except UserFacingError Nat)

namespace PipelinedUploadWriter

variable (words : Words) (w : PipelinedUploadWriter)

/-- The bytes to read for the next chunk, unless the known size is already reached. -/
def toRead (s : WriterState) : Option Nat :=
  match w.bytesTotal with
  | some total =>
    if total ≤ s.currentOffset then none else some (nextChunkLen words (total - s.currentOffset) w.chunkSize)
  | none => some w.chunkSize

/-- The body of `spawn_write_requests`, for as many chunks as the window has room for. -/
def spawn : Nat → WriterState → Except UserFacingError WriterState
  | 0, s => .ok s
  | room + 1, s =>
    if s.eofReached then .ok s
    else
      match w.toRead words s with
      | none => .ok { s with eofReached := true }
      | some size =>
        match fillBuffer size s.source with
        | .error error => .error error
        | .ok (data, source, ended) =>
          if data = [] then .ok { s with source := source, eofReached := true }
          else
            spawn room { s with
              source := source
              eofReached := ended
              inFlight := s.inFlight ++ [⟨s.currentOffset, data⟩]
              currentOffset := words.add s.currentOffset (words.u32 data.length) }

def spawnWriteRequests (s : WriterState) : Except UserFacingError WriterState :=
  w.spawn words (w.windowCapacity - s.inFlight.length) s

/-- Goes on with the loop after a spawn that may have failed. -/
def proceed (s : WriterState) : Except UserFacingError WriterState → Upload
  | .error error => .ended s (.error error)
  | .ok s => .running s

def acknowledge (s : WriterState) (chunk : WriteChunk) (reply : WriteReply) (progressRefused : Bool) : Upload :=
  match reply.result with
  | .error error => .ended s (.error error)
  | .ok () =>
    let s := { s with
      remote := s.remote.write chunk
      bytesDone := words.add s.bytesDone (words.u32 chunk.data.length) }
    match w.spawnWriteRequests words s with
    | .error error => .ended s (.error error)
    | .ok s =>
      if progressRefused then .ended s (.error transferStoppedError)
      else proceed s (w.spawnWriteRequests words s)

def finish (s : WriterState) (progressRefused : Bool) : Upload :=
  match w.bytesTotal.filter (fun total => s.bytesDone ≠ total) with
  | some total => .ended s (.error (sizeMismatchError total s.bytesDone))
  | none => if progressRefused then .ended s (.error transferStoppedError) else .ended s (.ok s.bytesDone)

def joinError : UserFacingError where
  code := .unknown
  title := "Transfer Write Failed"
  message := "The transfer write worker failed unexpectedly."

/-- One turn of the loop. The token is looked at in several places of a turn, always with this outcome. -/
def react (s : WriterState) : WriteEvent → Upload
  | .cancelled => .ended s (.error cancelledTransferError)
  | .joinFailed => if s.inFlight = [] then .running s else .ended s (.error joinError)
  | .acknowledged index reply progressRefused =>
    match s.inFlight[index]? with
    | none => .running s
    | some chunk => w.acknowledge words { s with inFlight := s.inFlight.eraseIdx index } chunk reply progressRefused
  | .finish progressRefused => if s.inFlight = [] then w.finish s progressRefused else .running s

def machine : Machine Upload WriteEvent Unit where
  step
    | .running s, event => (w.react words s event, ())
    | .ended s result, _ => (.ended s result, ())

/-- A source known to be empty is not read at all. -/
def start (source : List SourceRead) : Upload :=
  if w.bytesTotal = some 0 then .running (.init source)
  else proceed (.init source) (w.spawnWriteRequests words (.init source))

def uploadFrom (source : List SourceRead) (events : List WriteEvent) : Upload :=
  (w.machine words).run (w.start words source) events

end PipelinedUploadWriter

end MacSftp
