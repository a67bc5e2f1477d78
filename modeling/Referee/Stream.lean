import Referee.Bytes
import Referee.Failure

/-!
# Streams

A `Reader` is what an input stream will deliver: buffers of bytes and faults, in order. A `Writer`
is an output stream with the room that it has left and everything that it has accepted. It holds
bytes back until it is flushed.
-/

namespace Referee

inductive Chunk where
  | data (bytes : Bytes)
  | fault (fault : Fault)
  deriving DecidableEq, Repr

/-- The chunks still to come; after the last one the stream is at its end. An empty buffer reads
as the end of the stream once. -/
abbrev Reader := List Chunk

namespace Reader

/-- The bytes that the chunks hold. -/
def bytes (r : Reader) : Bytes :=
  r.flatMap fun
    | .data bs => bs
    | .fault _ => []

/-- A stream that delivers its bytes in buffers of a fixed size. -/
def buffered (size : Nat) (bs : Bytes) : Reader :=
  if _h : size = 0 ∨ bs = [] then []
  else .data (bs.take size) :: buffered size (bs.drop size)
termination_by bs.length
decreasing_by
  have : bs.length ≠ 0 := by simpa using fun e => _h (.inr e)
  simp only [List.length_drop]
  omega

end Reader

/-- How many bytes a file or a pipe delivers at a time. -/
def bufferSize : Nat := 8192

structure Writer where
  /-- How many more bytes are accepted; any number if `none`. -/
  room : Option Nat
  /-- The fault of a write that finds no room. -/
  refusal : Fault
  /-- The fault of a flush that fails; none ever does if `none`. -/
  flushFault : Option Fault
  /-- How many more flushes go well before one meets that fault. -/
  flushes : Nat := 0
  written : Bytes
  /-- How many of the bytes written have been flushed. -/
  flushed : Nat := 0
  deriving DecidableEq, Repr

namespace Writer

/-- A writer that never fails. -/
def working : Writer :=
  { room := none, refusal := ⟨.brokenPipe, ""⟩, flushFault := none, written := [] }

/-- Writes all the bytes, or those that still fit. -/
def write (bs : Bytes) (w : Writer) : Except Fault Unit × Writer :=
  match w.room with
  | none => (.ok (), { w with written := w.written ++ bs })
  | some n =>
    let w' := { w with room := some (n - bs.length), written := w.written ++ bs.take n }
    (if bs.length ≤ n then .ok () else .error w.refusal, w')

/-- Passes on everything that has been written. -/
def flush (w : Writer) : Except Fault Unit × Writer :=
  match w.flushFault, w.flushes with
  | none, _ => (.ok (), { w with flushed := w.written.length })
  | some fault, 0 => (.error fault, w)
  | some _, n + 1 => (.ok (), { w with flushes := n, flushed := w.written.length })

/-- Writes the pieces in order up to the first fault, then flushes. -/
def writeFlushing : List Bytes → Writer → Except Fault Unit × Writer
  | [], w => w.flush
  | bs :: rest, w =>
    match w.write bs with
    | (.ok (), w) => writeFlushing rest w
    | (.error fault, w) => (.error fault, w)

end Writer

end Referee
