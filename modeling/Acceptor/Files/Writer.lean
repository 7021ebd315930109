import Acceptor.Files.System

/-!
# Writers

Text that is written to a file waits twice on its way: as text, until there is enough of it to be
handed on, and in blocks, until a block is full or the writer is flushed.  A medium without room is
therefore not noticed when a text is written but when what waits has to move.  What a block holds
then stays there, and closing the writer tries once more; but bytes that were too many to wait in
a block are lost, and closing the writer finds nothing wrong.
-/

namespace Acceptor

/-- How many bytes may wait as text. -/
def chunkSize : Nat := 8192

/-- The bytes that the medium has taken, those that wait in a block, and those that wait as text. -/
structure Writer where
  written : Bytes := []
  buffer : Bytes := []
  pending : Bytes := []
deriving DecidableEq, Repr

namespace Writer

/-- The writer after an attempt, whether it has failed or not. -/
def after : Except Writer Writer → Writer
  | .ok w | .error w => w

variable (m : Medium)

/-- Writes what waits in the block.  What the medium does not take goes on waiting there. -/
def drain (w : Writer) : Except Writer Writer :=
  let bytes := w.written ++ w.buffer
  let written := m.taken bytes
  let left := bytes.drop written.length
  let w := { w with written, buffer := left }
  if left = [] then .ok w else .error w

/-- Puts bytes behind those that wait in the block.  When they do not fit there, the block is
written first, and they are written at once if they are more than a block: then what is left of them
may wait if it has become less, and is lost otherwise. -/
def store (w : Writer) (bytes : Bytes) : Except Writer Writer :=
  if w.buffer.length + bytes.length ≤ m.block then .ok { w with buffer := w.buffer ++ bytes }
  else do
    let w ← w.drain m
    if bytes.length ≤ m.block then .ok { w with buffer := bytes }
    else
      let written := m.taken (w.written ++ bytes)
      let left := (w.written ++ bytes).drop written.length
      if left.length ≤ m.block then .ok { w with written, buffer := left }
      else .error { w with written }

/-- Hands on what waits as text. -/
def pass (w : Writer) : Except Writer Writer := { w with pending := [] }.store m w.pending

/-- One more text, which waits behind the others until there is enough.  What is enough by itself
does not wait with them. -/
def write (w : Writer) (t : Text) : Except Writer Writer := do
  let bytes := Utf8.encode t
  let w ← if chunkSize ≤ bytes.length then w.pass m else .ok w
  let w := { w with pending := w.pending ++ bytes }
  if chunkSize ≤ w.pending.length then w.pass m else .ok w

/-- Writes all that waits. -/
def flush (w : Writer) : Except Writer Writer := do (← w.pass m).drain m

/-- Writes all that can still be written.  It fails when something had to be left or lost. -/
def close (w : Writer) : Except Writer Writer :=
  match w.pass m with
  | .ok w => w.drain m
  | .error w => .error (after (w.drain m))

/-- Texts one after the other, up to the first that meets a failure. -/
def writeAll (w : Writer) (ts : List Text) : Except Writer Writer := ts.foldlM (write m) w

end Writer

end Acceptor
