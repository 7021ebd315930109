import Acceptor.Text.Lines
import Acceptor.Text.Utf8

/-!
# Sources of lines

A source delivers lines one after the other.  Bytes may stop being readable: then the source
delivers the lines that were complete before and fails when it is asked for more.
-/

namespace Acceptor

structure Source where
  lines : List Text
  fault : Option DecodeError := none

namespace Source

/-- A reader over a text, whose lines end at line feeds only. -/
def ofText (t : Text) : Source := { lines := Text.delivered t }

/-! ## Bytes

Bytes come in reads and are read as UTF-8, with all line ends made line feeds.  A source takes the
next read when it has delivered all lines that are complete, so a read that is no text is a fault
only after the lines of the reads before it.  The bytes of a character may come in two reads, and
so may a carriage return and its line feed. -/

/-- How many bytes a read of a file takes. -/
def readSize : Nat := 8192

/-- The reads of a file with the given bytes. -/
def readsOf (bytes : Bytes) : List Bytes :=
  (List.range (bytes.length / readSize + 1)).map fun i ↦ (bytes.drop (i * readSize)).take readSize

/-- The text that can be delivered when no more can be read.  A carriage return at its end might be
half of a line end and waits for the other half. -/
def readable (p : Utf8.Progress) : Text :=
  match p.reversed with
  | '\r' :: earlier => earlier.reverse
  | reversed => reversed.reverse

/-- The lines up to a fault.  What stands after the last line end before it is not a line. -/
def broken (p : Utf8.Progress) (e : DecodeError) : Source :=
  { lines := Text.finished (Text.normalizeEnds (readable p)), fault := some e }

/-- What is delivered when the given reads come after those that have been read. -/
def continued (p : Utf8.Progress) : List Bytes → Source
  | [] =>
      match p.pending with
      | none => ofText (Text.normalizeEnds p.text)
      | some w => broken p (w.unfinished 0)
  | bytes :: more =>
      match p.read bytes with
      | .error e => broken p e
      | .ok p => continued p more

def ofReads : List Bytes → Source := continued .initial

end Source

end Acceptor
