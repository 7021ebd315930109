import Acceptor.Text.Basic

/-!
# Lines

A definition is split at line feeds, where a carriage return right before a line feed belongs to
the line end, and its trailing empty lines do not count.  A reader delivers lines differently: it
keeps each line feed at the end of its line, and the carriage returns too.  The two agree once
`chomp` has removed the ends of the delivered lines, except after a doubled carriage return.
-/

namespace Acceptor.Text

/-- Every carriage return that a line feed follows is dropped. -/
def unifyEnds : Text → Text
  | [] => []
  | c :: rest => if c = '\r' ∧ rest.head? = some '\n' then unifyEnds rest else c :: unifyEnds rest

/-- The lines of a definition: its pieces between line ends, up to the last piece that is not
empty. -/
def lines (t : Text) : List Text := dropEndWhile List.isEmpty ((unifyEnds t).splitOn '\n')

/-! ## Lines as a reader delivers them -/

/-- Every piece but the last gets its line feed back; an empty last piece is no line. -/
def restoreEnds : List Text → List Text
  | [] => []
  | [last] => if last.isEmpty then [] else [last]
  | piece :: next :: pieces => (piece ++ ['\n']) :: restoreEnds (next :: pieces)

/-- The lines of a text with their line feeds kept, so that they join up to the text. -/
def delivered (t : Text) : List Text := restoreEnds (t.splitOn '\n')

def isLineEnd (c : Char) : Bool := c == '\r' || c == '\n'

/-- A line without the carriage returns and line feeds at its end. -/
def chomp (line : Text) : Text := dropEndWhile isLineEnd line

/-! ## Line ends of files

Files and standard input know three line ends: a line feed, a carriage return, and a carriage
return with a line feed.  All three are read as one line feed. -/

def normalizeEnds : Text → Text
  | [] => []
  | c :: rest =>
      if c = '\r' then
        if rest.head? = some '\n' then normalizeEnds rest else '\n' :: normalizeEnds rest
      else c :: normalizeEnds rest

/-- The delivered lines that are ended by a line feed. -/
def finished (t : Text) : List Text := (delivered t).filter fun line ↦ line.getLast? == some '\n'

end Acceptor.Text
