import Acceptor.Text.Lines

/-!
# Tokens

Only the space separates tokens.  Tabs, carriage returns and all other characters belong to the
token they stand in.
-/

namespace Acceptor.Text

/-- The maximal runs of characters other than the space, in order. -/
def tokens (line : Text) : List Text := (line.splitOn ' ').filter fun piece ↦ !piece.isEmpty

/-- The tokens of a query line, whose line end is no part of the last one. -/
def wordOf (line : Text) : List Text := tokens (chomp line)

end Acceptor.Text
