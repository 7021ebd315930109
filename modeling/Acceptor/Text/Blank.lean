import Acceptor.Text.Ranges

/-!
# Blanks

Trimming removes the white space of Unicode, of which the ASCII separators U+001C to U+001F are a
part here.  Tokens are never trimmed; only an initial state, a marker for no final states and a
terminator line are.
-/

namespace Acceptor.Text

def blanks : Ranges :=
  [(0x09, 0x0d), (0x1c, 0x20), (0x85, 0x85), (0xa0, 0xa0), (0x1680, 0x1680), (0x2000, 0x200a),
    (0x2028, 0x2029), (0x202f, 0x202f), (0x205f, 0x205f), (0x3000, 0x3000)]

def isBlank (c : Char) : Bool := blanks.contains c.toNat

/-- A text without the blanks at its two ends. -/
def trim (t : Text) : Text := dropEndWhile isBlank (t.dropWhile isBlank)

end Acceptor.Text
