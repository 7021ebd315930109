import Acceptor.Text.Basic

/-!
# Classes of characters

A class of characters is a list of ranges of code points, both ends included.  The ranges of
a table increase, so the search stops at the first one that begins above the character.
-/

namespace Acceptor.Text

abbrev Ranges := List (Nat × Nat)

namespace Ranges

def contains : Ranges → Nat → Bool
  | [], _ => false
  | (low, high) :: more, n => low ≤ n && (n ≤ high || contains more n)

end Ranges

end Acceptor.Text
