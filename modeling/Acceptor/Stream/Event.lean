import Acceptor.Automaton.Summary

/-!
# Events

What a check reports to its log, in the order in which it happens.
-/

namespace Acceptor

inductive Event where
  | blockRead (characters : Nat)
  | parsed (d : Automaton)
  | checked (words : Nat)
deriving DecidableEq

def Event.message : Event → Text
  | blockRead characters =>
      "Read definition block (".toList ++ Text.ofNat characters ++ " chars)".toList
  | parsed d => "Parsed ".toList ++ d.summary
  | checked words => "Checked ".toList ++ Text.ofNat words ++ " words".toList

/-- Parsing a definition is reported when it succeeds. -/
def Event.ofParse {ε : Type} : Except ε Automaton → List Event
  | .ok d => [parsed d]
  | .error _ => []

end Acceptor
