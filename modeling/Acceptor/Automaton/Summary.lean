import Acceptor.Automaton.Basic
import Acceptor.Text.Quoted

/-!
# Summaries

The one-line account of an automaton that logs and replies show: how many states, symbols and
transitions there are, the initial state and the final states in order.
-/

namespace Acceptor

/-- The members of a set in brackets, quoted and separated by commas. -/
def SortedSet.listed (s : SortedSet Text) : Text :=
  "[".toList ++ (", ".toList).intercalate (s.toList.map Text.quoted) ++ "]".toList

def Automaton.summary (d : Automaton) : Text :=
  "DFA(states=".toList ++ Text.ofNat d.states.size ++
    ", alphabet=".toList ++ Text.ofNat d.alphabet.size ++
    ", initial=".toList ++ Text.quoted d.initial ++
    ", final=".toList ++ d.finals.listed ++
    ", transitions=".toList ++ Text.ofNat d.transitions.size ++ ")".toList

end Acceptor
