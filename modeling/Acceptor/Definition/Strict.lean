import Acceptor.Definition.Error

/-!
# Strict definitions

A strict definition uses declared names only.  The undeclared uses are listed in a fixed order:
the initial state, then the final states, then the transitions by their keys, and in each
transition the source before the symbol before the target.  A definition is rejected for the first
of them, so which one is reported does not depend on how the automaton was written down.
-/

namespace Acceptor.Automaton

variable (d : Automaton)

def undeclaredInitial : List DefinitionError :=
  if d.initial ∈ d.states then [] else [.unknownState d.initial .initial 4]

def undeclaredFinals : List DefinitionError :=
  (d.finals.toList.filter (· ∉ d.states)).map fun q ↦ .unknownState q .final 5

/-- The undeclared names of one transition, which stands on the given line. -/
def undeclaredIn (k : Key) (target : State) (line : Int) : List DefinitionError :=
  (if k.state ∈ d.states then [] else [.unknownState k.state .transition line]) ++
    (if k.symbol ∈ d.alphabet then [] else [.unknownSymbol k.symbol line]) ++
    (if target ∈ d.states then [] else [.unknownState target .transition line])

/-- The lines of transitions, as far as they are known. -/
abbrev LineNumbers := SortedMap Key Int

def lineOf (lines : LineNumbers) (k : Key) : Int := (lines.get? k).getD DefinitionError.unknownLine

def undeclaredTransitions (lines : LineNumbers) : List DefinitionError :=
  d.transitions.entries.flatMap fun (k, target) ↦ d.undeclaredIn k target (lineOf lines k)

def undeclared (lines : LineNumbers) : List DefinitionError :=
  d.undeclaredInitial ++ d.undeclaredFinals ++ d.undeclaredTransitions lines

/-- The automaton itself when it uses declared names only. -/
def validate (lines : LineNumbers) : Except DefinitionError Automaton :=
  match d.undeclared lines with
  | [] => .ok d
  | e :: _ => .error e

end Acceptor.Automaton
