import Acceptor.Automaton.Basic
import Acceptor.Text.Quoted

/-!
# Faults of a definition

A definition is rejected for one fault, which most often is tied to a line.  Line numbers count
from one, and a number below one says that the line is not known.
-/

namespace Acceptor

/-- What an undeclared state is used as. -/
inductive Role where
  | initial
  | final
  | transition
  | other (name : Text)
deriving DecidableEq, Repr

def Role.name : Role → Text
  | initial => "initial".toList
  | final => "final".toList
  | transition => "transition".toList
  | other name => name

inductive DefinitionError where
  | tooFewLines (count : Int)
  | wrongKind (kind : Text)
  | emptyAlphabet
  | emptyStates
  | missingInitial
  | missingFinals
  | malformedTransition (line : Int) (content : Text)
  | unknownState (state : State) (role : Role) (line : Int)
  | unknownSymbol (symbol : Symbol) (line : Int)
  | described (message : Text) (line : Int)
deriving DecidableEq, Repr

namespace DefinitionError

def unknownLine : Int := -1

/-- The line that the fault is tied to. -/
def line : DefinitionError → Int
  | tooFewLines _ => unknownLine
  | wrongKind _ => 1
  | emptyAlphabet => 2
  | emptyStates => 3
  | missingInitial => 4
  | missingFinals => 5
  | malformedTransition line _ => line
  | unknownState _ _ line => line
  | unknownSymbol _ line => line
  | described _ line => line

/-- The fault in words, without its line. -/
def summary : DefinitionError → Text
  | tooFewLines count =>
      "Definition has ".toList ++ Text.ofInt count ++ " lines, at least 5 are required".toList
  | wrongKind kind => "Definition is not a DFA: expected 'dfa', got ".toList ++ Text.quoted kind
  | emptyAlphabet => "No alphabet symbols defined".toList
  | emptyStates => "No states defined".toList
  | missingInitial => "No initial state defined".toList
  | missingFinals => "No final state definition given (use '!!' for none)".toList
  | malformedTransition _ content => "Malformed transition [".toList ++ content ++ "]".toList
  | unknownState state role _ =>
      "Undeclared ".toList ++ role.name ++ " state ".toList ++ Text.quoted state
  | unknownSymbol symbol _ => "Undeclared symbol ".toList ++ Text.quoted symbol
  | described message _ => message

/-- The fault in words, with its line when that is known. -/
def message (e : DefinitionError) : Text :=
  if 1 ≤ e.line then e.summary ++ " at line ".toList ++ Text.ofInt e.line else e.summary

end DefinitionError

end Acceptor
