import Acceptor.Definition.Config
import Acceptor.Definition.Strict
import Acceptor.Text.Blank
import Acceptor.Text.Tokens

/-!
# Reading definitions

A definition is a header of five lines, the kind, the alphabet, the states, the initial state and
the final states, and one line for each transition:

    dfa
    0 1
    even odd
    even
    odd
    even 1 odd
    odd 1 even

The parts are read in this order and the first fault is the answer.  Each part has its own rule:
the kind has to be literally there, the alphabet, the states and the final states are tokens,
and the initial state is a whole line without the blanks at its ends, so that it may hold spaces.
-/

namespace Acceptor

namespace Definition

/-- The kind of all definitions. -/
def kind : Text := "dfa".toList

/-- In the place of the first final state, the mark for no final states at all. -/
def noFinals : Text := "!!".toList

/-! ## Header -/

def checkKind (line : Text) : Except DefinitionError Unit :=
  if line = kind then .ok () else .error (.wrongKind line)

/-- The tokens of a line, which has to have one. -/
def readNames (missing : DefinitionError) (line : Text) : Except DefinitionError (List Text) :=
  match Text.tokens line with
  | [] => .error missing
  | names => .ok names

def readAlphabet (line : Text) : Except DefinitionError (List Symbol) :=
  readNames .emptyAlphabet line

def readStates (line : Text) : Except DefinitionError (List State) := readNames .emptyStates line

def readInitial (line : Text) : Except DefinitionError State :=
  match Text.trim line with
  | [] => .error .missingInitial
  | initial => .ok initial

def readFinals (line : Text) : Except DefinitionError (List State) :=
  match Text.tokens line with
  | [] => .error .missingFinals
  | first :: others => .ok (if Text.trim first = noFinals then [] else first :: others)

/-! ## Transitions -/

/-- A transition line has exactly a source, a symbol and a target. -/
def readTransition (line : Text) (number : Int) : Except DefinitionError Transition :=
  match Text.tokens line with
  | [source, symbol, target] => .ok ⟨source, symbol, target⟩
  | _ => .error (.malformedTransition number line)

/-- The transitions with their line numbers, of which the first line's is given. -/
def readTransitions (number : Nat) :
    List Text → Except DefinitionError (List (Transition × Nat))
  | [] => .ok []
  | line :: more => do
      let t ← readTransition line number
      let ts ← readTransitions (number + 1) more
      return (t, number) :: ts

/-- The lines of the transitions, where of two with the same key the later one counts. -/
def lineNumbers (transitions : List (Transition × Nat)) : Automaton.LineNumbers :=
  .ofList (transitions.map fun (t, number) ↦ (t.key, (number : Int)))

/-! ## Whole definitions -/

/-- What a definition says, together with the lines of its transitions. -/
structure Reading where
  automaton : Automaton
  lines : Automaton.LineNumbers

/-- The reading of a definition's lines, in which names need not be declared. -/
def read : List Text → Except DefinitionError Reading
  | kindLine :: alphabetLine :: statesLine :: initialLine :: finalsLine :: transitionLines => do
      checkKind kindLine
      let alphabet ← readAlphabet alphabetLine
      let states ← readStates statesLine
      let initial ← readInitial initialLine
      let finals ← readFinals finalsLine
      let transitions ← readTransitions 6 transitionLines
      return {
        automaton := .build alphabet states initial finals (transitions.map Prod.fst)
        lines := lineNumbers transitions }
  | lines => .error (.tooFewLines lines.length)

def parseLines (config : Config) (lines : List Text) : Except DefinitionError Automaton := do
  let reading ← read lines
  if config.strict then reading.automaton.validate reading.lines else return reading.automaton

/-- The automaton that a definition describes. -/
def parse (config : Config) (text : Text) : Except DefinitionError Automaton :=
  parseLines config (Text.lines text)

end Definition

end Acceptor
