import Acceptor.Stream.Labels

/-!
# Sessions

A session keeps named automata, sources and label streams between instructions.  Sources are shared:
a label stream refers to the source that it was opened on, also after the name of that source has
been given to something else, and every reader of a source sees what the others have left.
-/

namespace Acceptor

abbrev Name := Text

/-- What a name stands for.  Sources and label streams are given by their places. -/
inductive Value where
  | automaton (d : Automaton)
  | source (place : Nat)
  | labels (place : Nat)

/-- A label stream and the place of the source that it takes its lines from. -/
structure Tap where
  stream : LabelStream
  source : Nat

structure Session where
  names : List (Name × Value) := []
  sources : List (List Text) := []
  taps : List Tap := []

namespace Session

/-- The latest value of a name. -/
def lookup? (s : Session) (name : Name) : Option Value := s.names.lookup name

def automaton? (s : Session) (name : Name) : Option Automaton :=
  match s.lookup? name with
  | some (.automaton d) => some d
  | _ => none

def source? (s : Session) (name : Name) : Option Nat :=
  match s.lookup? name with
  | some (.source place) => some place
  | _ => none

/-- The lines that a source has left. -/
def linesAt (s : Session) (place : Nat) : List Text := s.sources.getD place []

def bind (s : Session) (name : Name) (v : Value) : Session :=
  { s with names := (name, v) :: s.names }

@[simp] theorem lookup?_bind (s : Session) (name other : Name) (v : Value) :
    (s.bind name v).lookup? other = if other = name then some v else s.lookup? other := by
  by_cases h : other = name
  · simp [lookup?, bind, h]
  · simp [lookup?, bind, List.lookup_cons, h, beq_false_of_ne h]

def addSource (s : Session) (name : Name) (lines : List Text) : Session :=
  { s with sources := s.sources ++ [lines] }.bind name (.source s.sources.length)

def addTap (s : Session) (name : Name) (t : Tap) : Session :=
  { s with taps := s.taps ++ [t] }.bind name (.labels s.taps.length)

def setLines (s : Session) (place : Nat) (lines : List Text) : Session :=
  { s with sources := s.sources.set place lines }

def setTap (s : Session) (place : Nat) (t : Tap) : Session := { s with taps := s.taps.set place t }

end Session

end Acceptor
