import Acceptor.Stream.Check

/-!
# Lazy labels

The labels of the words on a source can be asked for one at a time.  A label stream holds no line:
it takes one from its source for each label, and other readers of the source may take lines in
between.  Once it has ended or failed it takes no more.
-/

namespace Acceptor

/-- The answer to a request for one more item. -/
inductive Pulled where
  | item (t : Text)
  | finished
  | failed (u : UndefinedTransition)
deriving DecidableEq, Repr

/-- The next line and the lines after it. -/
def pullLine : List Text → Pulled × List Text
  | [] => (.finished, [])
  | line :: more => (.item line, more)

structure LabelStream where
  automaton : Automaton
  config : Config
  live : Bool := true

namespace LabelStream

/-- The label of the next line, the stream after it, and the lines that it leaves. -/
def pull (s : LabelStream) (lines : List Text) : Pulled × LabelStream × List Text :=
  if s.live then
    match lines with
    | [] => (.finished, { s with live := false }, [])
    | line :: more =>
        match checkLine s.config s.automaton line with
        | .ok label => (.item label, s, more)
        | .error u => (.failed u, { s with live := false }, more)
  else (.finished, s, lines)

/-- The labels of all lines, or the failure of the first that has none, and the lines after it. -/
def labels (config : Config) (d : Automaton) :
    List Text → Except UndefinedTransition (List Text) × List Text
  | [] => (.ok [], [])
  | line :: more =>
      match checkLine config d line with
      | .error u => (.error u, more)
      | .ok label =>
          let (others, rest) := labels config d more
          (others.map (label :: ·), rest)

/-- All labels that are left.  Whether they end or fail, the stream is used up. -/
def drain (s : LabelStream) (lines : List Text) :
    Except UndefinedTransition (List Text) × LabelStream × List Text :=
  if s.live then
    let (result, rest) := labels s.config s.automaton lines
    (result, { s with live := false }, rest)
  else (.ok [], s, lines)

end LabelStream

end Acceptor
