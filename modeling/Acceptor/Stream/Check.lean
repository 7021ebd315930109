import Acceptor.Automaton.Run
import Acceptor.Definition.Parser
import Acceptor.Stream.Block
import Acceptor.Stream.Event
import Acceptor.Stream.Source

/-!
# Checking streams

A stream is a definition block and, on each line after it, a word.  Every word is answered by its
label before the next line is asked for, so what has been written when a check stops is exactly
the labels of the words before it stopped.
-/

namespace Acceptor

inductive CheckError where
  | definition (e : DefinitionError)
  | word (u : UndefinedTransition)
deriving DecidableEq, Repr

def CheckError.message : CheckError → Text
  | definition e => e.message
  | word u => u.message

/-- Why a stream was not checked to its end. -/
inductive StreamError where
  | refused (e : CheckError)
  | undecodable (e : DecodeError)
  | outputFull
deriving DecidableEq, Repr

/-! ## One word -/

/-- The label of the word on a line. -/
def checkLine (config : Config) (d : Automaton) (line : Text) : Except UndefinedTransition Text :=
  (d.accepts (Text.wordOf line)).map config.label

/-- Whether a definition accepts a word. -/
def checkWord (config : Config) (definition : Text) (w : Word) : Except CheckError Bool := do
  let d ← (Definition.parse config definition).mapError .definition
  (d.accepts w).mapError .word

/-! ## The words of a stream -/

/-- The labels that were written, the lines that were not read, and why the answering stopped
before the end of the stream, if it did. -/
structure Answers where
  labels : List Text
  rest : List Text
  stop : Option StreamError
deriving DecidableEq, Repr

def Answers.push (a : Answers) (label : Text) : Answers := { a with labels := label :: a.labels }

/-- Whether the output takes another label.  An output without a limit always does. -/
def hasRoom (room : Option Nat) : Bool := room != some 0

/-- The answers to the words on the given lines, after which the source may fail.  Reading,
running and writing alternate, and the output takes as many labels as it has room for. -/
def answer (config : Config) (d : Automaton) (fault : Option DecodeError) :
    Option Nat → List Text → Answers
  | _, [] => ⟨[], [], fault.map .undecodable⟩
  | room, line :: more =>
      match checkLine config d line with
      | .error u => ⟨[], more, some (.refused (.word u))⟩
      | .ok label =>
          if hasRoom room then (answer config d fault (room.map (· - 1)) more).push label
          else ⟨[], more, some .outputFull⟩

/-! ## Whole streams -/

/-- What a check has done: its outcome, which is the number of words when all were answered,
the labels that it wrote, the lines that it left unread, and its log. -/
structure StreamRun where
  outcome : Except StreamError Nat
  labels : List Text
  rest : List Text
  log : List Event

/-- The text that was written: one line for each label. -/
def StreamRun.output (r : StreamRun) : Text := r.labels.flatMap (· ++ ['\n'])

/-- A check of the words that follow a definition block which was read to its end. -/
def checkAfter (config : Config) (block : Block) (fault : Option DecodeError) (room : Option Nat) :
    StreamRun :=
  let readLog := [Event.blockRead block.text.length]
  let parsed := Definition.parse config block.text
  let log := readLog ++ Event.ofParse parsed
  match parsed with
  | .error e => ⟨.error (.refused (.definition e)), [], block.rest, log⟩
  | .ok d =>
      let answers := answer config d fault room block.rest
      match answers.stop with
      | some e => ⟨.error e, answers.labels, answers.rest, log⟩
      | none =>
          let words := answers.labels.length
          ⟨.ok words, answers.labels, answers.rest, log ++ [.checked words]⟩

/-- A block that is not closed asks the source for more lines than it has, so a source that fails
does so before the definition is looked at. -/
def checkStream (config : Config) (source : Source) (room : Option Nat) : StreamRun :=
  let block := Block.read config.terminator source.lines
  match block.closed, source.fault with
  | false, some e => ⟨.error (.undecodable e), [], block.rest, []⟩
  | _, fault => checkAfter config block fault room

end Acceptor
