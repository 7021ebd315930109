import Acceptor.Session.Basic

/-!
# Instructions of a session

An instruction that fails changes no name.  An instruction that refers to a name without a value
of the right sort does nothing at all.
-/

namespace Acceptor

/-- Questions to a single automaton. -/
inductive Query where
  | show
  | target (q : State) (a : Symbol)
  | hasTransition (q : State) (a : Symbol)
  | isFinal (q : State)
  | isComplete
  | validate (lines : Automaton.LineNumbers)
  | step (q : State) (a : Symbol)
  | run (q : State) (w : Word)
  | trace (w : Word)
  | accepts (w : Word)
  | checkLine (config : Config) (line : Text)

inductive Instruction where
  | parse (config : Config) (text : Text) (name : Name)
  | define (d : Automaton) (name : Name)
  | openLines (lines : List Text) (name : Name)
  | openText (text : Text) (name : Name)
  | openLabels (automaton source : Name) (config : Config) (name : Name)
  | readDefinition (source : Name) (terminator : Text)
  | checkStream (source : Name) (config : Config)
  | next (name : Name)
  | rest (name : Name)
  | compare (first second : Name)
  | query (automaton : Name) (question : Query)

inductive Reply where
  | done
  | text (t : Text)
  | texts (ts : List Text)
  | flag (b : Bool)
  | state? (q : Option State)
  | automaton (d : Automaton)
  | comparison (same sameOutline : Bool)
  | stream (r : StreamRun)
  | finished
  | failed (e : CheckError)
  | unbound

namespace Reply

def ofPulled : Pulled → Reply
  | .item t => text t
  | .finished => finished
  | .failed u => failed (.word u)

/-- The reply to a run, from the reply to its result. -/
def ofRun {α : Type} (reply : α → Reply) : Except UndefinedTransition α → Reply
  | .ok a => reply a
  | .error u => failed (.word u)

end Reply

def Query.reply (d : Automaton) : Query → Reply
  | .show => .automaton d
  | .target q a => .state? (d.target? q a)
  | .hasTransition q a => .flag (d.target? q a).isSome
  | .isFinal q => .flag (decide (d.IsFinal q))
  | .isComplete => .flag (decide d.IsComplete)
  | .validate lines =>
      match d.validate lines with
      | .ok _ => .flag true
      | .error e => .failed (.definition e)
  | .step q a => .ofRun .text (d.step q a)
  | .run q w => .ofRun .text (d.run q w)
  | .trace w => .ofRun .texts (d.trace w)
  | .accepts w => .ofRun .flag (d.accepts w)
  | .checkLine config line => .ofRun .text (Acceptor.checkLine config d line)

namespace Session

/-! ## Items -/

/-- One more item of a source or a label stream. -/
def next (s : Session) (name : Name) : Session × Reply :=
  match s.lookup? name with
  | some (.source place) =>
      let (pulled, left) := pullLine (s.linesAt place)
      (s.setLines place left, .ofPulled pulled)
  | some (.labels place) =>
      match s.taps[place]? with
      | none => (s, .unbound)
      | some tap =>
          let (pulled, stream, left) := tap.stream.pull (s.linesAt tap.source)
          ((s.setLines tap.source left).setTap place { tap with stream }, .ofPulled pulled)
  | _ => (s, .unbound)

/-- All items that a source or a label stream has left. -/
def rest (s : Session) (name : Name) : Session × Reply :=
  match s.lookup? name with
  | some (.source place) => (s.setLines place [], .texts (s.linesAt place))
  | some (.labels place) =>
      match s.taps[place]? with
      | none => (s, .unbound)
      | some tap =>
          let (result, stream, left) := tap.stream.drain (s.linesAt tap.source)
          ((s.setLines tap.source left).setTap place { tap with stream }, .ofRun .texts result)
  | _ => (s, .unbound)

/-! ## Steps -/

def step (s : Session) : Instruction → Session × Reply
  | .parse config text name =>
      match Definition.parse config text with
      | .ok d => (s.bind name (.automaton d), .text d.summary)
      | .error e => (s, .failed (.definition e))
  | .define d name => (s.bind name (.automaton d), .text d.summary)
  | .openLines lines name => (s.addSource name lines, .done)
  | .openText text name => (s.addSource name (Text.delivered text), .done)
  | .openLabels automaton source config name =>
      match s.automaton? automaton, s.source? source with
      | some d, some place => (s.addTap name ⟨{ automaton := d, config }, place⟩, .done)
      | _, _ => (s, .unbound)
  | .readDefinition source terminator =>
      match s.source? source with
      | some place =>
          let block := Block.read terminator (s.linesAt place)
          (s.setLines place block.rest, .text block.text)
      | none => (s, .unbound)
  | .checkStream source config =>
      match s.source? source with
      | some place =>
          let r := Acceptor.checkStream config { lines := s.linesAt place } none
          (s.setLines place r.rest, .stream r)
      | none => (s, .unbound)
  | .next name => s.next name
  | .rest name => s.rest name
  | .compare first second =>
      match s.automaton? first, s.automaton? second with
      | some c, some d => (s, .comparison (decide (c = d)) (decide (c.outline = d.outline)))
      | _, _ => (s, .unbound)
  | .query automaton question =>
      match s.automaton? automaton with
      | some d => (s, question.reply d)
      | none => (s, .unbound)

/-- The replies to a list of instructions, in order. -/
def run (s : Session) : List Instruction → Session × List Reply
  | [] => (s, [])
  | c :: more =>
      let (t, reply) := s.step c
      let (u, replies) := t.run more
      (u, reply :: replies)

end Session

end Acceptor
