import Acceptor.Proofs.Stream.Reports
import Acceptor.Session.Instruction

/-!
# Readers of a source

Instructions take lines from a source in six ways.  `Reader.Takes` says for each of them which lines
it takes, what it leaves and what it replies, without the functions that do it.  All six take
lines from the front of the source and put none back: `Reader.takesFront` says so for what the
functions do (`Reader.read`), whatever lines the source has.
-/

namespace Acceptor

/-- The ways to take lines from a source. -/
inductive Reader where
  | line
  | lines
  | definition (terminator : Text)
  | stream (config : Config)
  | label (s : LabelStream)
  | labels (s : LabelStream)

namespace Reader

/-! ## What is taken -/

/-- The lines that a reader takes, those that it leaves, and its reply. -/
inductive Takes : Reader → List Text → List Text → Reply → Prop
  | line (line : Text) (left : List Text) : Takes .line [line] left (.text line)
  | noLine : Takes .line [] [] .finished
  | lines (lines : List Text) : Takes .lines lines [] (.texts lines)
  /-- A definition takes all lines up to the first terminator, and that one too. -/
  | definition {terminator line : Text} {front : List Text} (left : List Text)
      (before : ∀ l ∈ front, Text.trim l ≠ terminator) (ends : Text.trim line = terminator) :
      Takes (.definition terminator) (front ++ [line]) left
        (.text (['\n'].intercalate (front.map Text.chomp)))
  | openDefinition {terminator : Text} {lines : List Text}
      (before : ∀ l ∈ lines, Text.trim l ≠ terminator) :
      Takes (.definition terminator) lines []
        (.text (['\n'].intercalate (lines.map Text.chomp)))
  /-- A check whose definition is rejected takes the lines of the definition only. -/
  | rejected {config : Config} {taken left : List Text} {text : Text} {e : DefinitionError}
      {r : StreamRun} (block : Takes (.definition config.terminator) taken left (.text text))
      (parsed : Definition.parse config text = .error e)
      (outcome : r.outcome = .error (.refused (.definition e))) :
      Takes (.stream config) taken left (.stream r)
  | answered {config : Config} {taken queries : List Text} {text : Text} {d : Automaton}
      {accepted : List Bool} {r : StreamRun}
      (block : Takes (.definition config.terminator) taken queries (.text text))
      (parsed : Definition.parse config text = .ok d)
      (evaluated : queries.map (fun line ↦ d.accepts (Text.wordOf line)) = accepted.map .ok)
      (outcome : r.outcome = .ok queries.length) :
      Takes (.stream config) (taken ++ queries) [] (.stream r)
  /-- A check of which a word gets stuck takes the line of that word and none after it. -/
  | stuck {config : Config} {taken front more : List Text} {query text : Text} {d : Automaton}
      {accepted : List Bool} {u : UndefinedTransition} {r : StreamRun}
      (block : Takes (.definition config.terminator) taken (front ++ query :: more) (.text text))
      (parsed : Definition.parse config text = .ok d)
      (evaluated : front.map (fun line ↦ d.accepts (Text.wordOf line)) = accepted.map .ok)
      (undefined : d.accepts (Text.wordOf query) = .error u)
      (outcome : r.outcome = .error (.refused (.word u))) :
      Takes (.stream config) (taken ++ (front ++ [query])) more (.stream r)
  /-- A live label stream takes one line for one label, also when there is no label for it. -/
  | label {s : LabelStream} {line t : Text} (left : List Text) (live : s.live)
      (label : checkLine s.config s.automaton line = .ok t) :
      Takes (.label s) [line] left (.text t)
  | stuckLabel {s : LabelStream} {line : Text} {u : UndefinedTransition} (left : List Text)
      (live : s.live) (undefined : checkLine s.config s.automaton line = .error u) :
      Takes (.label s) [line] left (.failed (.word u))
  | noLabel {s : LabelStream} (live : s.live) : Takes (.label s) [] [] .finished
  | labels {s : LabelStream} {lines ts : List Text} (live : s.live)
      (labels : lines.map (checkLine s.config s.automaton) = ts.map .ok) :
      Takes (.labels s) lines [] (.texts ts)
  | stuckLabels {s : LabelStream} {front ts : List Text} {line : Text} {u : UndefinedTransition}
      (left : List Text) (live : s.live)
      (labels : front.map (checkLine s.config s.automaton) = ts.map .ok)
      (undefined : checkLine s.config s.automaton line = .error u) :
      Takes (.labels s) (front ++ [line]) left (.failed (.word u))
  /-- A label stream that has ended or failed takes no line. -/
  | spentLabel {s : LabelStream} (left : List Text) (spent : ¬ s.live) :
      Takes (.label s) [] left .finished
  | spentLabels {s : LabelStream} (left : List Text) (spent : ¬ s.live) :
      Takes (.labels s) [] left (.texts [])

variable {s : LabelStream} {taken left : List Text} {reply : Reply} {terminator : Text}

theorem Takes.definition_left (h : Takes (.definition terminator) taken left reply) :
    left = (Block.read terminator (taken ++ left)).rest := by
  cases h with
  | definition _ before ends =>
      rw [List.append_assoc, List.singleton_append, Block.read_append_terminator before ends]
  | openDefinition before => rw [List.append_nil, Block.read_of_forall_ne before]

/-- The lines of a definition by the number of lines before the terminator. -/
theorem Takes.definition_eq (h : Takes (.definition terminator) taken left reply) :
    taken = (taken ++ left).take
      ((taken ++ left).findIdx (fun line ↦ Text.trim line = terminator) + 1) := by
  have hleft : (taken ++ left).drop
      ((taken ++ left).findIdx (fun line ↦ Text.trim line = terminator) + 1) = left := by
    rw [eq_comm]
    exact h.definition_left.trans (congrArg Block.rest (Block.read_eq terminator _))
  have hlines := List.take_append_drop
    ((taken ++ left).findIdx (fun line ↦ Text.trim line = terminator) + 1) (taken ++ left)
  rw [hleft] at hlines
  exact (List.append_cancel_right hlines).symm

/-- A check that rejects its definition takes the lines of that. -/
theorem Takes.exists_definition {config : Config} {r : StreamRun} {e : DefinitionError}
    (h : Takes (.stream config) taken left (.stream r))
    (outcome : r.outcome = .error (.refused (.definition e))) :
    ∃ text, Takes (.definition config.terminator) taken left (.text text) := by
  cases h with
  | rejected block parsed _ => exact ⟨_, block⟩
  | answered block parsed evaluated houtcome => cases houtcome.symm.trans outcome
  | stuck block parsed evaluated undefined houtcome => cases houtcome.symm.trans outcome

theorem Takes.eq_take_one (h : Takes (.label s) taken left reply) (live : s.live) :
    taken = (taken ++ left).take 1 := by
  cases h with
  | spentLabel _ spent => exact absurd live spent
  | _ => rfl

theorem Takes.label_eq_nil (h : Takes (.label s) taken left reply) (spent : ¬ s.live) :
    taken = [] := by
  cases h with
  | spentLabel => rfl
  | noLabel live => rfl
  | _ => contradiction

theorem Takes.labels_eq_nil (h : Takes (.labels s) taken left reply) (spent : ¬ s.live) :
    taken = [] := by
  cases h with
  | spentLabels => rfl
  | _ => contradiction

end Reader

/-! ## Labels -/

/-- A label stream labels all lines, or it fails at the first line without a label. -/
theorem LabelStream.labels_cases (config : Config) (d : Automaton) (lines : List Text) :
    (∃ ts : List Text, lines.map (checkLine config d) = ts.map .ok ∧
      labels config d lines = (.ok ts, [])) ∨
    ∃ front line more, ∃ ts : List Text, ∃ u, lines = front ++ line :: more ∧
      front.map (checkLine config d) = ts.map .ok ∧ checkLine config d line = .error u ∧
      labels config d lines = (.error u, more) := by
  induction lines with
  | nil => exact .inl ⟨[], rfl, rfl⟩
  | cons first lines ih =>
      cases hfirst : checkLine config d first with
      | error u => exact .inr ⟨[], first, lines, [], u, rfl, rfl, hfirst, by simp [labels, hfirst]⟩
      | ok t =>
          rcases ih with ⟨ts, hts, hlabels⟩ | ⟨front, line, more, ts, u, rfl, hts, hu, hlabels⟩
          · refine .inl ⟨t :: ts, by simp [hfirst, hts], ?_⟩
            simp [labels, hfirst, hlabels, Except.map]
          · refine .inr ⟨first :: front, line, more, t :: ts, u, rfl, by simp [hfirst, hts], hu, ?_⟩
            simp [labels, hfirst, hlabels, Except.map]

namespace Reader

/-! ## Reading -/

/-- The reply of a reader and the lines that it leaves. -/
def read : Reader → List Text → Reply × List Text
  | .line, source => (.ofPulled (pullLine source).1, (pullLine source).2)
  | .lines, source => (.texts source, [])
  | .definition terminator, source =>
      (.text (Block.read terminator source).text, (Block.read terminator source).rest)
  | .stream config, source =>
      let r := checkStream config { lines := source } none
      (.stream r, r.rest)
  | .label s, source => (.ofPulled (s.pull source).1, (s.pull source).2.2)
  | .labels s, source => (.ofRun .texts (s.drain source).1, (s.drain source).2.2)

/-- What a reader takes stands at the front of the lines, in order, and it leaves all others. -/
def TakesFront (r : Reader) (lines : List Text) : Prop :=
  ∃ taken, lines = taken ++ (r.read lines).2 ∧ r.Takes taken (r.read lines).2 (r.read lines).1

theorem takesFront_line (lines : List Text) : TakesFront .line lines := by
  cases lines with
  | nil => exact ⟨[], rfl, .noLine⟩
  | cons line more => exact ⟨[line], rfl, .line line more⟩

theorem takesFront_definition (terminator : Text) (lines : List Text) :
    TakesFront (.definition terminator) lines := by
  rcases Block.exists_terminator_or_forall terminator lines with
    ⟨front, line, rest, rfl, hfront, hline⟩ | h
  · simp only [TakesFront, read, Block.read_append_terminator hfront hline]
    exact ⟨front ++ [line], by simp, .definition rest hfront hline⟩
  · simp only [TakesFront, read, Block.read_of_forall_ne h]
    exact ⟨lines, by simp, .openDefinition h⟩

theorem takesFront_stream (config : Config) (lines : List Text) :
    TakesFront (.stream config) lines := by
  obtain ⟨taken, hlines, hblock⟩ := takesFront_definition config.terminator lines
  have hreports := checkAfter_reports config (Block.read config.terminator lines)
  rw [← checkStream_of_lines] at hreports
  simp only [read] at hlines hblock
  generalize hparsed : Definition.parse config (Block.read config.terminator lines).text = parsed
    at hreports
  simp only [TakesFront, read]
  cases hreports with
  | rejected e outcome output rest =>
      rw [rest]
      exact ⟨taken, hlines, .rejected hblock hparsed outcome⟩
  | answered d accepted evaluated outcome output rest =>
      rw [rest]
      exact ⟨_, by simpa using hlines, .answered hblock hparsed evaluated outcome⟩
  | stuck d front query more accepted u split evaluated undefined outcome output rest =>
      rw [rest]
      rw [split] at hlines hblock
      exact ⟨_, by simpa using hlines, .stuck hblock hparsed evaluated undefined outcome⟩

theorem takesFront_label (s : LabelStream) (lines : List Text) : TakesFront (.label s) lines := by
  by_cases live : s.live
  · cases lines with
    | nil =>
        simp only [TakesFront, read, LabelStream.pull, live, if_true]
        exact ⟨[], rfl, .noLabel live⟩
    | cons line more =>
        simp only [TakesFront, read, LabelStream.pull, live, if_true]
        cases h : checkLine s.config s.automaton line with
        | ok t => exact ⟨[line], rfl, .label more live h⟩
        | error u => exact ⟨[line], rfl, .stuckLabel more live h⟩
  · simp only [TakesFront, read, LabelStream.pull, live]
    exact ⟨[], rfl, .spentLabel lines live⟩

theorem takesFront_labels (s : LabelStream) (lines : List Text) :
    TakesFront (.labels s) lines := by
  by_cases live : s.live
  · simp only [TakesFront, read, LabelStream.drain, live, if_true]
    rcases LabelStream.labels_cases s.config s.automaton lines with
      ⟨ts, hts, hlabels⟩ | ⟨front, line, more, ts, u, rfl, hts, hu, hlabels⟩
    · rw [hlabels]
      exact ⟨lines, by simp, .labels live hts⟩
    · rw [hlabels]
      exact ⟨front ++ [line], by simp, .stuckLabels more live hts hu⟩
  · simp only [TakesFront, read, LabelStream.drain, live]
    exact ⟨[], rfl, .spentLabels lines live⟩

theorem takesFront (r : Reader) (lines : List Text) : r.TakesFront lines := by
  cases r with
  | line => exact takesFront_line lines
  | lines => exact ⟨lines, by simp [read], .lines lines⟩
  | definition terminator => exact takesFront_definition terminator lines
  | stream config => exact takesFront_stream config lines
  | label s => exact takesFront_label s lines
  | labels s => exact takesFront_labels s lines

end Reader

end Acceptor
