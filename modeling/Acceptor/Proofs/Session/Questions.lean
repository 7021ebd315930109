import Acceptor.Proofs.Automaton.Paths
import Acceptor.Session.Instruction

/-!
# Ways to evaluate a word

A word can be run, traced, accepted or not, and written on a line for its label.  All these follow
the same path of states, so they fail together and at the same key, and what they say when they do
not fail is read off the trace (`evaluations_agree`).
-/

namespace Acceptor

variable {config : Config} {d : Automaton} {q r : State} {w : Word} {s : UndefinedTransition}
  {states : List State} {text : Text}

/-! ## Traces -/

namespace Automaton

theorem trace_eq_ok_iff :
    d.trace w = .ok states ↔ d.IsPath w states ∧ states.head? = some d.initial :=
  visited_eq_ok_iff

theorem trace_eq_error_iff : d.trace w = .error s ↔ d.run d.initial w = .error s :=
  visited_eq_error_iff

/-- There is a trace whenever the run ends. -/
theorem exists_trace_iff :
    (∃ states, d.trace w = .ok states) ↔ ∃ r, d.run d.initial w = .ok r := by
  rw [run_eq_map_visited, trace]
  cases d.visited d.initial w <;> simp [Except.map]

/-- A trace ends in the state that decides on acceptance. -/
theorem accepts_of_trace (h : d.trace w = .ok states) (hlast : states.getLast? = some r) :
    d.accepts w = .ok (decide (d.IsFinal r)) := by
  obtain ⟨hpath, hhead⟩ := trace_eq_ok_iff.1 h
  have hrun : d.run d.initial w = .ok r := run_eq_ok_iff.2 ⟨states, hpath, hhead, hlast⟩
  rw [accepts_eq_map, hrun, Except.map]

end Automaton

/-! ## Questions -/

/-- The questions that run the automaton on the word, each in its own way. -/
inductive Query.Evaluates (d : Automaton) (w : Word) : Query → Prop
  | run : Query.Evaluates d w (.run d.initial w)
  | trace : Query.Evaluates d w (.trace w)
  | accepts : Query.Evaluates d w (.accepts w)
  | checkLine (config : Config) {line : Text} (word : Text.wordOf line = w) :
      Query.Evaluates d w (.checkLine config line)

theorem Reply.ofRun_eq_failed_iff {α : Type} {reply : α → Reply}
    {x : Except UndefinedTransition α} (h : ∀ a, reply a ≠ .failed (.word s)) :
    Reply.ofRun reply x = .failed (.word s) ↔ x = .error s := by
  cases x with
  | ok a => simpa [Reply.ofRun] using h a
  | error u => simp [Reply.ofRun]

theorem checkLine_eq_error_iff {line : Text} :
    checkLine config d line = .error s ↔ d.run d.initial (Text.wordOf line) = .error s := by
  rw [checkLine, ← Automaton.accepts_eq_error_iff]
  cases d.accepts (Text.wordOf line) <;> simp [Except.map]

/-- Whichever way a word is asked for, the reply is a failure exactly when the run gets stuck. -/
theorem Query.Evaluates.reply_eq_failed_iff {question : Query} (h : question.Evaluates d w) :
    question.reply d = .failed (.word s) ↔ d.run d.initial w = .error s := by
  cases h with
  | run => exact Reply.ofRun_eq_failed_iff (by simp)
  | trace => exact (Reply.ofRun_eq_failed_iff (by simp)).trans Automaton.trace_eq_error_iff
  | accepts => exact (Reply.ofRun_eq_failed_iff (by simp)).trans Automaton.accepts_eq_error_iff
  | checkLine config word =>
      subst word
      exact (Reply.ofRun_eq_failed_iff (by simp)).trans checkLine_eq_error_iff

/-! ## Words of definitions -/

theorem checkWord_of_error {e : DefinitionError} (h : Definition.parse config text = .error e)
    (w : Word) : checkWord config text w = .error (.definition e) := by
  rw [checkWord, h]
  rfl

theorem checkWord_of_ok (h : Definition.parse config text = .ok d) (w : Word) :
    checkWord config text w = (d.accepts w).mapError .word := by
  rw [checkWord, h]
  rfl

/-- All ways to evaluate a word agree.  A trace exists exactly when acceptance is decided; it is the
path of the run, place by place, and its last state decides.  Otherwise all ways fail at the same
state and symbol.  A word of a definition is evaluated like a word of the automaton that is read. -/
theorem evaluations_agree (config : Config) (d : Automaton) (w : Word) :
    ((∃ states, d.trace w = .ok states) ↔ ∃ b, d.accepts w = .ok b) ∧
    (∀ states, d.trace w = .ok states →
      states.length = w.length + 1 ∧
      (∀ i r, states[i]? = some r → d.run d.initial (w.take i) = .ok r) ∧
      (∀ i q a r, states[i]? = some q → w[i]? = some a → states[i + 1]? = some r →
        d.target? q a = some r) ∧
      ∃ last, states.getLast? = some last ∧ d.accepts w = .ok (decide (d.IsFinal last))) ∧
    (∀ s, (d.trace w = .error s ↔ d.run d.initial w = .error s) ∧
      (d.accepts w = .error s ↔ d.run d.initial w = .error s) ∧
      ∀ question : Query, question.Evaluates d w →
        (question.reply d = .failed (.word s) ↔ d.run d.initial w = .error s)) ∧
    ∀ text,
      (∀ fault, Definition.parse config text = .error fault →
        checkWord config text w = .error (.definition fault)) ∧
      ∀ e, Definition.parse config text = .ok e →
        checkWord config text w = (e.accepts w).mapError .word := by
  refine ⟨?_, ?_, ?_, ?_⟩
  · rw [Automaton.exists_trace_iff, Automaton.exists_accepts_iff]
  · intro states h
    obtain ⟨hpath, hhead⟩ := Automaton.trace_eq_ok_iff.1 h
    refine ⟨hpath.length_eq, ?_, hpath.target_eq, ?_⟩
    · intro i r hr
      exact hpath.run_take hhead hr
    · obtain ⟨rest, rfl⟩ := List.head?_eq_some_iff.1 hhead
      exact ⟨_, List.getLast?_cons, Automaton.accepts_of_trace h List.getLast?_cons⟩
  · intro s
    exact ⟨Automaton.trace_eq_error_iff, Automaton.accepts_eq_error_iff,
      fun question h ↦ h.reply_eq_failed_iff⟩
  · intro text
    exact ⟨fun fault h ↦ checkWord_of_error h w, fun e h ↦ checkWord_of_ok h w⟩

/-- A word with a trace, and a word that gets stuck when one symbol of it has been read, also on a
line of its own and after the text of the automaton. -/
theorem evaluations_agree_gap :
    let text := "dfa\n0 1\np q\np\nq\np 1 q\nq 1 p".toList
    let d := Automaton.build ["0".toList, "1".toList] ["p".toList, "q".toList] "p".toList
      ["q".toList] [⟨"p".toList, "1".toList, "q".toList⟩, ⟨"q".toList, "1".toList, "p".toList⟩]
    let w := ["1".toList, "1".toList, "1".toList]
    let v := ["1".toList, "0".toList, "1".toList]
    let gap : UndefinedTransition := ⟨"q".toList, "0".toList⟩
    d.trace w = .ok ["p".toList, "q".toList, "p".toList, "q".toList] ∧
      d.run d.initial (w.take 2) = .ok "p".toList ∧
      d.run d.initial v = .error gap ∧ d.trace v = .error gap ∧
      (Query.checkLine {} " 1 0  1\r\n".toList).reply d = .failed (.word gap) ∧
      Definition.parse {} text = .ok d ∧ checkWord {} text v = .error (.word gap) := by
  intro text d w v gap
  have htrace : d.trace w = .ok ["p".toList, "q".toList, "p".toList, "q".toList] := rfl
  have hstuck : d.run d.initial v = .error gap := rfl
  have hread : Definition.parse {} text = .ok d := by rfl
  have hline : (Query.checkLine {} " 1 0  1\r\n".toList).Evaluates d v :=
    .checkLine {} rfl
  obtain ⟨-, hplaces, -, -⟩ := evaluations_agree {} d w
  obtain ⟨-, -, hfail, hwords⟩ := evaluations_agree {} d v
  obtain ⟨hsteps, haccepts, hreplies⟩ := hfail gap
  refine ⟨htrace, (hplaces _ htrace).2.1 2 _ rfl, hstuck, hsteps.2 hstuck,
    (hreplies _ hline).2 hstuck, hread, ?_⟩
  rw [(hwords text).2 d hread, haccepts.2 hstuck]
  rfl

end Acceptor
