import Acceptor.Proofs.Stream.Blocks
import Acceptor.Stream.Check

/-!
# What a check of a stream reports

A check of a stream ends in one of three ways: its definition is rejected, all its words are
answered, or the run of a word gets stuck.  `StreamRun.Reports` says for each of them what the
outcome is, what has been written and what is left unread, from the outcome of the definition and
the lines after it alone.

* `StreamRun.Reports.unique`: what is reported leaves no choice of outcome, output and rest.
* `checkAfter_reports`: a check that has read its block reports what the block and the lines after
  it ask for.
-/

namespace Acceptor

/-! ## Answers

The words of the lines are evaluated in order, so answering a list of lines is answering a front
of it whose words are all evaluated, and then the others. -/

section Answers

variable (config : Config) {d : Automaton} {front : List Text} {accepted : List Bool}

/-- Lines whose words are all evaluated are answered one after the other, and what follows them is
answered as if it stood alone. -/
theorem answer_append
    (h : front.map (fun line ↦ d.accepts (Text.wordOf line)) = accepted.map .ok)
    (fault : Option DecodeError) (lines : List Text) :
    let others := answer config d fault none lines
    answer config d fault none (front ++ lines) =
      { others with labels := accepted.map config.label ++ others.labels } := by
  induction front generalizing accepted with
  | nil =>
      rw [List.map_nil, eq_comm, List.map_eq_nil_iff] at h
      rw [h]
      rfl
  | cons line front ih =>
      obtain ⟨b, others, rfl, hb, hothers⟩ := List.map_eq_cons_iff.1 h.symm
      have hb : d.accepts (Text.wordOf line) = .ok b := hb.symm
      have hlabel : checkLine config d line = .ok (config.label b) := by
        rw [checkLine, hb]
        rfl
      rw [List.cons_append, answer, hlabel]
      simp only [hasRoom, Option.map_none]
      rw [ih hothers.symm]
      rfl

/-- When all words are evaluated, the answers end as the source does. -/
theorem answer_of_evaluated
    (h : front.map (fun line ↦ d.accepts (Text.wordOf line)) = accepted.map .ok)
    (fault : Option DecodeError) :
    answer config d fault none front =
      ⟨accepted.map config.label, [], fault.map .undecodable⟩ := by
  simpa [answer] using answer_append config h fault []

/-- The first word whose run gets stuck ends the answers, and the lines after it are left. -/
theorem answer_of_undefined
    (h : front.map (fun line ↦ d.accepts (Text.wordOf line)) = accepted.map .ok)
    {line : Text} {u : UndefinedTransition} (hu : d.accepts (Text.wordOf line) = .error u)
    (fault : Option DecodeError) (more : List Text) :
    answer config d fault none (front ++ line :: more) =
      ⟨accepted.map config.label, more, some (.refused (.word u))⟩ := by
  have hfail : checkLine config d line = .error u := by
    rw [checkLine, hu]
    rfl
  rw [answer_append config h fault, answer, hfail]
  simp

end Answers

/-- Among lines there is a first one whose word cannot be evaluated, or all can. -/
theorem evaluated_or_undefined (d : Automaton) (lines : List Text) :
    (∃ accepted : List Bool,
      lines.map (fun line ↦ d.accepts (Text.wordOf line)) = accepted.map .ok) ∨
    ∃ front line more, ∃ accepted : List Bool, ∃ u, lines = front ++ line :: more ∧
      front.map (fun line ↦ d.accepts (Text.wordOf line)) = accepted.map .ok ∧
      d.accepts (Text.wordOf line) = .error u := by
  induction lines with
  | nil => exact .inl ⟨[], rfl⟩
  | cons first lines ih =>
      cases hfirst : d.accepts (Text.wordOf first) with
      | error u => exact .inr ⟨[], first, lines, [], u, rfl, rfl, hfirst⟩
      | ok b =>
          rcases ih with ⟨accepted, h⟩ | ⟨front, line, more, accepted, u, hsplit, h, hu⟩
          · exact .inl ⟨b :: accepted, by simp [hfirst, h]⟩
          · exact .inr ⟨first :: front, line, more, b :: accepted, u, by simp [hsplit],
              by simp [hfirst, h], hu⟩

/-! ## Reports -/

namespace StreamRun

/-- What a check reports when its definition has the given outcome and the given lines follow the
definition. -/
inductive Reports (config : Config) (queries : List Text) (r : StreamRun) :
    Except DefinitionError Automaton → Prop
  /-- A rejected definition ends the check before the first word. -/
  | rejected (e : DefinitionError)
      (outcome : r.outcome = .error (.refused (.definition e)))
      (output : r.output = [])
      (rest : r.rest = queries) : Reports config queries r (.error e)
  /-- Every word is evaluated, and the outcome is their number. -/
  | answered (d : Automaton) (accepted : List Bool)
      (evaluated : queries.map (fun line ↦ d.accepts (Text.wordOf line)) = accepted.map .ok)
      (outcome : r.outcome = .ok queries.length)
      (output : r.output = accepted.flatMap fun b ↦ config.label b ++ ['\n'])
      (rest : r.rest = []) : Reports config queries r (.ok d)
  /-- The words before the first one that gets stuck are evaluated, and the lines after it are
  left. -/
  | stuck (d : Automaton) (front : List Text) (query : Text) (more : List Text)
      (accepted : List Bool) (u : UndefinedTransition)
      (split : queries = front ++ query :: more)
      (evaluated : front.map (fun line ↦ d.accepts (Text.wordOf line)) = accepted.map .ok)
      (undefined : d.accepts (Text.wordOf query) = .error u)
      (outcome : r.outcome = .error (.refused (.word u)))
      (output : r.output = accepted.flatMap fun b ↦ config.label b ++ ['\n'])
      (rest : r.rest = more) : Reports config queries r (.ok d)

variable {config : Config} {queries : List Text} {r s : StreamRun}

/-- With an automaton, a report is that of the answers to the lines. -/
theorem Reports.eq_answer {d : Automaton} (h : r.Reports config queries (.ok d)) :
    let answers := answer config d none none queries
    r.outcome = answers.stop.elim (.ok answers.labels.length) .error ∧
      r.output = answers.labels.flatMap (· ++ ['\n']) ∧ r.rest = answers.rest := by
  cases h with
  | answered _ accepted evaluated outcome output rest =>
      have hlength : queries.length = accepted.length := by
        simpa using congrArg List.length evaluated
      rw [answer_of_evaluated config evaluated none]
      simp [outcome, output, rest, hlength, List.flatMap_map]
  | stuck _ front query more accepted u split evaluated undefined outcome output rest =>
      rw [split, answer_of_undefined config evaluated undefined none]
      simp [outcome, output, rest, List.flatMap_map]

/-- Two checks that report on the same definition and lines differ in their logs at most. -/
theorem Reports.unique {parsed : Except DefinitionError Automaton}
    (hr : r.Reports config queries parsed) (hs : s.Reports config queries parsed) :
    r.outcome = s.outcome ∧ r.output = s.output ∧ r.rest = s.rest := by
  cases parsed with
  | error e =>
      obtain ⟨_, hro, hrw, hrr⟩ := hr
      obtain ⟨_, hso, hsw, hsr⟩ := hs
      exact ⟨hro.trans hso.symm, hrw.trans hsw.symm, hrr.trans hsr.symm⟩
  | ok d =>
      obtain ⟨hro, hrw, hrr⟩ := hr.eq_answer
      obtain ⟨hso, hsw, hsr⟩ := hs.eq_answer
      exact ⟨hro.trans hso.symm, hrw.trans hsw.symm, hrr.trans hsr.symm⟩

end StreamRun

/-! ## Checks -/

section Checks

variable {config : Config} {block : Block}

/-- A rejected definition leaves all words. -/
theorem checkAfter_of_error {e : DefinitionError}
    (h : Definition.parse config block.text = .error e) (fault : Option DecodeError)
    (room : Option Nat) :
    let r := checkAfter config block fault room
    r.outcome = .error (.refused (.definition e)) ∧ r.labels = [] ∧ r.rest = block.rest := by
  simp [checkAfter, h]

/-- With an automaton, a check is the answers to its words. -/
theorem checkAfter_of_ok {d : Automaton} (h : Definition.parse config block.text = .ok d)
    (fault : Option DecodeError) (room : Option Nat) :
    let r := checkAfter config block fault room
    let answers := answer config d fault room block.rest
    r.outcome = answers.stop.elim (.ok answers.labels.length) .error ∧
      r.labels = answers.labels ∧ r.rest = answers.rest := by
  simp only [checkAfter, h]
  cases (answer config d fault room block.rest).stop <;> simp

end Checks

/-- A check that has read its block reports on the lines after it. -/
theorem checkAfter_reports (config : Config) (block : Block) :
    (checkAfter config block none none).Reports config block.rest
      (Definition.parse config block.text) := by
  cases hparse : Definition.parse config block.text with
  | error e =>
      obtain ⟨houtcome, hlabels, hrest⟩ := checkAfter_of_error hparse none none
      exact .rejected e houtcome (by rw [StreamRun.output, hlabels]; rfl) hrest
  | ok d =>
      obtain ⟨houtcome, hlabels, hrest⟩ := checkAfter_of_ok hparse none none
      rcases evaluated_or_undefined d block.rest with
        ⟨accepted, h⟩ | ⟨front, query, more, accepted, u, hsplit, h, hu⟩
      · have hlength : block.rest.length = accepted.length := by
          simpa using congrArg List.length h
        rw [answer_of_evaluated config h none] at houtcome hlabels hrest
        refine .answered d accepted h ?_ ?_ hrest
        · simpa [hlength] using houtcome
        · rw [StreamRun.output, hlabels, List.flatMap_map]
      · rw [hsplit, answer_of_undefined config h hu none more] at houtcome hlabels hrest
        refine .stuck d front query more accepted u hsplit h hu houtcome ?_ hrest
        rw [StreamRun.output, hlabels, List.flatMap_map]

/-- The automaton that answers the words is logged before the first of them. -/
theorem parsed_mem_log_checkAfter {config : Config} {block : Block} {d : Automaton}
    (h : Definition.parse config block.text = .ok d) (fault : Option DecodeError)
    (room : Option Nat) : Event.parsed d ∈ (checkAfter config block fault room).log := by
  simp only [checkAfter, h, Event.ofParse]
  split <;> simp

/-- A check fails before it looks at its definition, whatever the output takes, or it goes on from
the block that it has read. -/
theorem checkStream_cases (config : Config) (source : Source) :
    (∃ (r : StreamRun) (e : DecodeError), r.outcome = .error (.undecodable e) ∧ r.labels = [] ∧
      ∀ room, checkStream config source room = r) ∨
    ∃ block fault, ∀ room, checkStream config source room = checkAfter config block fault room := by
  simp only [checkStream]
  cases (Block.read config.terminator source.lines).closed with
  | true => exact .inr ⟨_, _, fun _ ↦ rfl⟩
  | false =>
      cases source.fault with
      | none => exact .inr ⟨_, _, fun _ ↦ rfl⟩
      | some e => exact .inl ⟨_, e, rfl, rfl, fun _ ↦ rfl⟩

/-- The words of a stream are not rejected for a definition. -/
theorem stop_answer_ne_definition (config : Config) (d : Automaton) (fault : Option DecodeError)
    (room : Option Nat) (lines : List Text) (e : DefinitionError) :
    (answer config d fault room lines).stop ≠ some (.refused (.definition e)) := by
  induction lines generalizing room with
  | nil => cases fault <;> simp [answer]
  | cons line more ih =>
      rw [answer]
      split
      · simp
      · split
        · exact ih _
        · simp

/-- A stream whose definition is rejected has a text that is rejected for the same fault. -/
theorem exists_parse_of_outcome {config : Config} {source : Source} {room : Option Nat}
    {e : DefinitionError}
    (h : (checkStream config source room).outcome = .error (.refused (.definition e))) :
    ∃ text, Definition.parse config text = .error e := by
  rcases checkStream_cases config source with ⟨r, u, hundecodable, -, hr⟩ | ⟨block, fault, hr⟩
  · rw [hr, hundecodable] at h
    cases h
  · rw [hr] at h
    cases hparse : Definition.parse config block.text with
    | error e' =>
        rw [(checkAfter_of_error hparse fault room).1] at h
        cases h
        exact ⟨block.text, hparse⟩
    | ok d =>
        rw [(checkAfter_of_ok hparse fault room).1] at h
        cases hstop : (answer config d fault room block.rest).stop with
        | none =>
            rw [hstop] at h
            cases h
        | some stop =>
            rw [hstop] at h
            obtain rfl := Except.error.inj h
            exact absurd hstop (stop_answer_ne_definition config d fault room block.rest e)

/-- With a source that cannot fail, a check goes on as soon as the block is read. -/
theorem checkStream_of_lines (config : Config) (lines : List Text) (room : Option Nat) :
    checkStream config { lines } room =
      checkAfter config (Block.read config.terminator lines) none room := by
  rw [checkStream]
  split
  · next hfault => simp at hfault
  · rfl

/-- A text is a source that cannot fail. -/
theorem checkStream_ofText (config : Config) (t : Text) (room : Option Nat) :
    checkStream config (.ofText t) room =
      checkAfter config (Block.read config.terminator (Text.delivered t)) none room :=
  checkStream_of_lines config (Text.delivered t) room

/-- For every text, the lines before the first terminator are the definition and those after it
the words, and the check reports on them. -/
theorem checkStream_ofText_reports (config : Config) (t : Text) :
    let lines := Text.delivered t
    let k := lines.findIdx fun line ↦ Text.trim line = config.terminator
    let definition := ['\n'].intercalate ((lines.take k).map Text.chomp)
    (checkStream config (.ofText t) none).Reports config (lines.drop (k + 1))
      (Definition.parse config definition) := by
  rw [checkStream_ofText]
  have h := checkAfter_reports config (Block.read config.terminator (Text.delivered t))
  rwa [Block.read_eq] at h ⊢

end Acceptor
