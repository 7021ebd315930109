import Acceptor.Proofs.Stream.Reports

/-!
# What a check writes

A source of bytes may fail, and then the lines before the failure are all there is.  What is written
for the lines that a source delivers does not depend on how the source ends: `Config.Writes` says
it from the definition and the lines after it alone, and `checkStream_writes` that a check of any
source writes that, and all labels when it succeeds.
-/

namespace Acceptor

/-- What is written for the words on some lines, by what their definition is read as: nothing when
it is rejected, and else the labels of the words before the first one that gets stuck. -/
inductive Config.Writes (config : Config) (queries : List Text) (t : Text) :
    Except DefinitionError Automaton → Prop
  | rejected (e : DefinitionError) (output : t = []) : Writes config queries t (.error e)
  | evaluated (d : Automaton) (front left : List Text) (accepted : List Bool)
      (split : queries = front ++ left)
      (evaluated : front.map (fun line ↦ d.accepts (Text.wordOf line)) = accepted.map .ok)
      (stuck : ∀ line ∈ left.head?, ∃ u, d.accepts (Text.wordOf line) = .error u)
      (output : t = accepted.flatMap fun b ↦ config.label b ++ ['\n']) :
      Writes config queries t (.ok d)

/-- All words of a source are evaluated and written, and the source does not fail. -/
structure Config.WritesAll (config : Config) (queries : List Text) (fault : Option DecodeError)
    (t : Text) (d : Automaton) (accepted : List Bool) : Prop where
  fault : fault = none
  evaluated : queries.map (fun line ↦ d.accepts (Text.wordOf line)) = accepted.map .ok
  output : t = accepted.flatMap fun b ↦ config.label b ++ ['\n']

variable {config : Config}

/-- No words, nothing to write. -/
theorem Config.writes_nil (parsed : Except DefinitionError Automaton) :
    config.Writes [] [] parsed := by
  cases parsed with
  | error e => exact .rejected e rfl
  | ok d => exact .evaluated d [] [] [] rfl rfl (by simp) rfl

/-- When nothing is written for some words, the first of them gets stuck. -/
theorem Config.Writes.exists_error_of_nil {query : Text} {more : List Text} {d : Automaton}
    (h : config.Writes (query :: more) [] (.ok d)) :
    ∃ u, d.accepts (Text.wordOf query) = .error u := by
  cases h with
  | evaluated _ front left accepted split evaluated stuck output =>
      cases accepted with
      | cons b accepted => simp at output
      | nil =>
          obtain rfl := List.map_eq_nil_iff.1 evaluated
          obtain rfl : query :: more = left := split
          exact stuck query rfl

/-- A check that has read its block writes what the words after it ask for. -/
theorem checkAfter_writes (config : Config) (block : Block) (fault : Option DecodeError) :
    let r := checkAfter config block fault none
    let parsed := Definition.parse config block.text
    config.Writes block.rest r.output parsed ∧
      ((∃ n, r.outcome = .ok n) →
        ∃ d accepted, parsed = .ok d ∧ config.WritesAll block.rest fault r.output d accepted) := by
  intro r parsed
  cases hparse : parsed with
  | error e =>
      obtain ⟨houtcome, hlabels, -⟩ := checkAfter_of_error hparse fault none
      refine ⟨.rejected e ?_, ?_⟩
      · rw [StreamRun.output, hlabels, List.flatMap_nil]
      · rintro ⟨n, hn⟩
        cases houtcome.symm.trans hn
  | ok d =>
      obtain ⟨houtcome, hlabels, -⟩ := checkAfter_of_ok hparse fault none
      rcases evaluated_or_undefined d block.rest with
        ⟨accepted, h⟩ | ⟨front, query, more, accepted, u, hsplit, h, hu⟩
      · rw [answer_of_evaluated config h fault] at houtcome hlabels
        have houtput : r.output = accepted.flatMap fun b ↦ config.label b ++ ['\n'] := by
          rw [StreamRun.output, hlabels, List.flatMap_map]
        refine ⟨.evaluated d block.rest [] accepted (by simp) h (by simp) houtput, ?_⟩
        rintro ⟨n, hn⟩
        refine ⟨d, accepted, rfl, ?_, h, houtput⟩
        cases fault with
        | none => rfl
        | some e => cases houtcome.symm.trans hn
      · rw [hsplit, answer_of_undefined config h hu fault more] at houtcome hlabels
        refine ⟨.evaluated d front (query :: more) accepted hsplit h ?_ ?_, ?_⟩
        · exact fun line hline ↦ ⟨u, Option.some.inj hline ▸ hu⟩
        · rw [StreamRun.output, hlabels, List.flatMap_map]
        · rintro ⟨n, hn⟩
          cases houtcome.symm.trans hn

/-- No bytes are no definition. -/
theorem checkStream_readsOf_nil (config : Config) (room : Option Nat) :
    let r := checkStream config (Source.ofReads (Source.readsOf [])) room
    r.outcome = .error (.refused (.definition (.tooFewLines 0))) ∧ r.output = [] := ⟨rfl, rfl⟩

/-- A check of any source writes what the words that were delivered ask for, and when it succeeds it
has written the labels of all of them. -/
theorem checkStream_writes (config : Config) (source : Source) :
    let r := checkStream config source none
    let block := Block.read config.terminator source.lines
    let parsed := Definition.parse config block.text
    config.Writes block.rest r.output parsed ∧
      ((∃ n, r.outcome = .ok n) →
        ∃ d accepted, parsed = .ok d ∧
          config.WritesAll block.rest source.fault r.output d accepted) := by
  simp only [checkStream]
  cases hclosed : (Block.read config.terminator source.lines).closed with
  | true => exact checkAfter_writes config _ source.fault
  | false =>
      cases hfault : source.fault with
      | none => exact checkAfter_writes config _ none
      | some e =>
          rw [Block.rest_eq_nil_of_not_closed hclosed]
          refine ⟨Config.writes_nil _, ?_⟩
          rintro ⟨n, hn⟩
          cases hn

end Acceptor
