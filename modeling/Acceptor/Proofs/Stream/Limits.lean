import Acceptor.Proofs.Stream.Reports

/-!
# Limited outputs

Every label is written before the next line is read, so an output that fails after some number of
labels cuts a check short at the first one that it does not take.  Up to there nothing is different
from an output without a limit, and what would come after it is never met: `answer_limited` says so
for the words on some lines, by one step for each line, and the other statements for whole streams.
-/

namespace Acceptor

variable {config : Config} {d : Automaton} {block : Block} {fault : Option DecodeError}
  {source : Source} {n : Nat}

/-! ## Answers -/

/-- The answers to the given lines when the output takes so many labels and no more.  The line whose
label it does not take has been read. -/
def Answers.limited (a : Answers) (lines : List Text) (n : Nat) : Answers :=
  if a.labels.length ≤ n then a else ⟨a.labels.take n, lines.drop (n + 1), some .outputFull⟩

theorem Answers.limited_of_le {a : Answers} (h : a.labels.length ≤ n) (lines : List Text) :
    a.limited lines n = a := if_pos h

theorem Answers.limited_of_lt {a : Answers} (h : n < a.labels.length) (lines : List Text) :
    a.limited lines n = ⟨a.labels.take n, lines.drop (n + 1), some .outputFull⟩ :=
  if_neg (Nat.not_le.2 h)

/-- One label more, one line more and room for one more. -/
theorem Answers.limited_push (a : Answers) (label line : Text) (lines : List Text) (n : Nat) :
    (a.push label).limited (line :: lines) (n + 1) = (a.limited lines n).push label := by
  have hlength : (a.push label).labels.length = a.labels.length + 1 := rfl
  rcases Nat.lt_or_ge n a.labels.length with h | h
  · rw [limited_of_lt h, limited_of_lt (by omega)]
    rfl
  · rw [limited_of_le h, limited_of_le (by omega)]

/-- With room for so many labels the answers are those of an output without a limit, up to the label
that finds no room. -/
theorem answer_limited (config : Config) (d : Automaton) (fault : Option DecodeError) (n : Nat)
    (lines : List Text) :
    answer config d fault (some n) lines = (answer config d fault none lines).limited lines n := by
  induction lines generalizing n with
  | nil => exact (Answers.limited_of_le (Nat.zero_le n) []).symm
  | cons line more ih =>
      rw [answer, answer]
      cases checkLine config d line with
      | error u => exact (Answers.limited_of_le (Nat.zero_le n) _).symm
      | ok label =>
          cases n with
          | zero =>
              have hlabel : 0 < ((answer config d fault none more).push label).labels.length :=
                Nat.succ_pos _
              exact (Answers.limited_of_lt hlabel (line :: more)).symm
          | succ n =>
              show (answer config d fault (some n) more).push label =
                ((answer config d fault none more).push label).limited (line :: more) (n + 1)
              rw [Answers.limited_push, ih]

/-- What is written for words is a label for each of them. -/
theorem exists_labels_answer (config : Config) (d : Automaton) (fault : Option DecodeError)
    (lines : List Text) :
    ∃ accepted : List Bool,
      (answer config d fault none lines).labels = accepted.map config.label := by
  rcases evaluated_or_undefined d lines with
    ⟨accepted, h⟩ | ⟨front, line, more, accepted, u, rfl, h, hu⟩
  · exact ⟨accepted, by rw [answer_of_evaluated config h fault]⟩
  · exact ⟨accepted, by rw [answer_of_undefined config h hu fault more]⟩

/-! ## Whole streams -/

/-- Room for all labels is as good as any. -/
theorem checkAfter_of_length_le (h : (checkAfter config block fault none).labels.length ≤ n) :
    checkAfter config block fault (some n) = checkAfter config block fault none := by
  cases hparse : Definition.parse config block.text with
  | error e => simp only [checkAfter, hparse]
  | ok d =>
      rw [(checkAfter_of_ok hparse fault none).2.1] at h
      simp only [checkAfter, hparse, answer_limited, Answers.limited_of_le h]

/-- Without room for all labels, the check ends at the first that finds none. -/
theorem checkAfter_of_lt_length (h : n < (checkAfter config block fault none).labels.length) :
    let r := checkAfter config block fault (some n)
    r.outcome = .error .outputFull ∧
      r.labels = (checkAfter config block fault none).labels.take n := by
  cases hparse : Definition.parse config block.text with
  | error e =>
      rw [(checkAfter_of_error hparse fault none).2.1] at h
      exact absurd h (Nat.not_lt_zero n)
  | ok d =>
      have hall := (checkAfter_of_ok hparse fault none).2.1
      obtain ⟨houtcome, hlabels, -⟩ := checkAfter_of_ok hparse fault (some n)
      rw [hall] at h
      rw [answer_limited, Answers.limited_of_lt h] at houtcome hlabels
      exact ⟨houtcome, hlabels.trans (congrArg (List.take n) hall.symm)⟩

theorem exists_labels_checkAfter (config : Config) (block : Block) (fault : Option DecodeError) :
    ∃ accepted : List Bool,
      (checkAfter config block fault none).labels = accepted.map config.label := by
  cases hparse : Definition.parse config block.text with
  | error e => exact ⟨[], (checkAfter_of_error hparse fault none).2.1⟩
  | ok d =>
      rw [(checkAfter_of_ok hparse fault none).2.1]
      exact exists_labels_answer config d fault block.rest

/-- A check writes labels and nothing else.  An output that takes all of them makes no difference,
and one that does not ends the check at the first that it does not take. -/
theorem checkStream_limited (config : Config) (source : Source) :
    let r := checkStream config source none
    (∃ accepted : List Bool, r.labels = accepted.map config.label) ∧
    ∀ n, (r.labels.length ≤ n → checkStream config source (some n) = r) ∧
      (n < r.labels.length →
        (checkStream config source (some n)).outcome = .error .outputFull ∧
        (checkStream config source (some n)).labels = r.labels.take n) := by
  rcases checkStream_cases config source with ⟨r, e, -, hlabels, hr⟩ | ⟨block, fault, hr⟩
  · simp only [hr]
    refine ⟨⟨[], hlabels⟩, fun n ↦ ⟨fun _ ↦ trivial, fun h ↦ ?_⟩⟩
    rw [hlabels] at h
    exact absurd h (Nat.not_lt_zero n)
  · simp only [hr]
    exact ⟨exists_labels_checkAfter config block fault,
      fun n ↦ ⟨checkAfter_of_length_le, checkAfter_of_lt_length⟩⟩

end Acceptor
