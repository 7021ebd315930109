import Acceptor.Proofs.Stream.Reports

/-!
# Line ends of streams

A check sees the lines of its source without the carriage returns and line feeds at their ends.
Chomping the lines before the check is therefore the same as chomping those that it leaves
(`checkStream_chomped`), and two texts that differ in their line ends only are checked alike
(`line_ends_irrelevant`).
-/

namespace Acceptor

@[simp] theorem Text.chomp_chomp (line : Text) : chomp (chomp line) = chomp line :=
  dropEndWhile_dropEndWhile line

@[simp] theorem Text.wordOf_chomp (line : Text) : wordOf (chomp line) = wordOf line := by
  rw [wordOf, chomp_chomp, wordOf]

/-! ## Blocks -/

/-- The block with the ends of the lines after it removed.  Those of its own lines are. -/
def Block.chomped (b : Block) : Block := { b with rest := b.rest.map Text.chomp }

@[simp] theorem Block.text_chomped (b : Block) : b.chomped.text = b.text := rfl

/-- Neither the terminator nor the lines of a block depend on line ends. -/
theorem Block.read_chomped (terminator : Text) (lines : List Text) :
    read terminator (lines.map Text.chomp) = (read terminator lines).chomped := by
  induction lines with
  | nil => rfl
  | cons line more ih =>
      rw [List.map_cons]
      by_cases h : Text.trim line = terminator
      · rw [read_terminator h, read_terminator (by rw [Text.trim_chomp, h])]
        rfl
      · rw [read_line h, read_line (by rwa [Text.trim_chomp]), ih, Text.chomp_chomp]
        rfl

/-! ## Words -/

def Answers.chomped (a : Answers) : Answers := { a with rest := a.rest.map Text.chomp }

theorem checkLine_chomp (config : Config) (d : Automaton) (line : Text) :
    checkLine config d (Text.chomp line) = checkLine config d line := by
  rw [checkLine, Text.wordOf_chomp, checkLine]

/-- Line ends do not count for the answers either. -/
theorem answer_chomped (config : Config) (d : Automaton) (fault : Option DecodeError)
    (room : Option Nat) (lines : List Text) :
    answer config d fault room (lines.map Text.chomp) =
      (answer config d fault room lines).chomped := by
  induction lines generalizing room with
  | nil => rfl
  | cons line more ih =>
      rw [List.map_cons, answer, answer, checkLine_chomp]
      cases checkLine config d line with
      | error u => rfl
      | ok label =>
          by_cases hroom : hasRoom room
          · simp only [hroom, if_true, ih]
            rfl
          · simp only [hroom]
            rfl

/-! ## Whole streams -/

def StreamRun.chomped (r : StreamRun) : StreamRun := { r with rest := r.rest.map Text.chomp }

theorem checkAfter_chomped (config : Config) (block : Block) (fault : Option DecodeError)
    (room : Option Nat) :
    checkAfter config block.chomped fault room = (checkAfter config block fault room).chomped := by
  rw [checkAfter, checkAfter, Block.text_chomped]
  cases Definition.parse config block.text with
  | error e => rfl
  | ok d =>
      have hanswer : answer config d fault room block.chomped.rest =
          (answer config d fault room block.rest).chomped :=
        answer_chomped config d fault room block.rest
      simp only [hanswer, Answers.chomped]
      cases (answer config d fault room block.rest).stop <;> rfl

/-- Checking chomped lines is the same check, up to the ends of the lines that it leaves. -/
theorem checkStream_chomped (config : Config) (source : Source) (room : Option Nat) :
    checkStream config { source with lines := source.lines.map Text.chomp } room =
      (checkStream config source room).chomped := by
  have hread := Block.read_chomped config.terminator source.lines
  simp only [checkStream, hread]
  generalize Block.read config.terminator source.lines = block
  obtain ⟨lines, closed, rest⟩ := block
  cases closed with
  | true => exact checkAfter_chomped config ⟨lines, true, rest⟩ source.fault room
  | false =>
      cases source.fault with
      | none => exact checkAfter_chomped config ⟨lines, false, rest⟩ none room
      | some e => rfl

/-- Two texts whose lines agree without their ends are checked alike. -/
theorem line_ends_irrelevant (config : Config) (room : Option Nat) {t t' : Text}
    (h : (Text.delivered t).map Text.chomp = (Text.delivered t').map Text.chomp) :
    let r := checkStream config (.ofText t) room
    let r' := checkStream config (.ofText t') room
    r.outcome = r'.outcome ∧ r.labels = r'.labels ∧ r.output = r'.output ∧ r.log = r'.log ∧
      r.rest.length = r'.rest.length ∧ r.rest.map Text.chomp = r'.rest.map Text.chomp := by
  intro r r'
  have hchomped : r.chomped = r'.chomped :=
    calc r.chomped
      _ = checkStream config { lines := (Text.delivered t).map Text.chomp } room :=
        (checkStream_chomped config (.ofText t) room).symm
      _ = checkStream config { lines := (Text.delivered t').map Text.chomp } room := by rw [h]
      _ = r'.chomped := checkStream_chomped config (.ofText t') room
  obtain ⟨houtcome, hlabels, hrest, hlog⟩ := StreamRun.mk.inj hchomped
  refine ⟨houtcome, hlabels, ?_, hlog, ?_, hrest⟩
  · exact congrArg (List.flatMap (· ++ ['\n'])) hlabels
  · simpa using congrArg List.length hrest

/-- Line feeds alone, and a mixture of all line ends with none after the last line.  The second word
gets stuck and the third is left. -/
theorem line_ends_irrelevant_mixed_ends :
    let t := "dfa\na\nq\nq\nq\nq a q\n---\na a\nb\na\n".toList
    let t' := "dfa\r\na\nq\r\r\nq\nq\r\nq a q\r\r\n---\r\na a\r\nb\r\r\na".toList
    let r := checkStream {} (.ofText t) none
    let r' := checkStream {} (.ofText t') none
    (Text.delivered t).map Text.chomp = (Text.delivered t').map Text.chomp ∧
      r.outcome = r'.outcome ∧ r.output = r'.output ∧ r'.output = "ACEITA\n".toList ∧
      r.log = r'.log ∧ r.rest = ["a\n".toList] ∧ r'.rest = ["a".toList] ∧
      r.rest.map Text.chomp = r'.rest.map Text.chomp := by
  intro t t' r r'
  have h : (Text.delivered t).map Text.chomp = (Text.delivered t').map Text.chomp := by
    decide +kernel
  obtain ⟨houtcome, -, houtput, hlog, -, hrest⟩ := line_ends_irrelevant {} none h
  exact ⟨h, houtcome, houtput, by decide +kernel, hlog, by decide +kernel, by decide +kernel,
    hrest⟩

end Acceptor
