import Acceptor.Text.Blank
import Acceptor.Text.Lines

/-!
# Definition blocks

Inside a stream a definition ends at the first line that is the terminator once its blanks are
trimmed.  That line belongs to the block and all lines after it do not; a stream without such
a line is one block.
-/

namespace Acceptor

structure Block where
  /-- The lines before the terminator, without their line ends. -/
  lines : List Text
  /-- Whether there was a terminator. -/
  closed : Bool
  /-- The lines after the terminator. -/
  rest : List Text
deriving DecidableEq, Repr

namespace Block

def read (terminator : Text) : List Text → Block
  | [] => ⟨[], false, []⟩
  | line :: more =>
      if Text.trim line = terminator then ⟨[], true, more⟩
      else
        let block := read terminator more
        { block with lines := Text.chomp line :: block.lines }

/-- The lines joined by line feeds. -/
def text (b : Block) : Text := ['\n'].intercalate b.lines

variable {terminator : Text}

@[simp] theorem read_nil : read terminator [] = ⟨[], false, []⟩ := rfl

theorem read_terminator {line : Text} (h : Text.trim line = terminator) (more : List Text) :
    read terminator (line :: more) = ⟨[], true, more⟩ := by
  simp [read, h]

theorem read_line {line : Text} (h : Text.trim line ≠ terminator) (more : List Text) :
    read terminator (line :: more) =
      { read terminator more with lines := Text.chomp line :: (read terminator more).lines } := by
  simp [read, h]

/-- A block without a terminator leaves nothing. -/
theorem rest_eq_nil_of_not_closed {lines : List Text} (h : (read terminator lines).closed = false) :
    (read terminator lines).rest = [] := by
  induction lines with
  | nil => rfl
  | cons line more ih =>
      by_cases ht : Text.trim line = terminator
      · simp [read_terminator ht] at h
      · rw [read_line ht] at h ⊢
        exact ih h

end Block

end Acceptor
