import Acceptor.Proofs.Text.Lines

/-!
# Written lines

Lines are written as a text by giving each of them a line end, of either kind, where the last line
may go without.  The lines that are read from the text are the ones that were written, up to empty
lines at the end, unless a line feed has taken over a carriage return from the line before it.

* `Written.lines_eq` reads lines back, in whatever way they were written.  `lines_flatMap_crlf` and
  `lines_intercalate` are two of the ways.
* `lines_append_ends`: line ends at the end of a text do not matter.
-/

namespace Acceptor.Text

/-! ## Line ends -/

/-- A line is ended by a line feed, alone or behind a carriage return. -/
inductive LineEnd where
  | feed
  | returnFeed
deriving DecidableEq, Repr

def LineEnd.text : LineEnd → Text
  | feed => ['\n']
  | returnFeed => ['\r', '\n']

/-- A line that can be told from the end after it: it holds no line feed, and a line feed alone
finds no carriage return before it. -/
structure LineEnd.Fits (e : LineEnd) (line : Text) : Prop where
  notMem_feed : '\n' ∉ line
  getLast?_ne : e = feed → line.getLast? ≠ some '\r'

/-- The texts that given lines are written as, in order and each with an end that it can be told
from.  The last line may be written without one. -/
inductive Written : List Text → Text → Prop
  | nil : Written [] []
  | last {line : Text} (notMem_feed : '\n' ∉ line) : Written [line] line
  | ended {line : Text} {ls : List Text} {t : Text} (e : LineEnd) (fits : e.Fits line)
      (more : Written ls t) : Written (line :: ls) (line ++ e.text ++ t)

variable {e : LineEnd} {line t : Text} {ls : List Text}

/-! ## Reading written lines back -/

theorem pieces_ended (h : e.Fits line) (rest : Text) :
    pieces (line ++ e.text ++ rest) = line :: pieces rest := by
  cases e with
  | feed =>
      rw [LineEnd.text, List.append_assoc, List.singleton_append,
        pieces_append_newline h.notMem_feed, dropReturn_of_ne (h.getLast?_ne rfl)]
  | returnFeed =>
      have hline : '\n' ∉ line ++ ['\r'] := by simpa using h.notMem_feed
      have htext : line ++ ['\r', '\n'] ++ rest = (line ++ ['\r']) ++ '\n' :: rest := by simp
      rw [LineEnd.text, htext, pieces_append_newline hline, dropReturn_concat]

theorem Written.lines_eq (h : Written ls t) : lines t = dropEndWhile List.isEmpty ls := by
  rw [lines_eq_dropEndWhile]
  induction h with
  | nil => rfl
  | last notMem_feed => rw [pieces_of_notMem notMem_feed]
  | ended e fits _ ih =>
      rw [pieces_ended fits, dropEndWhile_isEmpty_cons_inj]
      exact ⟨rfl, ih⟩

/-- Every text is written, and its pieces are lines that it is written from. -/
theorem written_pieces (t : Text) : Written (pieces t) t := by
  induction t using piece_induction '\n' with
  | last piece h =>
      rw [pieces_of_notMem h]
      exact .last h
  | more piece rest h ih =>
      rw [pieces_append_newline h]
      by_cases hreturn : piece.getLast? = some '\r'
      · obtain ⟨line, rfl⟩ := List.getLast?_eq_some_iff.1 hreturn
        have hline : '\n' ∉ line := fun hmem ↦ h (List.mem_append_left _ hmem)
        rw [dropReturn_concat, List.append_assoc]
        have hwritten := Written.ended .returnFeed ⟨hline, by simp⟩ ih
        rwa [LineEnd.text, List.append_assoc] at hwritten
      · rw [dropReturn_of_ne hreturn]
        have hwritten := Written.ended .feed ⟨h, fun _ ↦ hreturn⟩ ih
        rwa [LineEnd.text, List.append_assoc] at hwritten

/-- Lines that are each ended by a carriage return and a line feed are read back, whatever they
end in themselves. -/
theorem lines_flatMap_crlf (h : ∀ line ∈ ls, '\n' ∉ line) :
    lines (ls.flatMap (· ++ ['\r', '\n'])) = dropEndWhile List.isEmpty ls := by
  suffices hwritten : Written ls (ls.flatMap (· ++ ['\r', '\n'])) from hwritten.lines_eq
  induction ls with
  | nil => exact .nil
  | cons line ls ih =>
      obtain ⟨hline, hls⟩ := List.forall_mem_cons.1 h
      exact .ended .returnFeed ⟨hline, by simp⟩ (ih hls)

/-- Lines that are joined by line feeds are read back when none ends in a carriage return. -/
theorem lines_intercalate (h : ∀ line ∈ ls, '\n' ∉ line ∧ line.getLast? ≠ some '\r') :
    lines (['\n'].intercalate ls) = dropEndWhile List.isEmpty ls := by
  suffices hwritten : Written ls (['\n'].intercalate ls) from hwritten.lines_eq
  induction ls with
  | nil => exact .nil
  | cons line ls ih =>
      obtain ⟨⟨hfeed, hreturn⟩, hls⟩ := List.forall_mem_cons.1 h
      cases ls with
      | nil => simpa using Written.last hfeed
      | cons next ls =>
          rw [List.intercalate_cons_cons]
          exact .ended .feed ⟨hfeed, fun _ ↦ hreturn⟩ (ih hls)

/-- Chomped lines that are joined by line feeds are read back. -/
theorem lines_intercalate_chomp (h : ∀ line ∈ ls, '\n' ∉ chomp line) :
    lines (['\n'].intercalate (ls.map chomp)) = dropEndWhile List.isEmpty (ls.map chomp) :=
  lines_intercalate <| List.forall_mem_map.2 fun line hline ↦ ⟨h line hline, getLast?_chomp_ne line⟩

/-! ## Line ends at the end -/

/-- A line end separates what is before it from what is after it. -/
theorem pieces_append (h : t.getLast? ≠ some '\r') (e : LineEnd) (rest : Text) :
    pieces (t ++ e.text ++ rest) = pieces t ++ pieces rest := by
  induction t using piece_induction '\n' with
  | last piece hpiece =>
      rw [pieces_ended ⟨hpiece, fun _ ↦ h⟩, pieces_of_notMem hpiece, List.singleton_append]
  | more piece t hpiece ih =>
      have hlast : t.getLast? ≠ some '\r' := by
        cases t with
        | nil => simp
        | cons c t => simpa using h
      rw [List.append_assoc, List.append_assoc, List.cons_append, pieces_append_newline hpiece,
        pieces_append_newline hpiece, ← List.append_assoc, ih hlast, List.cons_append]

theorem LineEnd.getLast?_append_text (e : LineEnd) (t : Text) :
    (t ++ e.text).getLast? = some '\n' := by
  cases e <;> simp [text]

theorem lines_append_ends (h : t.getLast? ≠ some '\r') (ends : List LineEnd) :
    lines (t ++ ends.flatMap LineEnd.text) = lines t := by
  induction ends generalizing t with
  | nil => simp
  | cons e ends ih =>
      have hlast : (t ++ e.text).getLast? ≠ some '\r' := by simp [e.getLast?_append_text t]
      have hone : lines (t ++ e.text) = lines t := by
        rw [lines_eq_dropEndWhile, ← List.append_nil (t ++ e.text), pieces_append h,
          lines_eq_dropEndWhile]
        exact dropEndWhile_append_of_all _ (by simp [pieces_of_notMem])
      rw [List.flatMap_cons, ← List.append_assoc, ih hlast, hone]

/-- Every text is written from some lines, and whichever they are, they are its lines up to the
empty ones at the end.  No line of a text holds a line feed and the last one is not empty, and line
ends that are put behind a text add no lines to it, unless its last character is a carriage
return. -/
theorem written_lines_recovered (t : Text) :
    (∃ ls, Written ls t) ∧
    (∀ ls, Written ls t → lines t = ls.rdropWhile List.isEmpty) ∧
    (∀ line ∈ lines t, '\n' ∉ line) ∧
    (∀ line, (lines t).getLast? = some line → line ≠ []) ∧
    (t.getLast? ≠ some '\r' → ∀ ends : List LineEnd,
      lines (t ++ ends.flatMap LineEnd.text) = lines t) := by
  refine ⟨⟨pieces t, written_pieces t⟩, fun ls h ↦ ?_, fun line h ↦ notMem_of_mem_lines h,
    fun line h hnil ↦ ?_, lines_append_ends⟩
  · rw [h.lines_eq, dropEndWhile_eq_rdropWhile]
  · rw [lines_eq_dropEndWhile] at h
    exact not_of_getLast?_dropEndWhile h (List.isEmpty_iff.2 hnil)

/-- Lines with ends of both kinds, a blank one among them and two at the end.  The carriage return
that the first line ends in is kept, as another one belongs to its end. -/
theorem written_lines_recovered_mixed_ends :
    let ls := ["a\r".toList, [], "b".toList, [], []]
    let t := "a\r\r\n\nb\r\n\r\n\n".toList
    Written ls t ∧ lines t = ["a\r".toList, [], "b".toList] ∧
      t.getLast? ≠ some '\r' ∧ lines (t ++ "\r\n\n".toList) = lines t := by
  intro ls t
  have hwritten : Written ls t :=
    .ended .returnFeed ⟨by decide, by simp⟩ <| .ended .feed ⟨by simp, by simp⟩ <|
      .ended .returnFeed ⟨by decide, by simp⟩ <| .ended .returnFeed ⟨by simp, by simp⟩ <|
      .ended .feed ⟨by simp, by simp⟩ .nil
  have hlast : t.getLast? ≠ some '\r' := by decide
  obtain ⟨-, hlines, -, -, hends⟩ := written_lines_recovered t
  refine ⟨hwritten, hlines ls hwritten, hlast, hends hlast [.returnFeed, .feed]⟩

end Acceptor.Text
