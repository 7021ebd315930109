import Acceptor.Proofs.Stream.Reports
import Acceptor.Proofs.Text.Tokens

/-!
# Words on query lines

A word is asked by a line with its symbols on it, and the same word can be asked by many lines: the
spacing is free, and any line ends may follow.  What is read from each of them is the word, unless
the word's own last character is a line end, which no line can tell from the ends that follow it.

* `Asks.wordOf_eq`: the word that is read is the word that was written.
* `written_words_are_answered`: so every word gets the answer of the automaton, on a line by itself
  and on the lines of a stream.
-/

namespace Acceptor

/-- The words that lines can hold: their symbols are tokens, and the last one does not end as a line
does. -/
structure IsAskable (w : Word) : Prop where
  isToken : ∀ a ∈ w, Text.IsToken a
  last : ∀ a ∈ w.getLast?, a.getLast? ≠ some '\r' ∧ a.getLast? ≠ some '\n'

instance (w : Word) : Decidable (IsAskable w) :=
  decidable_of_iff ((∀ a ∈ w, Text.IsToken a) ∧
    ∀ a ∈ w.getLast?, a.getLast? ≠ some '\r' ∧ a.getLast? ≠ some '\n')
    ⟨fun h ↦ ⟨h.1, h.2⟩, fun h ↦ ⟨h.isToken, h.last⟩⟩

/-- The lines that are written for a word: its symbols in order with one space or more between
neighbours and any number of spaces at the two ends, and then any line ends. -/
inductive Asks (w : Word) : Text → Prop
  | intro (body ends : Text) (spaced : Text.Spaced w body)
      (isLineEnd : ∀ c ∈ ends, Text.isLineEnd c) : Asks w (body ++ ends)

variable {config : Config} {d : Automaton} {w : Word} {line : Text}

/-! ## Lines -/

theorem IsAskable.tail {a : Symbol} (h : IsAskable (a :: w)) : IsAskable w := by
  refine ⟨fun b hb ↦ h.isToken b (List.mem_cons_of_mem a hb), ?_⟩
  cases w with
  | nil => simp
  | cons b w => exact h.last

/-- The symbols and spaces of a line end in no line end of their own. -/
theorem IsAskable.not_isLineEnd (h : IsAskable w) (spaced : Text.Spaced w line) :
    ∀ c, line.getLast? = some c → ¬ Text.isLineEnd c := by
  induction spaced with
  | nil => simp
  | @space ts line _ ih =>
      intro c hc
      rcases List.eq_nil_or_concat line with rfl | ⟨front, last, rfl⟩
      · obtain rfl := Option.some.inj hc
        decide
      · exact ih h c (by simpa [List.getLast?_cons] using hc)
  | last _ =>
      intro c hc hend
      obtain ⟨hreturn, hfeed⟩ := h.last _ rfl
      simp only [Text.isLineEnd, Bool.or_eq_true, beq_iff_eq] at hend
      rcases hend with rfl | rfl
      · exact hreturn hc
      · exact hfeed hc
  | @token t ts line _ _ ih =>
      intro c hc
      rcases List.eq_nil_or_concat line with rfl | ⟨front, last, rfl⟩
      · obtain rfl : ' ' = c := by simpa using hc
        decide
      · exact ih h.tail c (by simpa [List.getLast?_append, List.getLast?_cons] using hc)

/-- Chomping takes the line ends off and nothing else. -/
theorem IsAskable.chomp_eq (h : IsAskable w) {ends : Text} (spaced : Text.Spaced w line)
    (isLineEnd : ∀ c ∈ ends, Text.isLineEnd c) : Text.chomp (line ++ ends) = line := by
  rw [Text.chomp_append_of_ends line isLineEnd]
  exact Text.dropEndWhile_eq_self_iff.2 (h.not_isLineEnd spaced)

/-- The word that is read from a line is the one that it was written for. -/
theorem Asks.wordOf_eq (hline : Asks w line) (h : IsAskable w) : Text.wordOf line = w := by
  obtain ⟨body, ends, spaced, isLineEnd⟩ := hline
  rw [Text.wordOf, h.chomp_eq spaced isLineEnd, spaced.tokens_eq]

/-- Every word has the line with single spaces and a line feed. -/
theorem IsAskable.asks (h : IsAskable w) : Asks w ([' '].intercalate w ++ ['\n']) :=
  .intro _ _ (Text.tokens_eq_iff.1 (Text.tokens_intercalate h.isToken)) (by simp [Text.isLineEnd])

theorem map_wordOf_eq {words : List Word} {lines : List Text} (h : ∀ w ∈ words, IsAskable w)
    (asked : List.Forall₂ Asks words lines) : lines.map Text.wordOf = words := by
  induction asked with
  | nil => rfl
  | @cons w line words lines hline _ ih =>
      obtain ⟨hw, hwords⟩ := List.forall_mem_cons.1 h
      rw [List.map_cons, hline.wordOf_eq hw, ih hwords]

/-! ## Streams -/

/-- A stream that asks words of an automaton, line by line.  Every line is ended by its only line
feed, but one more query may follow without one. -/
structure Inquiry (config : Config) (d : Automaton) where
  /-- The lines of the definition. -/
  definition : List Text
  terminator : Text
  /-- The query lines. -/
  queries : List Text
  /-- What stands after the last line feed. -/
  last : Text
  ended : ∀ line ∈ definition ++ terminator :: queries,
    line.getLast? = some '\n' ∧ '\n' ∉ line.dropLast
  unended : '\n' ∉ last
  inside : ∀ line ∈ definition, Text.trim line ≠ config.terminator
  closes : Text.trim terminator = config.terminator
  valid : Definition.parse config (['\n'].intercalate (definition.map Text.chomp)) = .ok d

namespace Inquiry

def text (inquiry : Inquiry config d) : Text :=
  (inquiry.definition ++ inquiry.terminator :: inquiry.queries).flatten ++ inquiry.last

/-- The query lines and, when there is one, the last line. -/
def lines (inquiry : Inquiry config d) : List Text :=
  inquiry.queries ++ if inquiry.last = [] then [] else [inquiry.last]

theorem delivered_text (inquiry : Inquiry config d) :
    Text.delivered inquiry.text =
      inquiry.definition ++ inquiry.terminator :: inquiry.lines := by
  rw [text, Text.delivered_flatten_append inquiry.ended, Text.delivered_of_notMem inquiry.unended,
    List.append_assoc, List.cons_append, lines]
  simp only [List.isEmpty_iff]

theorem read_text (inquiry : Inquiry config d) :
    Block.read config.terminator (Text.delivered inquiry.text) =
      ⟨inquiry.definition.map Text.chomp, true, inquiry.lines⟩ := by
  rw [delivered_text, Block.read_append_terminator inquiry.inside inquiry.closes]

/-- What a check of the stream does is what the answers to its query lines are. -/
theorem checkStream_eq (inquiry : Inquiry config d) :
    let r := checkStream config (.ofText inquiry.text) none
    let answers := answer config d none none inquiry.lines
    r.outcome = answers.stop.elim (.ok answers.labels.length) .error ∧
      r.labels = answers.labels ∧ r.rest = answers.rest := by
  rw [checkStream_ofText, read_text]
  exact checkAfter_of_ok inquiry.valid none none

end Inquiry

/-- A word that is written on a line is read back and gets its own answer there, whatever the
spacing and the line ends, and every word can be written so.  On the query lines of a stream the
words are answered in order, one label for each: all of them, or those before the first that gets
stuck, and then the lines after it are left. -/
theorem written_words_are_answered (config : Config) (d : Automaton) :
    (∀ w, IsAskable w → Asks w ([' '].intercalate w ++ ['\n']) ∧
      ∀ line, Asks w line → Text.wordOf line = w ∧
        checkLine config d line = (d.accepts w).map config.label) ∧
    ∀ (inquiry : Inquiry config d) (words : List Word), (∀ w ∈ words, IsAskable w) →
      List.Forall₂ Asks words inquiry.lines →
      let r := checkStream config (.ofText inquiry.text) none
      (∃ accepted : List Bool, words.map d.accepts = accepted.map .ok ∧
        r.outcome = .ok words.length ∧ r.labels = accepted.map config.label ∧ r.rest = []) ∨
      ∃ front w more u, ∃ accepted : List Bool, words = front ++ w :: more ∧
        front.map d.accepts = accepted.map .ok ∧ d.accepts w = .error u ∧
        r.outcome = .error (.refused (.word u)) ∧ r.labels = accepted.map config.label ∧
        r.rest = inquiry.lines.drop (front.length + 1) := by
  refine ⟨fun w hw ↦ ⟨hw.asks, fun line hline ↦ ?_⟩, fun inquiry words hwords asked ↦ ?_⟩
  · have hword := hline.wordOf_eq hw
    exact ⟨hword, by rw [checkLine, hword]⟩
  · intro r
    obtain ⟨houtcome, hlabels, hrest⟩ := inquiry.checkStream_eq
    have hlines := map_wordOf_eq hwords asked
    rcases evaluated_or_undefined d inquiry.lines with
      ⟨accepted, h⟩ | ⟨front, line, more, accepted, u, hsplit, h, hu⟩
    · rw [answer_of_evaluated config h none] at houtcome hlabels hrest
      have haccepted : words.map d.accepts = accepted.map .ok := by
        rw [← hlines, List.map_map]
        exact h
      have hlength : words.length = accepted.length := by
        simpa using congrArg List.length haccepted
      refine .inl ⟨accepted, haccepted, ?_, hlabels, hrest⟩
      rw [hlength, ← List.length_map config.label]
      exact houtcome
    · rw [hsplit] at hlines houtcome hlabels hrest ⊢
      rw [answer_of_undefined config h hu none more] at houtcome hlabels hrest
      refine .inr ⟨front.map Text.wordOf, Text.wordOf line, more.map Text.wordOf, u, accepted,
        ?_, ?_, hu, houtcome, hlabels, ?_⟩
      · rw [← hlines, List.map_append, List.map_cons]
      · rw [List.map_map]
        exact h
      · rw [List.length_map, List.drop_append, hrest]
        simp

/-- Three words, the second of them empty, with all kinds of spacing and line ends.  A carriage
return inside a symbol belongs to it. -/
theorem written_words_are_answered_spaced :
    let d := Automaton.build ["a".toList, "b\rc".toList] ["q".toList] "q".toList ["q".toList]
      [⟨"q".toList, "a".toList, "q".toList⟩, ⟨"q".toList, "b\rc".toList, "q".toList⟩]
    let words : List Word := [["a".toList, "b\rc".toList], [], ["b\rc".toList]]
    let stream := "dfa\na b\rc\nq\nq\nq\nq a q\nq b\rc q\n --- \r\n".toList ++
      "  a  b\rc \r\r\n  \r\nb\rc".toList
    let r := checkStream {} (.ofText stream) none
    Text.wordOf "  a  b\rc \r\r\n".toList = ["a".toList, "b\rc".toList] ∧
      ∃ accepted : List Bool, words.map d.accepts = accepted.map .ok ∧
        r.outcome = .ok 3 ∧ r.labels = accepted.map ({} : Config).label ∧ r.rest = [] := by
  intro d words stream r
  obtain ⟨hword, hstream⟩ := written_words_are_answered {} d
  let inquiry : Inquiry {} d :=
    { definition := ["dfa\n".toList, "a b\rc\n".toList, "q\n".toList, "q\n".toList, "q\n".toList,
        "q a q\n".toList, "q b\rc q\n".toList]
      terminator := " --- \r\n".toList
      queries := ["  a  b\rc \r\r\n".toList, "  \r\n".toList]
      last := "b\rc".toList
      ended := by decide +kernel
      unended := by decide
      inside := by decide +kernel
      closes := by decide +kernel
      valid := by decide +kernel }
  have hwords : ∀ w ∈ words, IsAskable w := by decide +kernel
  have hasked : List.Forall₂ Asks words inquiry.lines := by
    refine .cons ?_ (.cons ?_ (.cons ?_ .nil))
    · exact .intro "  a  b\rc ".toList "\r\r\n".toList (Text.tokens_eq_iff.1 (by decide +kernel))
        (by simp [Text.isLineEnd])
    · exact .intro "  ".toList "\r\n".toList (Text.tokens_eq_iff.1 (by decide +kernel))
        (by simp [Text.isLineEnd])
    · exact .intro "b\rc".toList [] (Text.tokens_eq_iff.1 (by decide +kernel)) (by simp)
  have hfirst : Asks ["a".toList, "b\rc".toList] "  a  b\rc \r\r\n".toList :=
    (List.forall₂_cons.1 hasked).1
  refine ⟨((hword _ (hwords _ List.mem_cons_self)).2 _ hfirst).1, ?_⟩
  rcases hstream inquiry words hwords hasked with h | ⟨front, w, more, u, -, hsplit, -, hu, -⟩
  · exact h
  · have hmem : w ∈ words := by
      rw [hsplit]
      exact List.mem_append_right front List.mem_cons_self
    have hall : ∀ w ∈ words, d.accepts w = .ok true := by decide +kernel
    cases (hall w hmem).symm.trans hu

end Acceptor
