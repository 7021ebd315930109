import Acceptor.Proofs.Stream.Reports

/-!
# Definitions inside streams

A definition can be read as a text of its own or as the block of a stream.  The block loses all
carriage returns at the ends of its lines, the text only those that belong to a line end, so the
two agree exactly when no carriage return is doubled before a line feed and none ends the text.
For such definitions a stream that begins with one is checked with the automaton that the
definition has on its own, or rejected for the same fault.  A stream that is nothing else has no
words, so its check says whether the definition is one.
-/

namespace Acceptor

namespace Block

variable {t terminator : Text}

/-- A definition without a terminator is one block. -/
theorem read_delivered (h : ∀ piece ∈ t.splitOn '\n', Text.trim piece ≠ terminator) :
    read terminator (Text.delivered t) = ⟨(Text.delivered t).map Text.chomp, false, []⟩ := by
  refine read_of_forall_ne fun line hline ↦ ?_
  obtain ⟨piece, hpiece, rfl | rfl⟩ := Text.exists_piece_of_mem_delivered hline
  · exact h line hpiece
  · rw [Text.trim_append_newline]
    exact h piece hpiece

/-- The lines of the block are those of the text exactly when chomping removes no carriage return
that belongs to a line. -/
theorem lines_text_read_eq_iff (h : ∀ piece ∈ t.splitOn '\n', Text.trim piece ≠ terminator) :
    Text.lines (read terminator (Text.delivered t)).text = Text.lines t ↔
      ¬ ['\r', '\r', '\n'] <:+: t ∧ t.getLast? ≠ some '\r' := by
  rw [lines_text_read, read_delivered h]
  exact Text.chomped_eq_lines_iff t

/-- Followed by a terminator and more text, a definition is the block and the text the rest. -/
theorem read_delivered_append (h : ∀ piece ∈ t.splitOn '\n', Text.trim piece ≠ terminator)
    (htrim : Text.trim terminator = terminator) (hfeed : '\n' ∉ terminator) (queries : Text) :
    read terminator (Text.delivered (t ++ '\n' :: (terminator ++ '\n' :: queries))) =
      ⟨(t.splitOn '\n').map Text.chomp, true, Text.delivered queries⟩ := by
  have hfront : ∀ line ∈ (t.splitOn '\n').map (· ++ ['\n']), Text.trim line ≠ terminator := by
    intro line hline
    obtain ⟨piece, hpiece, rfl⟩ := List.mem_map.1 hline
    rw [Text.trim_append_newline]
    exact h piece hpiece
  have hline : Text.trim (terminator ++ ['\n']) = terminator := by
    rw [Text.trim_append_newline, htrim]
  rw [Text.delivered_append, Text.delivered_append_newline hfeed,
    read_append_terminator hfront hline, List.map_map]
  congr 2
  funext piece
  exact Text.chomp_append_newline piece

/-- The block of a stream that begins with a definition has the lines of the definition. -/
theorem lines_text_read_append (h : ∀ piece ∈ t.splitOn '\n', Text.trim piece ≠ terminator)
    (htrim : Text.trim terminator = terminator) (hfeed : '\n' ∉ terminator)
    (hdoubled : ¬ ['\r', '\r', '\n'] <:+: t) (hlast : t.getLast? ≠ some '\r')
    (queries : Text) :
    let stream := t ++ '\n' :: (terminator ++ '\n' :: queries)
    Text.lines (read terminator (Text.delivered stream)).text = Text.lines t := by
  intro stream
  rw [lines_text_read, read_delivered_append h htrim hfeed queries, Text.chomped_splitOn]
  exact (Text.chomped_eq_lines_iff t).2 ⟨hdoubled, hlast⟩

end Block

/-- The check of a definition and nothing else. -/
theorem checkStream_ofText_alone {config : Config} {t : Text}
    (h : ∀ piece ∈ t.splitOn '\n', Text.trim piece ≠ config.terminator)
    (hdoubled : ¬ ['\r', '\r', '\n'] <:+: t) (hlast : t.getLast? ≠ some '\r')
    (room : Option Nat) :
    let r := checkStream config (.ofText t) room
    r.labels = [] ∧ ((∃ n, r.outcome = .ok n) ↔ ∃ d, Definition.parse config t = .ok d) ∧
      ∀ e, Definition.parse config t = .error e →
        r.outcome = .error (.refused (.definition e)) := by
  let block := Block.read config.terminator (Text.delivered t)
  have hrest : block.rest = [] := congrArg Block.rest (Block.read_delivered h)
  have hparse : Definition.parse config block.text = Definition.parse config t := by
    rw [Definition.parse, Definition.parse, (Block.lines_text_read_eq_iff h).2 ⟨hdoubled, hlast⟩]
  rw [checkStream_ofText]
  cases hd : Definition.parse config t with
  | error e =>
      obtain ⟨houtcome, hlabels, -⟩ := checkAfter_of_error (hparse.trans hd) none room
      refine ⟨hlabels, ?_, ?_⟩
      · rw [houtcome]
        simp
      · intro e' he
        cases he
        exact houtcome
  | ok d =>
      obtain ⟨houtcome, hlabels, -⟩ := checkAfter_of_ok (hparse.trans hd) none room
      rw [hrest, answer] at houtcome hlabels
      refine ⟨hlabels, ?_, ?_⟩
      · rw [houtcome]
        simp
      · intro e he
        cases he

/-- The two ways in which a definition is read give the same lines exactly for the texts without
a doubled carriage return before a line feed or a carriage return at the end.  A stream that
begins with such a definition is checked with what the definition is read as on its own. -/
theorem definition_routes_agree {t terminator : Text}
    (h : ∀ piece ∈ t.splitOn '\n', Text.trim piece ≠ terminator) :
    (Text.lines (Block.read terminator (Text.delivered t)).text = Text.lines t ↔
      ¬ ['\r', '\r', '\n'] <:+: t ∧ t.getLast? ≠ some '\r') ∧
    (¬ ['\r', '\r', '\n'] <:+: t → t.getLast? ≠ some '\r' →
      Text.trim terminator = terminator → '\n' ∉ terminator →
      ∀ config : Config, config.terminator = terminator → ∀ queries : Text,
        let r := checkStream config
          (.ofText (t ++ '\n' :: (config.terminator ++ '\n' :: queries))) none
        r.Reports config (Text.delivered queries) (Definition.parse config t) ∧
          ∀ d, Definition.parse config t = .ok d → Event.parsed d ∈ r.log) := by
  refine ⟨Block.lines_text_read_eq_iff h, ?_⟩
  intro hdoubled hlast htrim hfeed config hconfig queries
  subst hconfig
  let block := Block.read config.terminator
    (Text.delivered (t ++ '\n' :: (config.terminator ++ '\n' :: queries)))
  have hparse : Definition.parse config block.text = Definition.parse config t := by
    rw [Definition.parse, Definition.parse,
      Block.lines_text_read_append h htrim hfeed hdoubled hlast queries]
  have hrest : block.rest = Text.delivered queries :=
    congrArg Block.rest (Block.read_delivered_append h htrim hfeed queries)
  rw [checkStream_ofText, ← hparse, ← hrest]
  exact ⟨checkAfter_reports config block, fun d hd ↦ parsed_mem_log_checkAfter hd none none⟩

/-- A definition with both kinds of line ends, read in the two ways, and the stream that asks it
two words. -/
theorem definition_routes_agree_mixed_ends :
    let t := "dfa\r\na b\nq r\r\nq\nr\r\nq a r".toList
    let queries := "a\r\nb\n".toList
    (∀ piece ∈ t.splitOn '\n', Text.trim piece ≠ "---".toList) ∧
      ¬ ['\r', '\r', '\n'] <:+: t ∧ t.getLast? ≠ some '\r' ∧
      Text.trim "---".toList = "---".toList ∧ '\n' ∉ "---".toList ∧
      Text.lines (Block.read "---".toList (Text.delivered t)).text = Text.lines t ∧
      (checkStream {} (.ofText (t ++ '\n' :: ("---".toList ++ '\n' :: queries))) none).Reports {}
        (Text.delivered queries) (Definition.parse {} t) := by
  intro t queries
  have hpieces : ∀ piece ∈ t.splitOn '\n', Text.trim piece ≠ "---".toList := by decide +kernel
  have hdoubled : ¬ ['\r', '\r', '\n'] <:+: t := by decide +kernel
  have hlast : t.getLast? ≠ some '\r' := by decide +kernel
  have htrim : Text.trim "---".toList = "---".toList := by decide +kernel
  have hfeed : '\n' ∉ "---".toList := by decide +kernel
  obtain ⟨hlines, hstream⟩ := definition_routes_agree hpieces
  exact ⟨hpieces, hdoubled, hlast, htrim, hfeed, hlines.2 ⟨hdoubled, hlast⟩,
    (hstream hdoubled hlast htrim hfeed {} rfl queries).1⟩

end Acceptor
