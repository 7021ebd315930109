import Acceptor.Proofs.Text.Trimming

/-!
# Laws of lines

A text is read line by line in two ways: as the lines of a definition, where a carriage return
before a line feed belongs to the line end, and as the lines that a reader delivers, which keep
their line ends.  Both walk over the text in the same steps, one line feed at a time, so both
get one equation for a piece that a line feed follows and one for a piece at the end of the text.
Every law below is then an induction on these pieces.

`chomped_eq_lines_iff` says for which texts the delivered lines, chomped, are the lines of the
definition: those without a doubled carriage return before a line feed or a carriage return at the
very end.
-/

namespace Acceptor.Text

universe u

/-! ## Induction on pieces

Splitting walks from one separator to the next.  In a text the separator is the line feed or, for
tokens, the space, and in a list of lines it is a terminator. -/

/-- A list is a piece without separators, or such a piece, a separator and one more list. -/
@[elab_as_elim]
theorem separated_induction {α : Type u} (isSep : α → Prop) {motive : List α → Prop}
    (last : ∀ piece, (∀ a ∈ piece, ¬ isSep a) → motive piece)
    (more : ∀ piece sep rest, (∀ a ∈ piece, ¬ isSep a) → isSep sep → motive rest →
      motive (piece ++ sep :: rest))
    (l : List α) : motive l := by
  -- the elements since the last separator are collected until the next one is met
  have grow : ∀ piece, (∀ a ∈ piece, ¬ isSep a) → motive (piece ++ l) := by
    induction l with
    | nil => exact fun piece h ↦ by rw [List.append_nil]; exact last piece h
    | cons a l ih =>
        intro piece h
        by_cases ha : isSep a
        · exact more piece a l h ha (ih [] (by simp))
        · rw [← List.singleton_append, ← List.append_assoc]
          exact ih (piece ++ [a]) (List.forall_mem_append.2 ⟨h, List.forall_mem_singleton.2 ha⟩)
  exact grow [] (by simp)

/-- A text is a piece without the separator, or such a piece, the separator and one more text. -/
@[elab_as_elim]
theorem piece_induction (sep : Char) {motive : Text → Prop}
    (last : ∀ piece, sep ∉ piece → motive piece)
    (more : ∀ piece rest, sep ∉ piece → motive rest → motive (piece ++ sep :: rest))
    (t : Text) : motive t := by
  induction t using separated_induction (· = sep) with
  | last piece h => exact last piece fun hmem ↦ h sep hmem rfl
  | more piece c rest h hc ih =>
      subst hc
      exact more piece rest (fun hmem ↦ h c hmem rfl) ih

theorem notMem_of_mem_splitOn {sep : Char} {t piece : Text} (h : piece ∈ t.splitOn sep) :
    sep ∉ piece := by
  induction t using piece_induction sep with
  | last last hlast =>
      rw [List.splitOn_eq_singleton hlast, List.mem_singleton] at h
      exact h ▸ hlast
  | more first rest hfirst ih =>
      rw [List.splitOn_append_cons_self_of_not_mem hfirst] at h
      rcases List.mem_cons.1 h with rfl | h
      · exact hfirst
      · exact ih h

/-! ## Pieces between line ends -/

/-- A piece without the carriage return that belongs to its line end. -/
def dropReturn (piece : Text) : Text :=
  if piece.getLast? = some '\r' then piece.dropLast else piece

@[simp] theorem dropReturn_concat (piece : Text) : dropReturn (piece ++ ['\r']) = piece := by
  simp [dropReturn]

theorem dropReturn_of_ne {piece : Text} (h : piece.getLast? ≠ some '\r') :
    dropReturn piece = piece := if_neg h

theorem mem_of_mem_dropReturn {piece : Text} {c : Char} (h : c ∈ dropReturn piece) :
    c ∈ piece := by
  rw [dropReturn] at h
  split at h
  · exact (List.dropLast_sublist piece).mem h
  · exact h

/-- All pieces of a text between line ends, the empty ones at its end too. -/
def pieces (t : Text) : List Text := (unifyEnds t).splitOn '\n'

theorem lines_eq_dropEndWhile (t : Text) : lines t = dropEndWhile List.isEmpty (pieces t) := rfl

theorem unifyEnds_of_notMem {piece : Text} (h : '\n' ∉ piece) : unifyEnds piece = piece := by
  induction piece with
  | nil => rfl
  | cons c piece ih =>
      have hrest : '\n' ∉ piece := fun hm ↦ h (List.mem_cons_of_mem c hm)
      have hnext : ¬ (c = '\r' ∧ piece.head? = some '\n') := fun ⟨_, hn⟩ ↦
        hrest (List.mem_of_mem_head? hn)
      rw [unifyEnds, if_neg hnext, ih hrest]

theorem unifyEnds_append_newline {piece : Text} (h : '\n' ∉ piece) (rest : Text) :
    unifyEnds (piece ++ '\n' :: rest) = dropReturn piece ++ '\n' :: unifyEnds rest := by
  induction piece with
  | nil => simp [unifyEnds, dropReturn]
  | cons c piece ih =>
      have hrest : '\n' ∉ piece := fun hm ↦ h (List.mem_cons_of_mem c hm)
      rw [List.cons_append, unifyEnds, ih hrest]
      cases piece with
      | nil =>
          by_cases hc : c = '\r'
          · simp [hc, dropReturn]
          · simp [hc, dropReturn]
      | cons d piece =>
          have hd : d ≠ '\n' := fun hd ↦ hrest (by simp [hd])
          rw [if_neg (by simp [hd])]
          simp only [dropReturn, List.getLast?_cons_cons, List.dropLast_cons_cons]
          split <;> rfl

theorem pieces_of_notMem {piece : Text} (h : '\n' ∉ piece) : pieces piece = [piece] := by
  rw [pieces, unifyEnds_of_notMem h, List.splitOn_eq_singleton h]

theorem pieces_append_newline {piece : Text} (h : '\n' ∉ piece) (rest : Text) :
    pieces (piece ++ '\n' :: rest) = dropReturn piece :: pieces rest := by
  have hdrop : '\n' ∉ dropReturn piece := fun hm ↦ h (mem_of_mem_dropReturn hm)
  rw [pieces, unifyEnds_append_newline h, List.splitOn_append_cons_self_of_not_mem hdrop, pieces]

/-- No line of a definition holds a line feed. -/
theorem notMem_of_mem_lines {t line : Text} (h : line ∈ lines t) : '\n' ∉ line :=
  notMem_of_mem_splitOn (mem_of_mem_dropEndWhile h)

/-! ## Delivered lines -/

theorem delivered_of_notMem {piece : Text} (h : '\n' ∉ piece) :
    delivered piece = if piece.isEmpty then [] else [piece] := by
  rw [delivered, List.splitOn_eq_singleton h, restoreEnds]

theorem delivered_append_newline {piece : Text} (h : '\n' ∉ piece) (rest : Text) :
    delivered (piece ++ '\n' :: rest) = (piece ++ ['\n']) :: delivered rest := by
  rw [delivered, List.splitOn_append_cons_self_of_not_mem h, delivered]
  cases hs : rest.splitOn '\n' with
  | nil => exact absurd hs (List.splitOn_ne_nil '\n' rest)
  | cons next more => rfl

/-- Lines that are ended by their only line feed are delivered as they are. -/
theorem delivered_flatten_append {ls : List Text}
    (h : ∀ line ∈ ls, line.getLast? = some '\n' ∧ '\n' ∉ line.dropLast) (last : Text) :
    delivered (ls.flatten ++ last) = ls ++ delivered last := by
  induction ls with
  | nil => rfl
  | cons line ls ih =>
      obtain ⟨hlast, hpiece⟩ := h line List.mem_cons_self
      obtain ⟨piece, rfl⟩ := List.getLast?_eq_some_iff.1 hlast
      rw [List.dropLast_concat] at hpiece
      have hls := ih fun line hline ↦ h line (List.mem_cons_of_mem _ hline)
      rw [List.flatten_cons, List.append_assoc, List.append_assoc, List.singleton_append,
        delivered_append_newline hpiece, hls, List.cons_append]

theorem restoreEnds_append (front : List Text) {back : List Text} (h : back ≠ []) :
    restoreEnds (front ++ back) = front.map (· ++ ['\n']) ++ restoreEnds back := by
  induction front with
  | nil => rfl
  | cons piece front ih =>
      obtain ⟨next, more, hnext⟩ := List.exists_cons_of_ne_nil (l := front ++ back) (by simp [h])
      rw [List.cons_append, hnext, restoreEnds, ← hnext, ih, List.map_cons, List.cons_append]

/-- Before a line feed all pieces of a text are delivered, the empty ones too. -/
theorem delivered_append (t rest : Text) :
    delivered (t ++ '\n' :: rest) = (t.splitOn '\n').map (· ++ ['\n']) ++ delivered rest := by
  rw [delivered, List.splitOn_append_cons_self,
    restoreEnds_append _ (List.splitOn_ne_nil '\n' rest), delivered]

/-- A delivered line is a piece of the text, with or without its line feed. -/
theorem exists_piece_of_mem_delivered {t line : Text} (h : line ∈ delivered t) :
    ∃ piece ∈ t.splitOn '\n', line = piece ∨ line = piece ++ ['\n'] := by
  induction t using piece_induction '\n' with
  | last piece hpiece =>
      rw [delivered_of_notMem hpiece] at h
      split at h
      · simp at h
      · exact ⟨piece, by simp [List.splitOn_eq_singleton hpiece], .inl (List.mem_singleton.1 h)⟩
  | more piece rest hpiece ih =>
      rw [delivered_append_newline hpiece] at h
      rw [List.splitOn_append_cons_self_of_not_mem hpiece]
      rcases List.mem_cons.1 h with rfl | h
      · exact ⟨piece, by simp, .inr rfl⟩
      · obtain ⟨source, hsource, hline⟩ := ih h
        exact ⟨source, List.mem_cons_of_mem _ hsource, hline⟩

/-! ## Chomped lines -/

theorem getLast?_chomp_ne (line : Text) : (chomp line).getLast? ≠ some '\r' :=
  fun h ↦ not_of_getLast?_dropEndWhile h (by decide)

theorem notMem_chomp {piece : Text} (h : '\n' ∉ piece) : '\n' ∉ chomp piece :=
  fun hm ↦ h (mem_of_mem_dropEndWhile hm)

/-- Chomping leaves no line end inside a delivered line. -/
theorem notMem_chomp_of_mem_delivered {t line : Text} (h : line ∈ delivered t) :
    '\n' ∉ chomp line := by
  obtain ⟨piece, hpiece, rfl | rfl⟩ := exists_piece_of_mem_delivered h
  · exact notMem_chomp (notMem_of_mem_splitOn hpiece)
  · rw [chomp_append_newline]
    exact notMem_chomp (notMem_of_mem_splitOn hpiece)

/-- Two lists of lines agree up to trailing empty lines exactly when they begin with the same line
and agree after it. -/
theorem dropEndWhile_isEmpty_cons_inj {a b : Text} {l m : List Text} :
    dropEndWhile List.isEmpty (a :: l) = dropEndWhile List.isEmpty (b :: m) ↔
      a = b ∧ dropEndWhile List.isEmpty l = dropEndWhile List.isEmpty m := by
  simp only [dropEndWhile_cons, Bool.and_eq_true, List.isEmpty_iff]
  split <;> split <;> grind

theorem chomp_eq_self_iff {piece : Text} (h : '\n' ∉ piece) :
    chomp piece = piece ↔ piece.getLast? ≠ some '\r' := by
  rw [chomp, dropEndWhile_eq_self_iff]
  constructor
  · exact fun hends hlast ↦ hends '\r' hlast (by decide)
  · intro hlast c hc hend
    simp only [isLineEnd, Bool.or_eq_true, beq_iff_eq] at hend
    rcases hend with rfl | rfl
    · exact hlast hc
    · exact h (List.mem_of_getLast? hc)

theorem returns_suffix_concat_iff (front : Text) (c : Char) :
    ['\r', '\r'] <:+ front ++ [c] ↔ front.getLast? = some '\r' ∧ c = '\r' := by
  change ['\r'] ++ ['\r'] <:+ front ++ [c] ↔ _
  rw [List.suffix_append_inj_of_length_eq (by simp), List.singleton_suffix_iff_getLast?_eq_some,
    List.singleton_inj, eq_comm (a := c)]

/-- The empty piece after a last line feed, which is not delivered, is a trailing empty line. -/
theorem chomped_splitOn (t : Text) :
    dropEndWhile List.isEmpty ((t.splitOn '\n').map chomp) =
      dropEndWhile List.isEmpty ((delivered t).map chomp) := by
  induction t using piece_induction '\n' with
  | last piece h =>
      rw [List.splitOn_eq_singleton h, delivered_of_notMem h]
      cases piece <;> simp [chomp, dropEndWhile_cons]
  | more piece rest h ih =>
      rw [List.splitOn_append_cons_self_of_not_mem h, delivered_append_newline h, List.map_cons,
        List.map_cons, dropEndWhile_isEmpty_cons_inj, chomp_append_newline]
      exact ⟨rfl, ih⟩

/-- Chomping a piece removes no more than one carriage return exactly when it does not end in
two. -/
theorem chomp_eq_dropReturn_iff {piece : Text} (h : '\n' ∉ piece) :
    chomp piece = dropReturn piece ↔ ¬ ['\r', '\r'] <:+ piece := by
  rcases List.eq_nil_or_concat piece with rfl | ⟨front, c, rfl⟩
  · simp [dropReturn, chomp]
  rw [List.concat_eq_append] at h ⊢
  rw [returns_suffix_concat_iff]
  have hfront : '\n' ∉ front := fun hm ↦ h (List.mem_append_left _ hm)
  by_cases hc : c = '\r'
  · subst hc
    rw [chomp_append_of_ends front (by simp [isLineEnd]), dropReturn_concat,
      chomp_eq_self_iff hfront]
    simp
  · have hlast : (front ++ [c]).getLast? ≠ some '\r' := by simpa using hc
    rw [dropReturn_of_ne hlast, chomp_eq_self_iff h]
    simp [hc]

/-- A doubled carriage return before a line feed stands at the end of the first piece or behind
its line feed. -/
theorem doubled_infix_iff {piece : Text} (h : '\n' ∉ piece) (rest : Text) :
    ['\r', '\r', '\n'] <:+: piece ++ '\n' :: rest ↔
      ['\r', '\r'] <:+ piece ∨ ['\r', '\r', '\n'] <:+: rest := by
  constructor
  · rintro ⟨before, after, heq⟩
    have heq : (before ++ ['\r', '\r']) ++ '\n' :: after = piece ++ '\n' :: rest := by
      simpa using heq
    rcases List.append_eq_append_iff.1 heq with
      ⟨between, hpiece, hafter⟩ | ⟨between, hbefore, hrest⟩
    · cases between with
      | nil => exact .inl ⟨before, by simpa using hpiece.symm⟩
      | cons c between =>
          obtain ⟨rfl, -⟩ := List.cons.inj hafter
          exact absurd (by simp [hpiece]) h
    · cases between with
      | nil => exact .inl ⟨before, by simpa using hbefore⟩
      | cons c between =>
          obtain ⟨rfl, rfl⟩ := List.cons.inj hrest
          -- the two returns lie behind the line feed, as it is none of them
          have hreturns : ['\r', '\r'] <:+ between := by
            have hall : ['\r', '\r'] <:+ piece ++ '\n' :: between := ⟨before, hbefore⟩
            rcases List.suffix_or_suffix_of_suffix hall (List.suffix_append piece _) with hs | hs
            · rcases List.suffix_cons_iff.1 hs with hs | hs
              · simp at hs
              · exact hs
            · exact absurd (hs.mem (List.mem_cons_self ..)) (by decide)
          obtain ⟨front, rfl⟩ := hreturns
          exact .inr ⟨front, after, by simp⟩
  · rintro (⟨before, rfl⟩ | hrest)
    · exact ⟨before, rest, by simp⟩
    · exact List.infix_append_of_infix_right (List.infix_cons hrest)

/-- The delivered lines, once chomped, are the lines of the definition up to trailing empty ones
exactly when no carriage return is doubled before a line feed and none ends the text. -/
theorem chomped_eq_lines_iff (t : Text) :
    dropEndWhile List.isEmpty ((delivered t).map chomp) = lines t ↔
      ¬ ['\r', '\r', '\n'] <:+: t ∧ t.getLast? ≠ some '\r' := by
  rw [lines_eq_dropEndWhile]
  induction t using piece_induction '\n' with
  | last piece h =>
      have hnone : ¬ ['\r', '\r', '\n'] <:+: piece := fun hi ↦ h (hi.subset (by simp))
      rw [delivered_of_notMem h, pieces_of_notMem h, and_iff_right hnone, ← chomp_eq_self_iff h]
      cases piece with
      | nil => simp [chomp, dropEndWhile_cons]
      | cons c piece => simpa using dropEndWhile_isEmpty_cons_inj (l := []) (m := [])
  | more piece rest h ih =>
      have hlast : (piece ++ '\n' :: rest).getLast? ≠ some '\r' ↔ rest.getLast? ≠ some '\r' := by
        cases rest <;> simp
      rw [delivered_append_newline h, pieces_append_newline h, List.map_cons,
        dropEndWhile_isEmpty_cons_inj, chomp_append_newline, chomp_eq_dropReturn_iff h, ih,
        doubled_infix_iff h, hlast]
      tauto

end Acceptor.Text
