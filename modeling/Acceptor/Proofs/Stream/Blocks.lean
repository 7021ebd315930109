import Acceptor.Proofs.Text.Writing
import Acceptor.Stream.Block

/-!
# Laws of definition blocks

A block is all lines before the first terminator, so reading one splits the lines at that place:
`read_append_terminator` and `read_of_forall_ne` are the two cases, and `read_eq` says both at once
by the number of lines before the terminator.  When the lines are the delivered lines of a text,
the text of the block splits into its lines again.

Blocks that are read one after the other cut the lines at all terminators: `reads_groups` says which
texts they have, and `reads_left` which lines are left in between.
-/

namespace Acceptor.Block

variable {terminator line : Text} {front lines : List Text}

/-- Without a terminator all lines belong to the block. -/
theorem read_of_forall_ne (h : ∀ line ∈ lines, Text.trim line ≠ terminator) :
    read terminator lines = ⟨lines.map Text.chomp, false, []⟩ := by
  induction lines with
  | nil => rfl
  | cons line more ih =>
      rw [read_line (h line (by simp)), ih fun l hl ↦ h l (List.mem_cons_of_mem line hl),
        List.map_cons]

/-- The first terminator ends the block and is no part of it or of the rest. -/
theorem read_append_terminator (h : ∀ l ∈ front, Text.trim l ≠ terminator)
    (hline : Text.trim line = terminator) (rest : List Text) :
    read terminator (front ++ line :: rest) = ⟨front.map Text.chomp, true, rest⟩ := by
  induction front with
  | nil => exact read_terminator hline rest
  | cons l front ih =>
      rw [List.cons_append, read_line (h l (by simp)),
        ih fun l' hl' ↦ h l' (List.mem_cons_of_mem l hl'), List.map_cons]

/-- Some line is the first terminator, or none is one. -/
theorem exists_terminator_or_forall (terminator : Text) (lines : List Text) :
    (∃ front line rest, lines = front ++ line :: rest ∧
      (∀ l ∈ front, Text.trim l ≠ terminator) ∧ Text.trim line = terminator) ∨
    ∀ line ∈ lines, Text.trim line ≠ terminator := by
  induction lines using Text.separated_induction fun line ↦ Text.trim line = terminator with
  | last lines h => exact .inr h
  | more front line rest hfront hline _ => exact .inl ⟨front, line, rest, rfl, hfront, hline⟩

/-- The block and its rest by the number of lines before the terminator. -/
theorem read_eq (terminator : Text) (lines : List Text) :
    let k := lines.findIdx fun line ↦ Text.trim line = terminator
    read terminator lines =
      ⟨(lines.take k).map Text.chomp, decide (k < lines.length), lines.drop (k + 1)⟩ := by
  induction lines with
  | nil => rfl
  | cons line more ih =>
      by_cases h : Text.trim line = terminator
      · simp [read_terminator h, List.findIdx_cons, h]
      · simp [read_line h, List.findIdx_cons, h, ih]

/-- Every line of a block over a text can be told from its neighbours again. -/
theorem lines_text_read (terminator t : Text) :
    Text.lines (read terminator (Text.delivered t)).text =
      Text.dropEndWhile List.isEmpty (read terminator (Text.delivered t)).lines := by
  rw [text, read_eq]
  exact Text.lines_intercalate_chomp fun line hline ↦
    Text.notMem_chomp_of_mem_delivered (List.mem_of_mem_take hline)

/-! ## Block after block -/

/-- The lines between the terminators, without their line ends.  The lines before the first
terminator are the first group and those after the last one are the last, so there is one group more
than there are terminators. -/
def groups (terminator : Text) (lines : List Text) : List (List Text) :=
  (lines.splitOnP fun line ↦ Text.trim line = terminator).map (·.map Text.chomp)

/-- The places of the terminators, counted from zero. -/
def places (terminator : Text) (lines : List Text) : List Nat :=
  lines.findIdxs fun line ↦ Text.trim line = terminator

/-- The texts of so many blocks, each read from the lines that the one before it has left, and the
lines that the last one leaves. -/
def reads (terminator : Text) : Nat → List Text → List Text × List Text
  | 0, lines => ([], lines)
  | n + 1, lines =>
      let block := read terminator lines
      let (texts, left) := reads terminator n block.rest
      (block.text :: texts, left)

section Groups

theorem groups_of_forall_ne (h : ∀ line ∈ lines, Text.trim line ≠ terminator) :
    groups terminator lines = [lines.map Text.chomp] := by
  rw [groups, List.splitOnP_eq_singleton (by simpa using h), List.map_singleton]

theorem groups_append_terminator (h : ∀ l ∈ front, Text.trim l ≠ terminator)
    (hline : Text.trim line = terminator) (rest : List Text) :
    groups terminator (front ++ line :: rest) =
      front.map Text.chomp :: groups terminator rest := by
  rw [groups, List.splitOnP_append_cons_of_forall_mem (by simpa using h) line
    (by simpa using hline), List.map_cons, groups]

theorem places_of_forall_ne (h : ∀ line ∈ lines, Text.trim line ≠ terminator) :
    places terminator lines = [] := by
  rw [places, List.findIdxs_eq_nil_iff]
  simpa using h

/-- Behind the first terminator the places are counted anew. -/
theorem places_append_terminator (h : ∀ l ∈ front, Text.trim l ≠ terminator)
    (hline : Text.trim line = terminator) (rest : List Text) :
    places terminator (front ++ line :: rest) =
      front.length :: (places terminator rest).map (· + (front.length + 1)) := by
  have hfront := places_of_forall_ne h
  rw [places] at hfront
  rw [places, List.findIdxs_append, hfront, List.nil_append, List.findIdxs_cons,
    if_pos (by simpa using hline), List.findIdxs_start, places, Nat.zero_add]

theorem length_groups (terminator : Text) (lines : List Text) :
    (groups terminator lines).length = (places terminator lines).length + 1 := by
  induction lines using Text.separated_induction fun line ↦ Text.trim line = terminator with
  | last lines h => rw [groups_of_forall_ne h, places_of_forall_ne h, List.length_singleton,
      List.length_nil]
  | more front line rest h hline ih =>
      rw [groups_append_terminator h hline, places_append_terminator h hline, List.length_cons,
        List.length_cons, List.length_map, ih]

/-- The lines of a group are some of the lines. -/
theorem exists_of_mem_groups {group : List Text} (hgroup : group ∈ groups terminator lines) :
    ∃ source, source ⊆ lines ∧ group = source.map Text.chomp := by
  induction lines using Text.separated_induction fun line ↦ Text.trim line = terminator with
  | last lines h =>
      rw [groups_of_forall_ne h] at hgroup
      exact ⟨lines, List.Subset.refl lines, List.mem_singleton.1 hgroup⟩
  | more front line rest h hline ih =>
      rw [groups_append_terminator h hline] at hgroup
      rcases List.mem_cons.1 hgroup with rfl | hgroup
      · exact ⟨front, List.subset_append_left front _, rfl⟩
      · obtain ⟨source, hsource, rfl⟩ := ih hgroup
        refine ⟨source, ?_, rfl⟩
        exact List.subset_append_of_subset_right front (List.subset_cons_of_subset line hsource)

/-- The lines of a group can be told from one another in its text when line feeds stand only at the
ends of lines. -/
theorem lines_of_mem_groups (h : ∀ line ∈ lines, '\n' ∉ Text.chomp line) {group : List Text}
    (hgroup : group ∈ groups terminator lines) :
    Text.lines (['\n'].intercalate group) = Text.dropEndWhile List.isEmpty group := by
  obtain ⟨source, hsource, rfl⟩ := exists_of_mem_groups hgroup
  exact Text.lines_intercalate_chomp fun line hline ↦ h line (hsource hline)

end Groups

section Reads

/-- From no lines only empty blocks are read. -/
theorem reads_nil (terminator : Text) (n : Nat) :
    reads terminator n [] = (List.replicate n [], []) := by
  induction n with
  | zero => rfl
  | succ n ih =>
      rw [reads, read_nil, ih]
      rfl

theorem reads_succ_of_forall_ne (h : ∀ line ∈ lines, Text.trim line ≠ terminator) (n : Nat) :
    reads terminator (n + 1) lines =
      (['\n'].intercalate (lines.map Text.chomp) :: List.replicate n [], []) := by
  rw [reads, read_of_forall_ne h, reads_nil]
  rfl

theorem reads_succ_append_terminator (h : ∀ l ∈ front, Text.trim l ≠ terminator)
    (hline : Text.trim line = terminator) (n : Nat) (rest : List Text) :
    reads terminator (n + 1) (front ++ line :: rest) =
      (['\n'].intercalate (front.map Text.chomp) :: (reads terminator n rest).1,
        (reads terminator n rest).2) := by
  rw [reads, read_append_terminator h hline]
  rfl

/-- There is a block for each group, and nothing is left for more blocks. -/
theorem reads_groups (terminator : Text) (lines : List Text) (extra : Nat) :
    reads terminator ((groups terminator lines).length + extra) lines =
      ((groups terminator lines).map ['\n'].intercalate ++ List.replicate extra [], []) := by
  induction lines using Text.separated_induction fun line ↦ Text.trim line = terminator with
  | last lines h =>
      rw [groups_of_forall_ne h, List.length_singleton, Nat.add_comm, reads_succ_of_forall_ne h]
      rfl
  | more front line rest h hline ih =>
      rw [groups_append_terminator h hline, List.length_cons, Nat.add_right_comm,
        reads_succ_append_terminator h hline, ih]
      rfl

/-- The block that a terminator ends leaves the lines after it. -/
theorem reads_left {i place : Nat} (hplace : (places terminator lines)[i]? = some place) :
    (reads terminator (i + 1) lines).2 = lines.drop (place + 1) := by
  induction lines using Text.separated_induction (fun line ↦ Text.trim line = terminator)
      generalizing i place with
  | last lines h => simp [places_of_forall_ne h] at hplace
  | more front line rest h hline ih =>
      rw [places_append_terminator h hline] at hplace
      rw [reads_succ_append_terminator h hline, List.append_cons front line rest]
      cases i with
      | zero =>
          obtain rfl : front.length = place := Option.some.inj hplace
          rw [reads, List.drop_left' (by simp)]
      | succ i =>
          rw [List.getElem?_cons_succ, List.getElem?_map, Option.map_eq_some_iff] at hplace
          obtain ⟨place, hplace, rfl⟩ := hplace
          have hplaces :
              place + (front.length + 1) + 1 = (front ++ [line]).length + (place + 1) := by
            rw [List.length_append, List.length_singleton]
            omega
          rw [hplaces, List.drop_length_add_append, ih hplace]

end Reads

end Acceptor.Block
