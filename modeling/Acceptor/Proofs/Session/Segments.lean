import Acceptor.Proofs.Definition.Locations
import Acceptor.Proofs.Session.Conservation
import Acceptor.Proofs.Stream.Blocks

/-!
# Segments of a source

A source may hold more than one definition.  Each reading of a definition starts at the line where
the one before it has stopped, so the readings together give all groups of lines between terminators
(`Block.groups`), and after them they find nothing (`repeated_reads_segment`).
-/

namespace Acceptor.Session

variable {s : Session} {name : Name} {place : Nat}

/-! ## Reading again and again -/

/-- The first reading takes its block from the source, and the others find what it leaves. -/
theorem run_readDefinition_succ (h : s.source? name = some place) (terminator : Text) (n : Nat) :
    let block := Block.read terminator (s.linesAt place)
    let later := (s.setLines place block.rest).run (.replicate n (.readDefinition name terminator))
    s.run (.replicate (n + 1) (.readDefinition name terminator)) =
      (later.1, .text block.text :: later.2) := by
  simp only [List.replicate_succ, run, step, h]

/-- The replies are the texts of the blocks in order, and the source keeps the lines that the last
of them leaves. -/
theorem run_readDefinition (h : s.source? name = some place) (hplace : place < s.sources.length)
    (terminator : Text) (n : Nat) :
    let after := s.run (.replicate n (.readDefinition name terminator))
    let blocks := Block.reads terminator n (s.linesAt place)
    after.2 = blocks.1.map .text ∧ after.1.source? name = some place ∧
      after.1.linesAt place = blocks.2 := by
  induction n generalizing s with
  | zero => exact ⟨rfl, h, rfl⟩
  | succ n ih =>
      let block := Block.read terminator (s.linesAt place)
      have hname : (s.setLines place block.rest).source? name = some place := h
      have hlength : place < (s.setLines place block.rest).sources.length := by
        simpa [setLines] using hplace
      have hlines : (s.setLines place block.rest).linesAt place = block.rest := by
        rw [linesAt_setLines hplace, if_pos rfl]
      obtain ⟨hreplies, hsource, hleft⟩ := ih hname hlength
      rw [hlines] at hreplies hleft
      rw [run_readDefinition_succ h]
      exact ⟨congrArg (.text block.text :: ·) hreplies, hsource, hleft⟩

/-- What a fresh source replies to readings, and what it has left after them. -/
theorem run_readDefinition_of_opens (s : Session) (name : Name) (lines : List Text)
    (terminator : Text) (n : Nat) :
    let after := (s.step (.openLines lines name)).1.run
      (.replicate n (.readDefinition name terminator))
    let blocks := Block.reads terminator n lines
    after.2 = blocks.1.map .text ∧ (after.1.rest name).2 = .texts blocks.2 := by
  have hname : (s.addSource name lines).source? name = some s.sources.length := by
    simp [source?, addSource]
  have hlength : s.sources.length < (s.addSource name lines).sources.length := by
    simp [addSource, bind]
  obtain ⟨hreplies, hsource, hleft⟩ := run_readDefinition hname hlength terminator n
  rw [linesAt_addSource_self] at hreplies hleft
  refine ⟨hreplies, (congrArg Prod.snd (rest_of_source hsource)).trans ?_⟩
  exact congrArg Reply.texts hleft

/-- Reading definitions from a source again and again cuts its lines at the terminators.  There is
one group of lines more than terminators, the readings reply with the groups in order, and with the
empty text when there are none left.  After the block that a terminator ends, the source has the
lines behind that terminator, and after the last group it has none.  When line feeds stand only at
the ends of lines, the lines of a group are read back from its text, up to empty ones at the end,
and a fault with a line number is that of the line of the group with this number. -/
theorem repeated_reads_segment (s : Session) (name : Name) (lines : List Text)
    (terminator : Text) :
    let groups := Block.groups terminator lines
    let places := Block.places terminator lines
    let after := fun n ↦ (s.step (.openLines lines name)).1.run
      (.replicate n (.readDefinition name terminator))
    groups.length = places.length + 1 ∧
    (∀ extra, (after (groups.length + extra)).2 =
        (groups.map ['\n'].intercalate ++ .replicate extra []).map .text ∧
      ((after (groups.length + extra)).1.rest name).2 = .texts []) ∧
    (∀ (i : Nat) place, places[i]? = some place →
      ((after (i + 1)).1.rest name).2 = .texts (lines.drop (place + 1))) ∧
    ((∀ line ∈ lines, '\n' ∉ Text.chomp line) → ∀ group ∈ groups,
      let text := ['\n'].intercalate group
      Text.lines text = group.rdropWhile List.isEmpty ∧
      ∀ config e, Definition.parse config text = .error e → 1 ≤ e.line →
        ∃ (n : Nat) (line : Text), group[n]? = some line ∧ e.line = (n + 1 : Nat) ∧
          (e = Definition.formFault (n + 1) line ∨
            ∃ sections : Definition.Sections, Text.lines text = sections.lines ∧
              sections.IsCause line e)) := by
  intro groups places after
  have hafter := run_readDefinition_of_opens s name lines terminator
  refine ⟨Block.length_groups terminator lines, fun extra ↦ ?_, fun i place hplace ↦ ?_,
    fun hfeed group hgroup ↦ ?_⟩
  · obtain ⟨hreplies, hleft⟩ := hafter (groups.length + extra)
    rw [Block.reads_groups] at hreplies hleft
    exact ⟨hreplies, hleft⟩
  · rw [(hafter (i + 1)).2, Block.reads_left hplace]
  · intro text
    have hlines : Text.lines text = group.rdropWhile List.isEmpty := by
      rw [← Text.dropEndWhile_eq_rdropWhile]
      exact Block.lines_of_mem_groups hfeed hgroup
    refine ⟨hlines, fun config e h hknown ↦ ?_⟩
    obtain ⟨n, line, hline, hfault⟩ := Definition.exists_line_of_parse_eq_error h hknown
    -- the lines that the group loses are behind all others, so no number changes
    have hprefix : Text.lines text <+: group := hlines ▸ List.rdropWhile_prefix List.isEmpty group
    obtain ⟨blank, hsplit⟩ := hprefix
    obtain ⟨hn, -⟩ := List.getElem?_eq_some_iff.1 hline
    refine ⟨n, line, ?_, hfault⟩
    rw [← hsplit, List.getElem?_append_left hn, hline]

/-- Two terminators, one of them between blanks, with nothing between them.  The definition after
them has a fault on its sixth line, which is the tenth of the source, and an empty line after it. -/
theorem repeated_reads_segment_padded :
    let definition := ["dfa\n".toList, "a\n".toList, "q\r\n".toList, "q\n".toList, "q\n".toList,
      "q a\r\r\n".toList, "\n".toList]
    let lines := ["\r".toList, "x".toList, " --- \n".toList, "---".toList] ++ definition
    let text := "dfa\na\nq\nq\nq\nq a\n".toList
    let e := DefinitionError.malformedTransition 6 "q a".toList
    let after := fun n ↦ (({} : Session).step (.openLines lines [])).1.run
      (.replicate n (.readDefinition [] "---".toList))
    (after 4).2 = ["\nx".toList, [], text, []].map .text ∧
      ((after 4).1.rest []).2 = .texts [] ∧
      ((after 2).1.rest []).2 = .texts definition ∧
      (∀ line ∈ lines, '\n' ∉ Text.chomp line) ∧
      Text.lines text = ["dfa".toList, "a".toList, "q".toList, "q".toList, "q".toList,
        "q a".toList] ∧
      Definition.parse {} text = .error e ∧
      ∃ n : Nat, (definition.map Text.chomp)[n]? = some "q a".toList ∧ e.line = (n + 1 : Nat) := by
  intro definition lines text e after
  have hgroups : Block.groups "---".toList lines =
      [[[], "x".toList], [], definition.map Text.chomp] := by decide +kernel
  have hplaces : Block.places "---".toList lines = [2, 3] := by decide +kernel
  have hfeed : ∀ line ∈ lines, '\n' ∉ Text.chomp line := by decide +kernel
  have herror : Definition.parse {} text = .error e := by decide +kernel
  obtain ⟨-, hreplies, hleft, hread⟩ := repeated_reads_segment {} [] lines "---".toList
  rw [hgroups] at hreplies hread
  rw [hplaces] at hleft
  obtain ⟨htexts, hend⟩ := hreplies 1
  obtain ⟨hlines, hnumber⟩ := hread hfeed (definition.map Text.chomp) (by simp)
  obtain ⟨n, line, hline, hn, -⟩ := hnumber {} e herror (by decide)
  have hsix : (6 : Int) = (n + 1 : Nat) := hn
  obtain rfl : n = 5 := by omega
  have hsixth : (definition.map Text.chomp)[5]? = some "q a".toList := by decide +kernel
  obtain rfl : "q a".toList = line := Option.some.inj (hsixth.symm.trans hline)
  exact ⟨htexts.trans (congrArg (List.map Reply.text) (by decide +kernel)), hend, hleft 1 3 rfl,
    hfeed, hlines.trans (by decide +kernel), herror, 5, hline, hn⟩

end Acceptor.Session
