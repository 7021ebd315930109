import Acceptor.Files.Definition
import Acceptor.Proofs.Command.Arguments
import Acceptor.Proofs.Command.Changes
import Acceptor.Proofs.Stream.Embedding
import Acceptor.Proofs.Stream.Sources
import Acceptor.Proofs.Text.LineEnds

/-!
# Files that hold a definition

A file without a terminator can be loaded as a definition or checked as a stream without words.
The one reads it as a whole and splits it into lines, the other takes the lines that a reader
delivers and joins them again; both have made all line ends line feeds before.
`definition_file_routes_agree` says that they find the same automaton or the same fault, and that
the text in memory gives it too unless it holds a lone carriage return.
-/

namespace Acceptor

section Loading

variable {fs : FileSystem} {path t : Text} {l : Location}

/-- A file that can be decoded is read by its text. -/
theorem Definition.load_of_decode (strict : Bool) (hopen : fs.openToRead path = .ok l)
    (hdecode : Utf8.decode (fs.contentAt l) = .ok t) :
    load { strict } fs path = (parse { strict } (Text.normalizeEnds t)).mapError .definition := by
  have hencoding : Encoding.ofName? "utf-8".toList = some .utf8 := by decide +kernel
  simp only [load, hopen, hencoding, Encoding.decode, hdecode, Except.mapError, bind, Except.bind]

theorem Definition.load_eq_of_returnsEndLines (strict : Bool)
    (hopen : fs.openToRead path = .ok l) (hdecode : Utf8.decode (fs.contentAt l) = .ok t)
    (h : Text.ReturnsEndLines t) :
    load { strict } fs path = (parse { strict } t).mapError .definition := by
  rw [load_of_decode strict hopen hdecode, parse, parse, h.lines_normalizeEnds]

end Loading

/-- The check of the text of a file that holds a definition and no terminator. -/
theorem checkStream_normalizeEnds {config : Config} {t : Text}
    (h : ∀ piece ∈ (Text.normalizeEnds t).splitOn '\n', Text.trim piece ≠ config.terminator)
    (room : Option Nat) :
    let r := checkStream config (.ofText (Text.normalizeEnds t)) room
    let parsed := Definition.parse config (Text.normalizeEnds t)
    r.labels = [] ∧ ((∃ n, r.outcome = .ok n) ↔ ∃ d, parsed = .ok d) ∧
      ∀ e, parsed = .error e → r.outcome = .error (.refused (.definition e)) := by
  have hreturn := Text.notMem_normalizeEnds t
  apply checkStream_ofText_alone h
  · exact fun hdoubled ↦ hreturn (hdoubled.subset (by simp))
  · exact fun hlast ↦ hreturn (List.mem_of_getLast? hlast)

namespace Command

variable {around : Surroundings} {arguments : List Text} {strict : Bool} {path t : Text}
  {l : Location}

/-- A run on a file with standard output as its destination. -/
theorem run_of_file (hopen : around.files.openToRead path = .ok l)
    (hrequest : Request.ofArguments arguments = .check { strict, input := some path }) :
    run around arguments = finished around.files none
      (Acceptor.checkStream { strict }
        (Source.ofReads (Source.readsOf (around.files.contentAt l))) around.room) := by
  obtain ⟨found, f, there, readable⟩ := FileSystem.openToRead_eq_ok_iff.1 hopen
  exact run_of_opens hrequest (.file path l f found there readable) .stdout

theorem errorLine_definition (e : DefinitionError) :
    errorLine (Failure.stream (.refused (.definition e))).message =
      "dfacheck: Invalid automaton definition: ".toList ++ e.message ++ ['\n'] := by
  have hfront : name ++ ": ".toList ++ "Invalid automaton definition: ".toList =
      "dfacheck: Invalid automaton definition: ".toList := rfl
  -- a rewrite would try to match the literals and spell them out on the way
  calc errorLine (Failure.stream (.refused (.definition e))).message
      = name ++ ": ".toList ++ ("Invalid automaton definition: ".toList ++ e.message) ++ ['\n'] :=
        rfl
    _ = name ++ ": ".toList ++ "Invalid automaton definition: ".toList ++ e.message ++ ['\n'] :=
        congrArg (· ++ ['\n']) (List.append_assoc _ _ _).symm
    _ = "dfacheck: Invalid automaton definition: ".toList ++ e.message ++ ['\n'] :=
        congrArg (· ++ e.message ++ ['\n']) hfront

/-- A run on a file that holds a definition and no terminator prints nothing, and it succeeds or
reports the fault of the definition. -/
theorem run_of_definition_file (around : Surroundings)
    (hopen : around.files.openToRead path = .ok l)
    (hdecode : Utf8.decode (around.files.contentAt l) = .ok t)
    (hpieces : ∀ piece ∈ (Text.normalizeEnds t).splitOn '\n', Text.trim piece ≠ "---".toList)
    (hrequest : Request.ofArguments arguments = .check { strict, input := some path }) :
    let r := run around arguments
    let parsed := Definition.parse { strict } (Text.normalizeEnds t)
    (∀ d, parsed = .ok d → r.ending = .exit .success ∧ r.stdout = [] ∧ r.stderr = []) ∧
      ∀ e, parsed = .error e → r.ending = .exit .badData ∧ r.stdout = [] ∧
        r.stderr =
          "dfacheck: Invalid automaton definition: ".toList ++ e.message ++ ['\n'] := by
  intro r parsed
  let checked := Acceptor.checkStream { strict } (.ofText (Text.normalizeEnds t)) around.room
  have hr : r = finished around.files none checked := by
    have hwhole := (congrArg Utf8.decode (Source.flatten_readsOf _)).trans hdecode
    refine (run_of_file hopen hrequest).trans ?_
    rw [Source.ofReads_of_decode hwhole]
  obtain ⟨hlabels, houtcome, hrejected⟩ :
      checked.labels = [] ∧ ((∃ n, checked.outcome = .ok n) ↔ ∃ d, parsed = .ok d) ∧
        ∀ e, parsed = .error e → checked.outcome = .error (.refused (.definition e)) :=
    checkStream_normalizeEnds hpieces around.room
  have hstdout : r.stdout = [] := by
    have hwrote : r.stdout = checked.output := by
      rw [hr]
      rfl
    rw [hwrote, StreamRun.output, hlabels, List.flatMap_nil]
  constructor
  · intro d hd
    obtain ⟨n, hn⟩ := houtcome.2 ⟨d, hd⟩
    refine ⟨?_, hstdout, ?_⟩
    · rw [hr, finished, hn]
      rfl
    · rw [hr, finished, hn]
      rfl
  · intro e he
    have hfault := hrejected e he
    refine ⟨?_, hstdout, ?_⟩
    · rw [hr, finished, hfault]
      rfl
    · rw [hr, finished, hfault]
      exact errorLine_definition e

/-- A file that holds a definition and no terminator, asked for in any way: the run succeeds and
prints nothing exactly when the file loads, and otherwise its one line of output is the fault that
the file is rejected for.  A text in which every carriage return stands before a line feed gives
the same automaton or fault without a file. -/
theorem definition_file_routes_agree {fs : FileSystem} {path t : Text} {l : Location}
    (strict : Bool) (hopen : fs.openToRead path = .ok l)
    (hdecode : Utf8.decode (fs.contentAt l) = .ok t)
    (hpieces : ∀ piece ∈ (Text.normalizeEnds t).splitOn '\n', Text.trim piece ≠ "---".toList) :
    let config : Config := { strict }
    let o : Options := { strict, input := some path }
    (∀ (stdin : List Bytes) (room : Option Nat) (arguments : List Text),
      Request.ofArguments arguments = .check o →
      let r := run { files := fs, stdin, room } arguments
      ((r.ending = .exit .success ∧ r.stdout = [] ∧ r.stderr = []) ↔
        ∃ d, Definition.load config fs path = .ok d) ∧
      ∀ e, Definition.load config fs path = .error e →
        r.ending = .exit .badData ∧ r.stdout = [] ∧
        r.stderr =
          "dfacheck: Invalid automaton definition: ".toList ++ e.message path ++ ['\n']) ∧
    (Request.ofArguments (("-i=".toList ++ path) :: Request.strictArguments strict) = .check o ∧
      (path.head? ≠ some '-' →
        Request.ofArguments ("-i".toList :: path :: Request.strictArguments strict) =
          .check o)) ∧
    (Text.ReturnsEndLines t →
      Definition.load config fs path = (Definition.parse config t).mapError .definition) := by
  intro config o
  have hload := Definition.load_of_decode strict hopen hdecode
  refine ⟨?_, ⟨Request.ofArguments_joined_input strict path, Request.ofArguments_input strict⟩,
    Definition.load_eq_of_returnsEndLines strict hopen hdecode⟩
  intro stdin room arguments hrequest r
  obtain ⟨hread, hrejected⟩ :=
    run_of_definition_file ⟨fs, stdin, room⟩ hopen hdecode hpieces hrequest
  rw [hload]
  cases hparse : Definition.parse { strict } (Text.normalizeEnds t) with
  | ok d =>
      refine ⟨⟨fun _ ↦ ⟨d, rfl⟩, fun _ ↦ hread d hparse⟩, ?_⟩
      intro e he
      cases he
  | error e =>
      have hfault := hrejected e hparse
      refine ⟨⟨?_, ?_⟩, ?_⟩
      · rintro ⟨hsuccess, -⟩
        cases hfault.1.symm.trans hsuccess
      · rintro ⟨d, hd⟩
        cases hd
      · intro e' he
        cases he
        exact hfault

/-- A file with both kinds of line ends whose last line lacks a name. -/
theorem definition_file_routes_agree_mixed_ends :
    let t := "dfa\r\na\nq\r\nq\n!!\r\nq a\r\n".toList
    let fs := (FileSystem.fresh []).install "d".toList (.file { content := Utf8.encode t })
    let r := run { files := fs } ["-i".toList, "d".toList, "--strict".toList]
    let e := DefinitionError.malformedTransition 6 "q a".toList
    fs.openToRead "d".toList = .ok ["d".toList] ∧
      Utf8.decode (fs.contentAt ["d".toList]) = .ok t ∧
      (∀ piece ∈ (Text.normalizeEnds t).splitOn '\n', Text.trim piece ≠ "---".toList) ∧
      Text.ReturnsEndLines t ∧
      Definition.load { strict := true } fs "d".toList = .error (.definition e) ∧
      r.ending = .exit .badData ∧ r.stdout = [] ∧
      r.stderr = "dfacheck: Invalid automaton definition: ".toList ++ e.message ++ ['\n'] ∧
      Definition.parse { strict := true } t = .error e := by
  intro t fs r e
  have hopen : fs.openToRead "d".toList = .ok ["d".toList] := rfl
  have hdecode : Utf8.decode (fs.contentAt ["d".toList]) = .ok t := Utf8.decode_encode t
  have hpieces : ∀ piece ∈ (Text.normalizeEnds t).splitOn '\n',
      Text.trim piece ≠ "---".toList := by decide +kernel
  have hreturns : Text.ReturnsEndLines t := by decide +kernel
  obtain ⟨hrun, ⟨-, hspelled⟩, hmemory⟩ := definition_file_routes_agree true hopen hdecode hpieces
  have hparse : Definition.parse { strict := true } t = .error e := rfl
  have hload : Definition.load { strict := true } fs "d".toList = .error (.definition e) := by
    rw [hmemory hreturns, hparse]
    rfl
  obtain ⟨hending, hstdout, hstderr⟩ :=
    (hrun [] none _ (hspelled (by decide +kernel))).2 _ hload
  exact ⟨hopen, hdecode, hpieces, hreturns, hload, hending, hstdout, hstderr, hparse⟩

end Command

end Acceptor
