import Acceptor.Proofs.Command.Changes

/-!
# Repeated runs

A run may create its destination and may empty the file that it reads, so a second run does not find
the files that the first one found.  It finds the same ends, though.  The source is the same file,
because nothing but a file has changed and paths meet no file on their way.  What the source holds
does not differ either at the time of reading, which is after the destination has been emptied:
`emptied_leftBy` says that opening it wipes out all that the first run has left.
-/

namespace Acceptor.Command

variable {fs : FileSystem} {input output : Option Text} {source destination : Option Location}
  {l : Location} {f : File}

/-! ## What a check leaves -/

/-- The files after a check that has opened its destination. -/
def leftBy (fs : FileSystem) (destination : Option Location) (checked : StreamRun) : FileSystem :=
  (finished (emptied fs destination) destination checked).files

section LeftBy

variable (checked : StreamRun)

/-- The file that was opened, or a new one, is at the destination and can be opened again. -/
theorem fileToWrite_leftBy (h : fs.fileToWrite l = .ok f) :
    (leftBy fs (some l) checked).fileToWrite l =
      .ok { f with content := f.medium.kept (Utf8.encode checked.output) } := by
  have hwritable : f.writable := FileSystem.writable_of_fileToWrite h
  exact FileSystem.fileToWrite_of_file (nodeAt_finished_self checked h) hwritable

/-- Once the destination is open again, nothing is left of what was written to it. -/
theorem WritesTo.emptied_leftBy (h : WritesTo fs output destination) :
    emptied (leftBy fs destination checked) destination = emptied fs destination := by
  cases destination with
  | none => rfl
  | some l =>
      obtain ⟨f, hf⟩ := h.exists_file
      rw [emptied_of_file (fileToWrite_leftBy checked hf), leftBy, finished,
        FileSystem.fill_of_file (nodeAt_emptied_self hf), emptied_of_file hf,
        FileSystem.put_put, FileSystem.put_put]

/-- All places but the destination are as they were. -/
theorem WritesTo.nodeAt_leftBy (h : WritesTo fs output destination) (hl : destination ≠ some l) :
    (leftBy fs destination checked).nodeAt l = fs.nodeAt l := nodeAt_finished checked h hl

theorem WritesTo.keepsPaths (h : WritesTo fs output destination) :
    fs.KeepsPaths (leftBy fs destination checked) where
  workingDirectory := by
    cases destination with
    | none => rfl
    | some l =>
        obtain ⟨f, hf⟩ := h.exists_file
        rw [leftBy, finished, FileSystem.fill_of_file (nodeAt_emptied_self hf), emptied_of_file hf]
        rfl
  nodes l := by
    by_cases hl : destination = some l
    · subst hl
      obtain ⟨f, hf⟩ := h.exists_file
      exact .inr ⟨FileSystem.isEnd_of_fileToWrite hf,
        FileSystem.isEnd_of_fileToWrite (fileToWrite_leftBy checked hf)⟩
    · exact .inl (h.nodeAt_leftBy checked hl)

/-! ## The ends of the next check -/

/-- The source is there again, be it the destination or not. -/
theorem ReadsFrom.again (reads : ReadsFrom fs input source)
    (writes : WritesTo fs output destination) :
    ReadsFrom (leftBy fs destination checked) input source := by
  cases reads with
  | stdin => exact .stdin
  | file path l f found there readable =>
      have found := (writes.keepsPaths checked).locate found
      by_cases hsame : destination = some l
      · subst hsame
        obtain ⟨g, hg⟩ := writes.exists_file
        obtain rfl := FileSystem.eq_of_fileToWrite there hg
        have hwritten := nodeAt_finished_self checked hg
        exact .file path l _ found hwritten readable
      · rw [← writes.nodeAt_leftBy checked hsame] at there
        exact .file path l f found there readable

theorem WritesTo.again (writes : WritesTo fs output destination) :
    WritesTo (leftBy fs destination checked) output destination := by
  cases writes with
  | stdout => exact .stdout
  | file path l f found writable =>
      have hkeeps := WritesTo.keepsPaths checked (.file path l f found writable)
      exact .file path l _ (hkeeps.locate found) (fileToWrite_leftBy checked writable)

end LeftBy

/-! ## Runs -/

variable {around : Surroundings} {arguments : List Text} {o : Options}

/-- What a check before it has left makes no difference to a run with both its ends. -/
theorem run_leftBy (hrequest : Request.ofArguments arguments = .check o)
    (reads : ReadsFrom around.files o.input source)
    (writes : WritesTo around.files o.output destination) (checked : StreamRun) :
    run { around with files := leftBy around.files destination checked } arguments =
      run around arguments := by
  refine (run_of_opens hrequest (reads.again checked writes) (writes.again checked)).trans ?_
  rw [run_of_opens hrequest reads writes]
  have hemptied := writes.emptied_leftBy checked
  simp only [checkBetween, hemptied]

/-- A run on the files that the same run has left is that run over again.  It ends in the same way,
says the same on both outputs, and changes no file and creates none, be the destination a file
that was there, one that the first run created or the source itself. -/
theorem second_run_agrees (around : Surroundings) (arguments : List Text) :
    let first := run around arguments
    let second := run { around with files := first.files } arguments
    second.ending = first.ending ∧ second.stdout = first.stdout ∧
      second.stderr = first.stderr ∧ second.files = first.files := by
  intro first second
  have hsame : second = first := by
    rcases endsEarly_or_opens around.files (Request.ofArguments arguments) with
      ⟨ending, hearly⟩ | ⟨o, source, destination, hrequest, reads, writes⟩
    · have hfiles : first.files = around.files := (run_of_endsEarly hearly).2.1
      simp only [second, hfiles, first]
    · have hfiles : first.files = leftBy around.files destination _ :=
        congrArg Outcome.files (run_of_opens hrequest reads writes)
      simp only [second, hfiles]
      exact run_leftBy hrequest reads writes _
  rw [hsame]
  exact ⟨rfl, rfl, rfl, rfl⟩

-- The first run empties its own input, and the second finds it empty.
example :
    let files := (FileSystem.fresh []).install "f".toList
      (.file { content := Utf8.encode "dfa\n".toList })
    let arguments := ["-i=f".toList, "-o=f".toList]
    let first := run { files } arguments
    first.files ≠ files ∧ run { files := first.files } arguments = first := by
  decide +kernel

end Acceptor.Command
