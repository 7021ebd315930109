import Acceptor.Proofs.Command.Changes
import Acceptor.Proofs.Definition.Messages

/-!
# Failures of a run

A run that is asked for a check opens its input, then its output, and then checks the one into the
other, and each of these can fail.  `Fails` says what brings each failure about.  A run fails at
most once: it comes to the status of its failure and has told it on standard error, in one line
whatever the names and the lines of a definition hold, or it has nothing to tell.  It ends with that
status if it can close its output file (`Closes`); if it cannot, it breaks off.
-/

namespace Acceptor

/-- The paths that are given have no null character and stay one line. -/
def Options.NamesFiles (o : Options) : Prop :=
  ∀ path, o.input = some path ∨ o.output = some path → '\n' ∉ path ∧ '\x00' ∉ path

theorem FileError.isOneLine_message (path : Text) (e : FileError) :
    Text.IsOneLine (e.message path) := by
  cases e with
  | nullInPath =>
      show Text.IsOneLine "embedded null byte".toList
      decide
  | notFound | notDirectory | isDirectory | nameTooLong | denied | tooManyLinks =>
      show Text.IsOneLine (_ ++ Text.ofNat _ ++ _ ++ _ ++ _ ++ Text.quoted path)
      simp only [Text.isOneLine_append, Text.isOneLine_ofNat, Text.isOneLine_quoted]
      decide

namespace Command

variable {around : Surroundings} {arguments : List Text} {o : Options} {f : Failure}

/-! ## The ways to fail -/

/-- What comes of the check when both ends can be opened. -/
inductive Checks (around : Surroundings) (o : Options) : Saved → Prop
  | intro (source destination : Option Location)
      (reads : ReadsFrom around.files o.input source)
      (writes : WritesTo around.files o.output destination) :
      Checks around o
        (savedInto around.files (checkBetween around o source destination) destination)

/-- The failures of a run, each with what brings it about. -/
inductive Fails (around : Surroundings) (o : Options) : Failure → Prop
  | inputMissing (path : Text) (named : o.input = some path)
      (failure : around.files.openToRead path = .error .notFound) :
      Fails around o (.inputMissing path)
  | inputUnreadable (path : Text) (e : FileError) (named : o.input = some path)
      (failure : around.files.openToRead path = .error e) (other : e ≠ .notFound) :
      Fails around o (.inputUnreadable path e)
  | outputUncreatable (source : Option Location) (path : Text) (e : FileError)
      (reads : ReadsFrom around.files o.input source) (named : o.output = some path)
      (failure : around.files.openToWrite path = .error e) :
      Fails around o (.outputUncreatable path)
  | stream (checked : Saved) (e : StreamError) (checks : Checks around o checked)
      (failure : checked.outcome = .error e) : Fails around o (.stream e)

theorem Checks.unique {checked checked' : Saved} (h : Checks around o checked)
    (h' : Checks around o checked') : checked = checked' := by
  cases h with
  | intro source destination reads writes =>
      cases h' with
      | intro source' destination' reads' writes' =>
          rw [reads.unique reads', writes.unique writes']

theorem Checks.exists_open {checked : Saved} (h : Checks around o checked) :
    ∃ source opened, openInput around.files o.input = .ok source ∧
      openOutput around.files o.output = .ok opened := by
  cases h with
  | intro source destination reads writes =>
      exact ⟨source, _, openInput_eq_ok_iff.2 reads, openOutput_eq_ok_iff.2 ⟨writes, rfl⟩⟩

/-- Where a failure is met: at the input, at the output when the input is open, or between them. -/
theorem Fails.met (paths : o.NamesFiles) (h : Fails around o f) :
    openInput around.files o.input = .error (.failure f) ∨
    (∃ source, openInput around.files o.input = .ok source ∧
      openOutput around.files o.output = .error (.failure f)) ∨
    ∃ checked e, Checks around o checked ∧ checked.outcome = .error e ∧ f = .stream e := by
  cases h with
  | inputMissing path named failure => exact .inl (by simp only [named, openInput, failure])
  | inputUnreadable path e named failure other =>
      have hnull : e ≠ .nullInPath := by
        rintro rfl
        exact (paths path (.inl named)).2 (FileSystem.mem_of_openToRead_eq_nullInPath failure)
      rw [named, openInput, failure]
      cases e with
      | notFound => exact absurd rfl other
      | nullInPath => exact absurd rfl hnull
      | notDirectory | isDirectory | nameTooLong | denied | tooManyLinks => exact .inl rfl
  | outputUncreatable source path e reads named failure =>
      have hnull : e ≠ .nullInPath := by
        rintro rfl
        exact (paths path (.inr named)).2 (FileSystem.mem_of_openToWrite_eq_nullInPath failure)
      refine .inr (.inl ⟨source, openInput_eq_ok_iff.2 reads, ?_⟩)
      rw [named, openOutput, failure]
      cases e with
      | nullInPath => exact absurd rfl hnull
      | notFound | notDirectory | isDirectory | nameTooLong | denied | tooManyLinks => rfl
  | stream checked e checks failure => exact .inr (.inr ⟨checked, e, checks, failure, rfl⟩)

theorem Checks.run_eq {checked : Saved} (request : Request.ofArguments arguments = .check o)
    (h : Checks around o checked) :
    (run around arguments).ending =
        (if checked.closed then .exit (statusOf checked.outcome) else .unclosed) ∧
      (run around arguments).stderr = reportOf checked.outcome := by
  cases h with
  | intro source destination reads writes =>
      rw [run_of_opens request reads writes, ending_finished, stderr_finished]
      exact ⟨rfl, rfl⟩

/-- A run fails at most once. -/
theorem Fails.unique {g : Failure} (paths : o.NamesFiles) (hf : Fails around o f)
    (hg : Fails around o g) : f = g := by
  rcases hf.met paths with hin | ⟨source, hin, hout⟩ | ⟨checked, e, checks, failure, rfl⟩ <;>
  rcases hg.met paths with hin' | ⟨source', hin', hout'⟩ | ⟨checked', e', checks', failure', rfl⟩
  -- what is opened is a function of the files, so both are met at the same place
  all_goals grind [Checks.unique, Checks.exists_open]

/-- The text of a failure is one line.  Only paths and lines of a definition stand in it as they
are. -/
theorem Fails.isOneLine_message (paths : o.NamesFiles) (h : Fails around o f) :
    Text.IsOneLine f.message := by
  cases h with
  | inputMissing path named failure =>
      exact Text.isOneLine_append.2 ⟨by decide, (paths path (.inl named)).1⟩
  | inputUnreadable path e named failure other =>
      have hpath : Text.IsOneLine path := (paths path (.inl named)).1
      show Text.IsOneLine (_ ++ path ++ _ ++ e.message path)
      simp only [Text.isOneLine_append, hpath, FileError.isOneLine_message]
      decide
  | outputUncreatable source path e reads named failure =>
      exact Text.isOneLine_append.2 ⟨by decide, (paths path (.inr named)).1⟩
  | stream checked e checks failure =>
      cases e with
      | refused e =>
          cases e with
          | definition e =>
              obtain ⟨source, destination, reads, writes⟩ := checks
              have hrefused := (eq_outputFull_or_of_savedInto _ failure).resolve_left (by simp)
              obtain ⟨text, hparse⟩ := exists_parse_of_outcome hrefused
              exact Text.isOneLine_append.2
                ⟨by decide, Definition.isOneLine_message_of_parse hparse⟩
          | word u =>
              show Text.IsOneLine (_ ++ (_ ++ Text.quoted _ ++ _ ++ Text.quoted _))
              simp only [Text.isOneLine_append, Text.isOneLine_quoted]
              decide
      | undecodable e => exact Text.isOneLine_append.2 ⟨by decide, e.isOneLine_message⟩
      | outputFull => decide

/-! ## Statuses and what they mean -/

end Command

end Acceptor
