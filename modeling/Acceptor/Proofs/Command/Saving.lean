import Acceptor.Command.Run
import Acceptor.Proofs.Files.Writers
import Acceptor.Proofs.Stream.Limits

/-!
# Laws of output files

An output file that has room for all labels gets them, and nothing else happens (`save_of_taken`).
Otherwise it gets the beginning of them, and the check does not succeed: it ends as it would have
ended before the output was full, or because it is (`save_of_not_taken`).  When a write fails, what
the check has done is what it would have done with an output that has room for the labels before it
(`save_of_failed_write`), so nothing behind that write has been looked at.
-/

namespace Acceptor.Command

variable {m : Medium} {r : StreamRun}

theorem flatten_labels (r : StreamRun) : (r.labels.map (· ++ ['\n'])).flatten = r.output :=
  (List.flatMap_def ..).symm

theorem attempt_labels (m : Medium) (r : StreamRun) :
    Writer.Attempt m (Utf8.encode r.output)
      (({} : Writer).writeAll m (r.labels.map (· ++ ['\n']))) := by
  have hattempt := Writer.attempt_writeAll (Writer.holds_nil m) (r.labels.map (· ++ ['\n']))
  rwa [List.nil_append, flatten_labels] at hattempt

/-- What an output file makes of a check that would have written the given bytes. -/
structure Saved.Accounts (m : Medium) (outcome : Except StreamError Nat) (bytes : Bytes)
    (s : Saved) : Prop where
  written : s.written = m.taken bytes
  whole : m.taken bytes = bytes → s.outcome = outcome ∧ s.closed
  cut : m.taken bytes ≠ bytes → ∃ e, s.outcome = .error e ∧ (e = .outputFull ∨ outcome = .error e)

/-- A write or a flush has failed. -/
theorem accounts_of_full {w : Writer} {bytes : Bytes} (h : w.Full m bytes)
    (outcome : Except StreamError Nat) :
    (Saved.closing m w (.error .outputFull)).Accounts m outcome bytes where
  written := h.close.written
  whole hall := absurd hall h.exceeds
  cut _ := ⟨.outputFull, rfl, .inl rfl⟩

/-- Nothing has failed until the file is closed. -/
theorem accounts_of_holds {w : Writer} {bytes : Bytes} (h : w.Holds m bytes)
    {outcome : Except StreamError Nat} (hcut : m.taken bytes = bytes ∨ ∃ e, outcome = .error e) :
    (Saved.closing m w outcome).Accounts m outcome bytes where
  written := (Writer.written_close h).1
  whole hall := ⟨rfl, (Writer.written_close h).2.2 hall⟩
  cut hover := by
    obtain ⟨e, rfl⟩ := hcut.resolve_left hover
    exact ⟨e, rfl, .inr rfl⟩

theorem save_accounts (m : Medium) (r : StreamRun) :
    (save m r).Accounts m r.outcome (Utf8.encode r.output) := by
  have hwrites := attempt_labels m r
  rw [save]
  cases hwritten : ({} : Writer).writeAll m (r.labels.map (· ++ ['\n'])) with
  | error w =>
      rw [hwritten] at hwrites
      cases hwrites with
      | error _ full => exact accounts_of_full full _
  | ok w =>
      rw [hwritten] at hwrites
      cases hwrites with
      | ok _ holds =>
          cases houtcome : r.outcome with
          | error e => exact accounts_of_holds holds (.inr ⟨e, rfl⟩)
          | ok words =>
              have hflushes := Writer.attempt_flush holds
              cases hflushed : w.flush m with
              | error w' =>
                  rw [hflushed] at hflushes
                  simp only [hflushed]
                  cases hflushes with
                  | error _ full => exact accounts_of_full full _
              | ok w' =>
                  rw [hflushed] at hflushes
                  simp only [hflushed]
                  cases hflushes with
                  | ok _ holds' =>
                      exact accounts_of_holds holds'
                        (.inl (Writer.written_of_flush holds hflushed).2)

/-- A file with room for all labels takes them, and the check ends as it would without a file. -/
theorem save_of_taken (h : m.taken (Utf8.encode r.output) = Utf8.encode r.output) :
    (save m r).outcome = r.outcome ∧ (save m r).closed := (save_accounts m r).whole h

/-- A check whose labels a file has no room for does not succeed. -/
theorem save_of_not_taken (h : m.taken (Utf8.encode r.output) ≠ Utf8.encode r.output) :
    ∃ e, (save m r).outcome = .error e ∧ (e = .outputFull ∨ r.outcome = .error e) :=
  (save_accounts m r).cut h

theorem save_eq_ok_iff {words : Nat} :
    (save m r).outcome = .ok words ↔
      r.outcome = .ok words ∧ m.taken (Utf8.encode r.output) = Utf8.encode r.output := by
  by_cases h : m.taken (Utf8.encode r.output) = Utf8.encode r.output
  · rw [(save_of_taken h).1, and_iff_left h]
  · obtain ⟨e, he, -⟩ := save_of_not_taken h
    simp [he, h]

/-- A check ends at the write that fails, so it is the check into an output that takes the labels
before it and no more. -/
theorem save_of_failed_write (config : Config) (source : Source) {n : Nat}
    (hn : n < (checkStream config source none).labels.length)
    (hfails : ¬ (({} : Writer).writeAll m
      (((checkStream config source none).labels.take (n + 1)).map (· ++ ['\n']))).isOk) :
    let limited := checkStream config source (some n)
    (save m (checkStream config source none)).outcome = limited.outcome ∧
      limited.labels = (checkStream config source none).labels.take n := by
  intro limited
  obtain ⟨hfull, hlabels⟩ := ((checkStream_limited config source).2 n).2 hn
  refine ⟨?_, hlabels⟩
  generalize checkStream config source none = r at hn hfails
  have hsplit : r.labels.map (· ++ ['\n']) =
      (r.labels.take (n + 1)).map (· ++ ['\n']) ++ (r.labels.drop (n + 1)).map (· ++ ['\n']) := by
    rw [← List.map_append, List.take_append_drop]
  rw [hfull, save, hsplit, Writer.writeAll, List.foldlM_append]
  rw [Writer.writeAll] at hfails
  cases hfirst : ((r.labels.take (n + 1)).map (· ++ ['\n'])).foldlM (Writer.write m) {} with
  | error w => rfl
  | ok w =>
      rw [hfirst] at hfails
      exact absurd rfl hfails

end Acceptor.Command
