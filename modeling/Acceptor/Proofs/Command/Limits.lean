import Acceptor.Proofs.Command.Changes
import Acceptor.Proofs.Stream.Limits

/-!
# Runs on a limited output

Standard output may take some labels and then no more.  Writing and reading alternate, so what the
rest of the input would have led to is then never found out: a run that is cut short fails for its
output, even when a later word would have failed it.
-/

namespace Acceptor.Command

variable {files : FileSystem} {stdin : List Bytes} {arguments : List Text} {o : Options}
  {source : Option Location}

/-- A check without an output file writes to standard output and leaves all files alone. -/
theorem run_of_stdout (room : Option Nat) (request : Request.ofArguments arguments = .check o)
    (unnamed : o.output = none) (reads : ReadsFrom files o.input source) :
    run { files, stdin, room } arguments = finished files none
      (Acceptor.checkStream { strict := o.strict }
        (Source.ofReads ({ files, stdin : Surroundings }.reads source)) room) := by
  let around : Surroundings := { files, stdin, room }
  have reads : ReadsFrom around.files o.input source := reads
  have writes : WritesTo around.files o.output none := by
    rw [unnamed]
    exact .stdout
  exact run_of_opens request reads writes

/-- A check whose output is full is nothing but that. -/
theorem finished_of_outputFull {r : StreamRun} (files : FileSystem)
    (h : r.outcome = .error .outputFull) :
    finished files none r =
      ⟨.exit .ioFailure, r.output, errorLine (Failure.stream .outputFull).message, files⟩ := by
  simp only [finished, h]
  rfl

theorem newline_notMem_label (accepted : Bool) : '\n' ∉ ({} : Config).label accepted := by
  cases accepted <;> decide

/-- The text of some labels has a line for each of them. -/
theorem delivered_output {r : StreamRun} {accepted : List Bool} {strict : Bool}
    (h : r.labels = accepted.map ({ strict } : Config).label) :
    Text.delivered r.output = r.labels.map (· ++ ['\n']) := by
  have hends : ∀ line ∈ r.labels.map (· ++ ['\n']),
      line.getLast? = some '\n' ∧ '\n' ∉ line.dropLast := by
    intro line hline
    obtain ⟨label, hlabel, rfl⟩ := List.mem_map.1 hline
    rw [h] at hlabel
    obtain ⟨b, -, rfl⟩ := List.mem_map.1 hlabel
    rw [List.getLast?_concat, List.dropLast_concat]
    exact ⟨rfl, newline_notMem_label b⟩
  have hdelivered := Text.delivered_flatten_append hends []
  rw [List.append_nil, ← List.flatMap_def] at hdelivered
  exact hdelivered.trans (List.append_nil _)

/-- A standard output that takes so many labels and no more cuts a run at the first label that it
does not take.  When it takes all labels that the run has to write, it makes no difference at all.
Otherwise the run ends with an input or output failure, has written the labels before that one, and
says on its one line that the output is full, whatever comes after in the input. -/
theorem full_output_cuts_labels (files : FileSystem) (stdin : List Bytes)
    (request : Request.ofArguments arguments = .check o)
    (unnamed : o.output = none) (reads : ReadsFrom files o.input source) :
    let unlimited := run { files, stdin } arguments
    let labels := Text.delivered unlimited.stdout
    (∀ line ∈ labels, ∃ accepted, line = ({} : Config).label accepted ++ ['\n']) ∧
    ∀ n, let limited := run { files, stdin, room := some n } arguments
      (labels.length ≤ n → limited = unlimited) ∧
      (n < labels.length → limited = ⟨.exit .ioFailure, (labels.take n).flatten,
        errorLine "I/O error: [Errno 28] No space left on device".toList, files⟩) := by
  intro unlimited labels
  let checked := Acceptor.checkStream { strict := o.strict }
    (Source.ofReads ({ files, stdin : Surroundings }.reads source))
  have hrun : ∀ room, run { files, stdin, room } arguments = finished files none (checked room) :=
    fun room ↦ run_of_stdout room request unnamed reads
  obtain ⟨⟨accepted, haccepted⟩, hlimited⟩ := checkStream_limited { strict := o.strict }
    (Source.ofReads ({ files, stdin : Surroundings }.reads source))
  have hstdout : unlimited.stdout = (checked none).output := congrArg Outcome.stdout (hrun none)
  have hlabels : labels = (checked none).labels.map (· ++ ['\n']) := by
    show Text.delivered unlimited.stdout = _
    rw [hstdout, delivered_output haccepted]
  have hlength : labels.length = (checked none).labels.length := by
    rw [hlabels, List.length_map]
  refine ⟨fun line hline ↦ ?_, fun n ↦ ?_⟩
  · rw [hlabels, haccepted, List.map_map] at hline
    obtain ⟨b, -, rfl⟩ := List.mem_map.1 hline
    exact ⟨b, rfl⟩
  · obtain ⟨henough, hfull⟩ := hlimited n
    refine ⟨fun h ↦ ?_, fun h ↦ ?_⟩
    · show run { files, stdin, room := some n } arguments = run { files, stdin } arguments
      rw [hrun, hrun]
      exact congrArg (finished files none) (henough (hlength.symm.trans_le h))
    · show run { files, stdin, room := some n } arguments = _
      obtain ⟨houtcome, htaken⟩ := hfull (h.trans_eq hlength)
      rw [hrun, finished_of_outputFull files houtcome, StreamRun.output, htaken, hlabels,
        ← List.map_take, List.flatMap_def]
      rfl

/-- Two words and then one that gets stuck, which an output with room for one label never meets.
Nor does it meet a read that is no text, as long as a word before it is not yet labelled. -/
theorem full_output_cuts_labels_stuck_word :
    let files := FileSystem.fresh []
    let definition := Utf8.encode "dfa\na\nq\nq\nq\nq a q\n---\n".toList
    let stuck := [definition ++ Utf8.encode "a\n\nb\n".toList]
    let broken := [definition ++ Utf8.encode "a\n".toList, Utf8.encode "\n".toList, [0xff]]
    let full : Outcome := ⟨.exit .ioFailure, "ACEITA\n".toList,
      errorLine "I/O error: [Errno 28] No space left on device".toList, files⟩
    ∀ stdin ∈ [stuck, broken], let limited (n : Nat) := run { files, stdin, room := some n } []
      (run { files, stdin } []).ending = .exit .badData ∧
        limited 2 = run { files, stdin } [] ∧ limited 1 = full := by
  intro files definition stuck broken full stdin hstdin limited
  have request : Request.ofArguments [] = .check {} := by decide +kernel
  obtain ⟨-, hlimited⟩ := full_output_cuts_labels files stdin request rfl .stdin
  have hlabels : ∀ stdin ∈ [stuck, broken], Text.delivered (run { files, stdin } []).stdout =
      ["ACEITA\n".toList, "ACEITA\n".toList] := by decide +kernel
  have hending : ∀ stdin ∈ [stuck, broken], (run { files, stdin } []).ending = .exit .badData := by
    decide +kernel
  rw [hlabels stdin hstdin] at hlimited
  exact ⟨hending stdin hstdin, (hlimited 2).1 (Nat.le_refl 2), (hlimited 1).2 Nat.one_lt_two⟩

end Acceptor.Command
