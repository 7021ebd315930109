import Acceptor.Proofs.Command.Arguments
import Acceptor.Proofs.Command.Changes
import Acceptor.Proofs.Stream.Sources

/-!
# Routes through a run

A check takes its bytes from a file or from standard input and leaves its labels in a file or on
standard output, which makes four routes.  `routes_agree` says that the bytes and the strictness
alone decide what comes out, so that all routes lead to the same status, message and labels.
-/

namespace Acceptor.Command

/-- The bytes of the source and the strictness decide how a run ends, what it says on standard
error and which text it writes.  Neither the files nor the arguments nor what the destination held
before make a difference, as long as both ends are there, the source is not the destination, its
bytes come as they would from a file, and the destination keeps all that is written to it. -/
theorem routes_agree (strict : Bool) (content : Bytes) :
    ∃ status stderr text, ∀ (files : FileSystem) (stdin : List Bytes) (arguments : List Text)
        (o : Options) (source destination : Option Location),
      let around : Surroundings := { files, stdin }
      let r := run around arguments
      Request.ofArguments arguments = .check o → o.strict = strict →
      ReadsFrom files o.input source → WritesTo files o.output destination →
      (∀ l, source = some l → destination ≠ some l) →
      Source.LikeFile content (around.reads source) → KeepsAll files text destination →
      r.ending = .exit status ∧ r.stderr = stderr ∧ r.Wrote text destination := by
  let checked := Acceptor.checkStream { strict } (Source.ofReads (Source.readsOf content)) none
  refine ⟨statusOf checked.outcome, reportOf checked.outcome, checked.output, ?_⟩
  intro files stdin arguments o source destination around r hrequest hstrict reads writes hother
    hcontent hkeeps
  have hchecked : checkBetween around o source destination = checked := by
    rw [checkBetween_of_apart rfl writes hother, hcontent.ofReads_eq, hstrict]
  have hr : r = finished (emptied files destination) destination checked :=
    hchecked ▸ run_of_opens hrequest reads writes
  obtain ⟨hending, hstderr⟩ := ends_finished checked writes hkeeps.takesAll
  rw [hr]
  exact ⟨hending, hstderr, wrote_finished checked writes hkeeps⟩

/-- The four routes of one content whose second word gets stuck, where standard input comes in two
reads and the output file is there already and holds more than the run leaves in it. -/
theorem routes_agree_stuck_word :
    let content := Utf8.encode "dfa\na\nq\nq\nq\nq a q\n---\na a\nb\n".toList
    let stdin := [content.take 9, content.drop 9]
    let files := ((FileSystem.fresh []).install "f".toList (.file { content })).install "g".toList
      (.file { content := Utf8.encode "REJEITA\nREJEITA\n".toList })
    let through (input output : Option Text) :=
      run { files, stdin } (Request.spelled { input, output })
    let r := through none none
    r.ending = .exit .badData ∧ r.stdout = "ACEITA\n".toList ∧
    ∀ input ∈ [none, some "f".toList],
      ((through input none).ending = r.ending ∧ (through input none).stderr = r.stderr ∧
        (through input none).Wrote r.stdout none) ∧
      ((through input (some "g".toList)).ending = r.ending ∧
        (through input (some "g".toList)).stderr = r.stderr ∧
        (through input (some "g".toList)).Wrote r.stdout (some ["g".toList])) := by
  intro content stdin files through r
  obtain ⟨status, stderr, text, h⟩ := routes_agree false content
  have hroute : ∀ input output source destination, ReadsFrom files input source →
      WritesTo files output destination → (∀ l, source = some l → destination ≠ some l) →
      Source.LikeFile content (({ files, stdin } : Surroundings).reads source) →
      KeepsAll files text destination →
      (through input output).ending = .exit status ∧ (through input output).stderr = stderr ∧
        (through input output).Wrote text destination :=
    fun input output source destination ↦
      h files stdin _ { input, output } source destination (Request.ofArguments_spelled _) rfl
  have reads : ReadsFrom files (some "f".toList) (some ["f".toList]) :=
    .file _ _ _ (by decide +kernel) rfl rfl
  have hg : files.fileToWrite ["g".toList] =
      .ok { content := Utf8.encode "REJEITA\nREJEITA\n".toList } := by decide +kernel
  have writes : WritesTo files (some "g".toList) (some ["g".toList]) :=
    .file _ _ _ (by decide +kernel) hg
  have hkeeps : KeepsAll files text (some ["g".toList]) := keepsAll_of_file hg rfl
  have hkept : KeepsAll files text none := keepsAll_stdout files text
  have hstdin : Source.LikeFile content stdin :=
    .text _ _ (by simp [stdin]) (Utf8.decode_encode _)
  have hfile : Source.LikeFile content
      (({ files, stdin } : Surroundings).reads (some ["f".toList])) := .file
  obtain ⟨hending, hstderr, hstdout⟩ :=
    hroute none none none none .stdin .stdout (by simp) hstdin hkept
  have hending : r.ending = .exit status := hending
  have hstderr : r.stderr = stderr := hstderr
  have hstdout : r.stdout = text := hstdout
  refine ⟨by decide +kernel, by decide +kernel, ?_⟩
  rw [hending, hstderr, hstdout]
  simp only [List.mem_cons, List.not_mem_nil, or_false, forall_eq_or_imp, forall_eq]
  refine ⟨⟨?_, ?_⟩, ?_, ?_⟩
  · exact hroute _ _ _ _ .stdin .stdout (by simp) hstdin hkept
  · exact hroute _ _ _ _ .stdin writes (by simp) hstdin hkeeps
  · exact hroute _ _ _ _ reads .stdout (by simp) hfile hkept
  · exact hroute _ _ _ _ reads writes (by decide +kernel) hfile hkeeps

end Acceptor.Command
