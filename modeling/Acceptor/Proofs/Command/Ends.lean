import Acceptor.Command.Run
import Acceptor.Proofs.Files.Opening

/-!
# The two ends of a run

A run either ends early, which is to say before anything is opened for writing, or it has a source
and a destination and checks the one into the other.  `EndsEarly` lists the ways of the first kind
with how each of them ends, `ReadsFrom` and `WritesTo` say what the second kind needs, and
`endsEarly_or_opens` that there is no third.
-/

namespace Acceptor.Command

variable {fs after : FileSystem} {input output : Option Text} {path : Text}
  {source destination : Option Location} {e : FileError}

/-! ## Sources and destinations -/

/-- A check reads from standard input, or from the file that its path leads to. -/
inductive ReadsFrom (fs : FileSystem) : Option Text → Option Location → Prop
  | stdin : ReadsFrom fs none none
  | file (path : Text) (l : Location) (f : File) (found : fs.locate path = .ok l)
      (there : fs.nodeAt l = some (.file f)) (readable : f.readable) :
      ReadsFrom fs (some path) (some l)

/-- A check writes to standard output, or to the file that its path leads to or that is made
there. -/
inductive WritesTo (fs : FileSystem) : Option Text → Option Location → Prop
  | stdout : WritesTo fs none none
  | file (path : Text) (l : Location) (f : File) (found : fs.locate path = .ok l)
      (writable : fs.fileToWrite l = .ok f) : WritesTo fs (some path) (some l)

/-- The files once the destination is open, which empties it. -/
def emptied (fs : FileSystem) : Option Location → FileSystem
  | none => fs
  | some l => (fs.fileToWrite l).toOption.elim fs fun f ↦ fs.put l (.file { f with content := [] })

theorem emptied_of_file {l : Location} {f : File} (h : fs.fileToWrite l = .ok f) :
    emptied fs (some l) = fs.put l (.file { f with content := [] }) := by
  rw [emptied, h]
  rfl

/-- What is checked when both ends can be opened: the source as it is once the destination is open,
into standard output with its limit or into a file. -/
def checkBetween (around : Surroundings) (o : Options) (source destination : Option Location) :
    StreamRun :=
  let opened : Surroundings := { around with files := emptied around.files destination }
  Acceptor.checkStream { strict := o.strict } (Source.ofReads (opened.reads source))
    (if destination.isNone then around.room else none)

theorem openInput_eq_ok_iff : openInput fs input = .ok source ↔ ReadsFrom fs input source := by
  constructor
  · intro h
    cases input with
    | none =>
        obtain rfl := Except.ok.inj h
        exact .stdin
    | some path =>
        rw [openInput] at h
        split at h
        · next l hopen =>
            obtain rfl := Except.ok.inj h
            obtain ⟨found, f, there, readable⟩ := FileSystem.openToRead_eq_ok_iff.1 hopen
            exact .file path l f found there readable
        all_goals cases h
  · intro h
    cases h with
    | stdin => rfl
    | file path l f found there readable =>
        rw [openInput, FileSystem.openToRead_eq_ok_iff.2 ⟨found, f, there, readable⟩]

theorem openOutput_eq_ok_iff :
    openOutput fs output = .ok (destination, after) ↔
      WritesTo fs output destination ∧ after = emptied fs destination := by
  constructor
  · intro h
    cases output with
    | none =>
        obtain ⟨rfl, rfl⟩ := Prod.mk.inj (Except.ok.inj h)
        exact ⟨.stdout, rfl⟩
    | some path =>
        rw [openOutput] at h
        split at h
        · next l opened hopen =>
            obtain ⟨rfl, rfl⟩ := Prod.mk.inj (Except.ok.inj h)
            obtain ⟨found, f, writable, rfl⟩ := FileSystem.openToWrite_eq_ok_iff.1 hopen
            exact ⟨.file path l f found writable, (emptied_of_file writable).symm⟩
        all_goals cases h
  · rintro ⟨h, rfl⟩
    cases h with
    | stdout => rfl
    | file path l f found writable =>
        rw [openOutput, FileSystem.openToWrite_eq_ok_iff.2 ⟨found, f, writable, rfl⟩,
          emptied_of_file writable]

theorem ReadsFrom.unique {source' : Option Location} (h : ReadsFrom fs input source)
    (h' : ReadsFrom fs input source') : source = source' :=
  Except.ok.inj ((openInput_eq_ok_iff.2 h).symm.trans (openInput_eq_ok_iff.2 h'))

theorem WritesTo.unique {destination' : Option Location} (h : WritesTo fs output destination)
    (h' : WritesTo fs output destination') : destination = destination' := by
  have hopen := (openOutput_eq_ok_iff.2 ⟨h, rfl⟩).symm.trans (openOutput_eq_ok_iff.2 ⟨h', rfl⟩)
  exact (Prod.mk.inj (Except.ok.inj hopen)).1

/-! ## Failures to open -/

/-- The end of a run whose input cannot be opened. -/
def inputEnding : FileError → Ending
  | .notFound => .exit .noInput
  | .nullInPath => .nullInPath
  | _ => .exit .ioFailure

/-- The end of a run whose output cannot be opened. -/
def outputEnding : FileError → Ending
  | .nullInPath => .nullInPath
  | _ => .exit .cannotCreate

theorem openInput_of_error (h : fs.openToRead path = .error e) :
    ∃ stop, openInput fs (some path) = .error stop ∧
      ∀ files, (stopped files stop).ending = inputEnding e := by
  rw [openInput, h]
  cases e <;> exact ⟨_, rfl, fun _ ↦ rfl⟩

theorem openOutput_of_error (h : fs.openToWrite path = .error e) :
    ∃ stop, openOutput fs (some path) = .error stop ∧
      ∀ files, (stopped files stop).ending = outputEnding e := by
  rw [openOutput, h]
  cases e <;> exact ⟨_, rfl, fun _ ↦ rfl⟩

theorem stdout_stopped (files : FileSystem) (stop : Stop) : (stopped files stop).stdout = [] := by
  cases stop <;> rfl

theorem files_stopped (files : FileSystem) (stop : Stop) :
    (stopped files stop).files = files := by
  cases stop <;> rfl

/-! ## Early ends -/

/-- The requests that come to nothing, and how a run ends on them: what asks for no check, and the
checks that cannot open their input, or can and then cannot open their output. -/
inductive EndsEarly (fs : FileSystem) : Request → Ending → Prop
  | help : EndsEarly fs .help (.exit .success)
  | version : EndsEarly fs .version (.exit .success)
  | misuse (m : Misuse) : EndsEarly fs (.misuse m) (.exit .usage)
  | input (o : Options) (path : Text) (e : FileError) (named : o.input = some path)
      (failure : fs.openToRead path = .error e) : EndsEarly fs (.check o) (inputEnding e)
  | output (o : Options) (source : Option Location) (path : Text) (e : FileError)
      (reads : ReadsFrom fs o.input source) (named : o.output = some path)
      (failure : fs.openToWrite path = .error e) : EndsEarly fs (.check o) (outputEnding e)

theorem readsFrom_or_error (fs : FileSystem) (input : Option Text) :
    (∃ source, ReadsFrom fs input source) ∨
      ∃ path e, input = some path ∧ fs.openToRead path = .error e := by
  cases input with
  | none => exact .inl ⟨none, .stdin⟩
  | some path =>
      cases hopen : fs.openToRead path with
      | error e => exact .inr ⟨path, e, rfl, hopen⟩
      | ok l =>
          obtain ⟨found, f, there, readable⟩ := FileSystem.openToRead_eq_ok_iff.1 hopen
          exact .inl ⟨some l, .file path l f found there readable⟩

theorem writesTo_or_error (fs : FileSystem) (output : Option Text) :
    (∃ destination, WritesTo fs output destination) ∨
      ∃ path e, output = some path ∧ fs.openToWrite path = .error e := by
  cases output with
  | none => exact .inl ⟨none, .stdout⟩
  | some path =>
      cases hopen : fs.openToWrite path with
      | error e => exact .inr ⟨path, e, rfl, hopen⟩
      | ok opened =>
          obtain ⟨found, f, writable, -⟩ := FileSystem.openToWrite_eq_ok_iff.1 hopen
          exact .inl ⟨some opened.1, .file path opened.1 f found writable⟩

/-- A request comes to nothing, or it is a check that has both its ends. -/
theorem endsEarly_or_opens (fs : FileSystem) (request : Request) :
    (∃ ending, EndsEarly fs request ending) ∨
      ∃ o source destination, request = .check o ∧ ReadsFrom fs o.input source ∧
        WritesTo fs o.output destination := by
  cases request with
  | help => exact .inl ⟨_, .help⟩
  | version => exact .inl ⟨_, .version⟩
  | misuse m => exact .inl ⟨_, .misuse m⟩
  | check o =>
      rcases readsFrom_or_error fs o.input with ⟨source, reads⟩ | ⟨path, e, named, failure⟩
      · rcases writesTo_or_error fs o.output with
          ⟨destination, writes⟩ | ⟨path, e, named, failure⟩
        · exact .inr ⟨o, source, destination, rfl, reads, writes⟩
        · exact .inl ⟨_, .output o source path e reads named failure⟩
      · exact .inl ⟨_, .input o path e named failure⟩

/-! ## Runs -/

variable {around : Surroundings} {arguments : List Text} {o : Options} {ending : Ending}

/-- No line of the text is a label. -/
def HoldsNoLabel (t : Text) : Prop :=
  ∀ accepted, ({} : Config).label accepted ++ ['\n'] ∉ Text.delivered t

theorem holdsNoLabel_nil : HoldsNoLabel [] := fun _ ↦ List.not_mem_nil

/-- The help speaks of the labels but has no line of its own for one. -/
theorem holdsNoLabel_help : HoldsNoLabel help := by
  unfold HoldsNoLabel
  decide +kernel

theorem holdsNoLabel_version : HoldsNoLabel version := by
  unfold HoldsNoLabel
  decide +kernel

/-- A run that ends early changes no file and writes no label. -/
theorem run_of_endsEarly (h : EndsEarly around.files (Request.ofArguments arguments) ending) :
    let r := run around arguments
    r.ending = ending ∧ r.files = around.files ∧ HoldsNoLabel r.stdout := by
  intro r
  have hprinted : ∀ t, HoldsNoLabel t → HoldsNoLabel (printed around t).stdout := by
    intro t ht
    rw [printed]
    split
    · exact ht
    · exact holdsNoLabel_nil
  generalize hrequest : Request.ofArguments arguments = request at h
  cases h with
  | help =>
      have hr : r = printed around help := by simp only [r, run, hrequest]
      rw [hr]
      exact ⟨rfl, rfl, hprinted help holdsNoLabel_help⟩
  | version =>
      have hr : r = printed around version := by simp only [r, run, hrequest]
      rw [hr]
      exact ⟨rfl, rfl, hprinted version holdsNoLabel_version⟩
  | misuse m =>
      simp only [r, run, hrequest]
      exact ⟨trivial, trivial, holdsNoLabel_nil⟩
  | input o path e named failure =>
      obtain ⟨stop, hopen, hending⟩ := openInput_of_error failure
      have hr : r = stopped around.files stop := by
        simp only [r, run, hrequest, check, named, hopen]
      rw [hr, files_stopped, stdout_stopped]
      exact ⟨hending _, rfl, holdsNoLabel_nil⟩
  | output o source path e reads named failure =>
      obtain ⟨stop, hopen, hending⟩ := openOutput_of_error failure
      have hr : r = stopped around.files stop := by
        simp only [r, run, hrequest, check, openInput_eq_ok_iff.2 reads, named, hopen]
      rw [hr, files_stopped, stdout_stopped]
      exact ⟨hending _, rfl, holdsNoLabel_nil⟩

/-- A run with both its ends checks the one into the other. -/
theorem run_of_opens (h : Request.ofArguments arguments = .check o)
    (reads : ReadsFrom around.files o.input source)
    (writes : WritesTo around.files o.output destination) :
    run around arguments = finished (emptied around.files destination) destination
      (checkBetween around o source destination) := by
  have hinput := openInput_eq_ok_iff.2 reads
  have houtput := openOutput_eq_ok_iff.2 ⟨writes, rfl⟩
  simp only [run, h, check, hinput, houtput]
  rfl

end Acceptor.Command
