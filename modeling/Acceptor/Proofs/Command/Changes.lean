import Acceptor.Proofs.Command.Ends
import Acceptor.Proofs.Command.Saving
import Acceptor.Proofs.Stream.Output

/-!
# What a run changes

A run that ends early changes nothing.  A run with both its ends empties its destination, reads its
source and then puts what it writes into the destination, so it changes no other file, and the
destination holds exactly the labels of the words that came before the first failure, as far as it
has room and keeps what it takes.  When the destination is the source too, by whatever names, it is
empty before anything is read.  `run_changes` puts all this together, and
`run_changes_unfit_output` shows why it speaks of room and of files that may be written.
-/

namespace Acceptor.Command

variable {fs : FileSystem} {output : Option Text} {source destination : Option Location}
  {l j : Location} {f : File}

/-! ## Destinations -/

theorem WritesTo.exists_path (h : WritesTo fs output (some l)) :
    ∃ path, output = some path ∧ fs.locate path = .ok l := by
  cases h with
  | file path l f found writable => exact ⟨path, rfl, found⟩

theorem WritesTo.exists_file (h : WritesTo fs output (some l)) :
    ∃ f, fs.fileToWrite l = .ok f := by
  cases h with
  | file path l f found writable => exact ⟨f, writable⟩

/-- The file that is opened is there, empty. -/
theorem nodeAt_emptied_self (h : fs.fileToWrite l = .ok f) :
    (emptied fs (some l)).nodeAt l = some (.file { f with content := [] }) := by
  rw [emptied_of_file h, FileSystem.nodeAt_put (FileSystem.isEnd_of_fileToWrite h).ne_nil,
    if_pos rfl]

/-- Opening the destination leaves all other places as they are. -/
theorem WritesTo.nodeAt_emptied (h : WritesTo fs output destination)
    (hj : destination ≠ some j) : (emptied fs destination).nodeAt j = fs.nodeAt j := by
  cases destination with
  | none => rfl
  | some l =>
      obtain ⟨f, hf⟩ := h.exists_file
      have hjl : j ≠ l := fun hjl ↦ hj (congrArg some hjl.symm)
      rw [emptied_of_file hf, FileSystem.nodeAt_put (FileSystem.isEnd_of_fileToWrite hf).ne_nil,
        if_neg hjl]

/-- A source that is not the destination is read as it was. -/
theorem WritesTo.reads_emptied {around : Surroundings}
    (h : WritesTo around.files output destination)
    (hother : ∀ l, source = some l → destination ≠ some l) :
    { around with files := emptied around.files destination : Surroundings }.reads source =
      around.reads source := by
  cases source with
  | none => rfl
  | some l =>
      have hnode := h.nodeAt_emptied (hother l rfl)
      simp only [Surroundings.reads, FileSystem.contentAt, FileSystem.fileAt?, hnode]

/-! ## Finished checks -/

/-- The destination holds the text, and standard output holds nothing beside it. -/
def Outcome.Wrote (r : Outcome) (t : Text) : Option Location → Prop
  | none => r.stdout = t
  | some l => r.stdout = [] ∧
      ∃ f, r.files.nodeAt l = some (.file f) ∧ f.content = Utf8.encode t

/-- The destination is the file that could be opened before and holds what that one keeps of the
text, and standard output holds nothing beside it. -/
def Outcome.Leaves (r : Outcome) (fs : FileSystem) (t : Text) : Option Location → Prop
  | none => r.stdout = t
  | some l => r.stdout = [] ∧ ∃ f, fs.fileToWrite l = .ok f ∧
      r.files.nodeAt l = some (.file { f with content := f.medium.kept (Utf8.encode t) })

/-- The destination has room for all of the text. -/
def TakesAll (fs : FileSystem) (t : Text) (destination : Option Location) : Prop :=
  ∀ l f, destination = some l → fs.fileToWrite l = .ok f →
    f.medium.taken (Utf8.encode t) = Utf8.encode t

/-- The destination has room for all of the text and does not lose it. -/
def KeepsAll (fs : FileSystem) (t : Text) (destination : Option Location) : Prop :=
  ∀ l f, destination = some l → fs.fileToWrite l = .ok f →
    f.medium.kept (Utf8.encode t) = Utf8.encode t

theorem takesAll_of_file {t : Text} (h : fs.fileToWrite l = .ok f)
    (htaken : f.medium.taken (Utf8.encode t) = Utf8.encode t) : TakesAll fs t (some l) := by
  intro k g hk hg
  obtain rfl := Option.some.inj hk
  obtain rfl := Except.ok.inj (h.symm.trans hg)
  exact htaken

theorem keepsAll_of_file {t : Text} (h : fs.fileToWrite l = .ok f)
    (hkept : f.medium.kept (Utf8.encode t) = Utf8.encode t) : KeepsAll fs t (some l) := by
  intro k g hk hg
  obtain rfl := Option.some.inj hk
  obtain rfl := Except.ok.inj (h.symm.trans hg)
  exact hkept

/-- Standard output keeps what is written to it. -/
theorem keepsAll_stdout (fs : FileSystem) (t : Text) : KeepsAll fs t none :=
  fun _ _ hl ↦ by cases hl

theorem KeepsAll.takesAll {t : Text} (h : KeepsAll fs t destination) :
    TakesAll fs t destination := by
  intro l f hl hf
  have hkept := h l f hl hf
  rw [Medium.kept] at hkept
  split at hkept
  · exact hkept
  · rw [← hkept, Medium.taken_nil]

/-- What comes of a check that writes to a destination.  Standard output is not closed. -/
def savedInto (fs : FileSystem) (r : StreamRun) : Option Location → Saved
  | none => ⟨r.outcome, Utf8.encode r.output, true⟩
  | some l => save ((emptied fs (some l)).mediumAt l) r

section Finished

variable (r : StreamRun)

/-- The file at the destination of a check that is finished. -/
theorem nodeAt_finished_self (h : fs.fileToWrite l = .ok f) :
    (finished (emptied fs (some l)) (some l) r).files.nodeAt l =
      some (.file { f with content := f.medium.kept (Utf8.encode r.output) }) := by
  have hnode := nodeAt_emptied_self h
  have hkept : f.medium.kept (f.medium.taken (Utf8.encode r.output)) =
      f.medium.kept (Utf8.encode r.output) := by
    simp only [Medium.kept, Medium.taken_taken]
  simp only [finished]
  rw [FileSystem.mediumAt_of_file hnode, FileSystem.fill_of_file hnode,
    (save_accounts f.medium r).written,
    FileSystem.nodeAt_put (FileSystem.isEnd_of_fileToWrite h).ne_nil, if_pos rfl, hkept]

theorem leaves_finished (h : WritesTo fs output destination) :
    (finished (emptied fs destination) destination r).Leaves fs r.output destination := by
  cases destination with
  | none => rfl
  | some l =>
      obtain ⟨f, hf⟩ := h.exists_file
      exact ⟨rfl, f, hf, nodeAt_finished_self r hf⟩

theorem wrote_finished (h : WritesTo fs output destination)
    (hkeeps : KeepsAll fs r.output destination) :
    (finished (emptied fs destination) destination r).Wrote r.output destination := by
  cases destination with
  | none => rfl
  | some l =>
      obtain ⟨f, hf⟩ := h.exists_file
      exact ⟨rfl, _, nodeAt_finished_self r hf, hkeeps l f rfl hf⟩

theorem nodeAt_finished (h : WritesTo fs output destination) (hj : destination ≠ some j) :
    (finished (emptied fs destination) destination r).files.nodeAt j = fs.nodeAt j := by
  rw [← h.nodeAt_emptied hj]
  cases destination with
  | none => rfl
  | some l =>
      obtain ⟨f, hf⟩ := h.exists_file
      have hjl : j ≠ l := fun hjl ↦ hj (congrArg some hjl.symm)
      simp only [finished]
      rw [FileSystem.fill_of_file (nodeAt_emptied_self hf),
        FileSystem.nodeAt_put (FileSystem.isEnd_of_fileToWrite hf).ne_nil, if_neg hjl]

theorem ending_finished (fs : FileSystem) (destination : Option Location) :
    (finished (emptied fs destination) destination r).ending =
      if (savedInto fs r destination).closed then
        .exit (statusOf (savedInto fs r destination).outcome)
      else .unclosed := by
  cases destination <;> rfl

theorem stderr_finished (fs : FileSystem) (destination : Option Location) :
    (finished (emptied fs destination) destination r).stderr =
      reportOf (savedInto fs r destination).outcome := by
  cases destination <;> rfl

/-- A destination with room for all labels makes no difference to how the check ends. -/
theorem savedInto_of_takesAll (h : WritesTo fs output destination)
    (htakes : TakesAll fs r.output destination) :
    (savedInto fs r destination).outcome = r.outcome ∧
      (savedInto fs r destination).closed := by
  cases destination with
  | none => exact ⟨rfl, rfl⟩
  | some l =>
      obtain ⟨f, hf⟩ := h.exists_file
      rw [savedInto, FileSystem.mediumAt_of_file (nodeAt_emptied_self hf)]
      exact save_of_taken (htakes l f rfl hf)

theorem ends_finished (h : WritesTo fs output destination)
    (htakes : TakesAll fs r.output destination) :
    (finished (emptied fs destination) destination r).ending = .exit (statusOf r.outcome) ∧
      (finished (emptied fs destination) destination r).stderr = reportOf r.outcome := by
  obtain ⟨houtcome, hclosed⟩ := savedInto_of_takesAll r h htakes
  rw [ending_finished, stderr_finished, if_pos hclosed, houtcome]
  exact ⟨rfl, rfl⟩

/-- A check succeeds only into a destination with room for all its labels. -/
theorem takesAll_of_savedInto_eq_ok {words : Nat}
    (writes : WritesTo fs output destination)
    (h : (savedInto fs r destination).outcome = .ok words) :
    r.outcome = .ok words ∧ TakesAll fs r.output destination := by
  cases destination with
  | none => exact ⟨h, (keepsAll_stdout fs _).takesAll⟩
  | some l =>
      obtain ⟨f, hf⟩ := writes.exists_file
      obtain ⟨houtcome, htaken⟩ := save_eq_ok_iff.1 h
      rw [FileSystem.mediumAt_of_file (nodeAt_emptied_self hf)] at htaken
      exact ⟨houtcome, takesAll_of_file hf htaken⟩

/-- A destination adds no failure to those of a check but that it is full. -/
theorem eq_outputFull_or_of_savedInto {e : StreamError}
    (h : (savedInto fs r destination).outcome = .error e) :
    e = .outputFull ∨ r.outcome = .error e := by
  cases destination with
  | none => exact .inr h
  | some l =>
      let m := (emptied fs (some l)).mediumAt l
      by_cases htaken : m.taken (Utf8.encode r.output) = Utf8.encode r.output
      · exact .inr ((save_of_taken htaken).1.symm.trans h)
      · obtain ⟨e', hsaved, he'⟩ := save_of_not_taken htaken
        obtain rfl := Except.error.inj (h.symm.trans hsaved)
        exact he'

theorem statusOf_eq_success_iff {outcome : Except StreamError Nat} :
    statusOf outcome = .success ↔ ∃ n, outcome = .ok n := by
  cases outcome with
  | ok n => simp [statusOf]
  | error e =>
      cases e with
      | refused e => cases e <;> simp [statusOf, Failure.status]
      | undecodable e => simp [statusOf, Failure.status]
      | outputFull => simp [statusOf, Failure.status]

/-- A run succeeds exactly when its check does and its destination has room for all labels. -/
theorem success_finished_iff (h : WritesTo fs output destination) :
    (finished (emptied fs destination) destination r).ending = .exit .success ↔
      (∃ n, r.outcome = .ok n) ∧ TakesAll fs r.output destination := by
  constructor
  · intro hending
    rw [ending_finished] at hending
    split at hending
    · obtain ⟨n, hn⟩ := statusOf_eq_success_iff.1 (Ending.exit.inj hending)
      obtain ⟨houtcome, htakes⟩ := takesAll_of_savedInto_eq_ok r h hn
      exact ⟨⟨n, houtcome⟩, htakes⟩
    · cases hending
  · rintro ⟨hsuccess, htakes⟩
    rw [(ends_finished r h htakes).1, statusOf_eq_success_iff.2 hsuccess]

end Finished

/-! ## Runs -/

section Runs

variable {around : Surroundings} {arguments : List Text} {o : Options}

/-- Only the file that is named as the output changes. -/
theorem exists_output_of_nodeAt_ne
    (h : (run around arguments).files.nodeAt l ≠ around.files.nodeAt l) :
    ∃ o path, Request.ofArguments arguments = .check o ∧ o.output = some path ∧
      around.files.locate path = .ok l := by
  rcases endsEarly_or_opens around.files (Request.ofArguments arguments) with
    ⟨ending, hearly⟩ | ⟨o, source, destination, hrequest, reads, writes⟩
  · exact absurd (congrArg (FileSystem.nodeAt · l) (run_of_endsEarly hearly).2.1) h
  · by_cases hl : destination = some l
    · subst hl
      obtain ⟨path, named, found⟩ := writes.exists_path
      exact ⟨o, path, hrequest, named, found⟩
    · rw [run_of_opens hrequest reads writes, nodeAt_finished _ writes hl] at h
      exact absurd rfl h

/-- What is checked when a run reads something else than it writes: the source as it was before. -/
theorem checkBetween_of_apart (hroom : around.room = none)
    (writes : WritesTo around.files o.output destination)
    (hother : ∀ l, source = some l → destination ≠ some l) :
    checkBetween around o source destination = Acceptor.checkStream { strict := o.strict }
      (Source.ofReads (around.reads source)) none := by
  simp only [checkBetween]
  rw [writes.reads_emptied hother, hroom, ite_self]

/-- The destination holds what the words of the source ask for. -/
theorem run_writes (around : Surroundings) (hroom : around.room = none)
    (hrequest : Request.ofArguments arguments = .check o)
    (reads : ReadsFrom around.files o.input source)
    (writes : WritesTo around.files o.output destination)
    (hother : ∀ l, source = some l → destination ≠ some l) :
    let r := run around arguments
    let config : Config := { strict := o.strict }
    let delivered := Source.ofReads (around.reads source)
    let block := Block.read config.terminator delivered.lines
    let parsed := Definition.parse config block.text
    ∃ t, r.Leaves around.files t destination ∧
      (KeepsAll around.files t destination → r.Wrote t destination) ∧
      config.Writes block.rest t parsed ∧
      (r.ending = .exit .success → TakesAll around.files t destination ∧
        ∃ d accepted, parsed = .ok d ∧
          config.WritesAll block.rest delivered.fault t d accepted) := by
  intro r config delivered block parsed
  let checked := Acceptor.checkStream config delivered none
  have hchecked : checkBetween around o source destination = checked :=
    checkBetween_of_apart hroom writes hother
  have hr : r = finished (emptied around.files destination) destination checked :=
    hchecked ▸ run_of_opens hrequest reads writes
  obtain ⟨hwrites, hall⟩ := checkStream_writes config delivered
  rw [hr]
  refine ⟨checked.output, leaves_finished _ writes, wrote_finished _ writes, hwrites, fun h ↦ ?_⟩
  obtain ⟨hsuccess, htaken⟩ := (success_finished_iff _ writes).1 h
  exact ⟨htaken, hall hsuccess⟩

/-- A run whose output is its own input reads nothing and leaves nothing. -/
theorem run_of_same_file (hrequest : Request.ofArguments arguments = .check o)
    (reads : ReadsFrom around.files o.input (some l))
    (writes : WritesTo around.files o.output (some l)) :
    let r := run around arguments
    r.ending = .exit .badData ∧
      ∃ f, r.files.nodeAt l = some (.file f) ∧ f.content = [] := by
  intro r
  obtain ⟨f, hf⟩ := writes.exists_file
  let checked := checkBetween around o (some l) (some l)
  -- the source is read once the destination, which is the same file, has been emptied
  have hcontent : (emptied around.files (some l)).contentAt l = [] :=
    FileSystem.contentAt_of_file (nodeAt_emptied_self hf)
  obtain ⟨houtcome, houtput⟩ :
      checked.outcome = .error (.refused (.definition (.tooFewLines 0))) ∧ checked.output = [] := by
    have hchecked : checked = Acceptor.checkStream { strict := o.strict }
        (Source.ofReads (Source.readsOf [])) none := by
      simp only [checked, checkBetween, Surroundings.reads, hcontent, Option.isNone_some]
      rfl
    rw [hchecked]
    exact checkStream_readsOf_nil _ _
  have hr : r = finished (emptied around.files (some l)) (some l) checked :=
    run_of_opens hrequest reads writes
  have htakes : TakesAll around.files checked.output (some l) := by
    rw [houtput]
    exact takesAll_of_file hf f.medium.taken_nil
  rw [hr]
  refine ⟨?_, _, nodeAt_finished_self checked hf, ?_⟩
  · rw [(ends_finished checked writes htakes).1, houtcome]
    rfl
  · rw [houtput]
    exact f.medium.kept_nil

end Runs

/-- What a run may change, with a standard output that has no limit.  Only the file that is named as
the output is created or changed.  A run that ends early changes no file and writes no label.  A run
whose source is not its destination leaves in the destination the labels of the words that were
delivered before the first failure: none when the definition is rejected, and those of all words
when it succeeds.  An output file without room for them has the first of them, as many bytes as it
takes, and then the run does not succeed; a device may keep none.  And a run whose output is its own
input, by whatever names, finds no definition and leaves the file empty. -/
theorem run_changes (files : FileSystem) (stdin : List Bytes) (arguments : List Text) :
    let around : Surroundings := { files, stdin }
    let request := Request.ofArguments arguments
    let r := run around arguments
    (∀ l, r.files.nodeAt l ≠ files.nodeAt l →
      ∃ o path, request = .check o ∧ o.output = some path ∧ files.locate path = .ok l) ∧
    (∀ ending, EndsEarly files request ending →
      r.ending = ending ∧ r.files = files ∧ HoldsNoLabel r.stdout) ∧
    (∀ o source destination, request = .check o → ReadsFrom files o.input source →
      WritesTo files o.output destination → (∀ l, source = some l → destination ≠ some l) →
      let config : Config := { strict := o.strict }
      let delivered := Source.ofReads (around.reads source)
      let k := delivered.lines.findIdx fun line ↦ Text.trim line = config.terminator
      let definition := ['\n'].intercalate ((delivered.lines.take k).map Text.chomp)
      let queries := delivered.lines.drop (k + 1)
      let parsed := Definition.parse config definition
      ∃ t, r.Leaves files t destination ∧
        (KeepsAll files t destination → r.Wrote t destination) ∧
        config.Writes queries t parsed ∧
        (r.ending = .exit .success → TakesAll files t destination ∧
          ∃ d accepted, parsed = .ok d ∧
            config.WritesAll queries delivered.fault t d accepted)) ∧
    (∀ o l, request = .check o → ReadsFrom files o.input (some l) →
      WritesTo files o.output (some l) →
      r.ending = .exit .badData ∧
        ∃ f, r.files.nodeAt l = some (.file f) ∧ f.content = []) := by
  intro around request r
  refine ⟨fun l h ↦ ?_, fun ending h ↦ ?_, ?_, fun o l hrequest reads writes ↦ ?_⟩
  · exact exists_output_of_nodeAt_ne h
  · exact run_of_endsEarly h
  · intro o source destination hrequest reads writes hother config delivered k definition
    obtain ⟨t, hleaves, hwrote, hwrites, hall⟩ :=
      run_writes around rfl hrequest reads writes hother
    rw [Block.read_eq] at hwrites hall
    exact ⟨t, hleaves, hwrote, hwrites, hall⟩
  · exact run_of_same_file hrequest reads writes

-- The second read is no text, and the word of the first has its label.
example :
    let definition := Utf8.encode "dfa\na\nq\nq\nq\nq a q\n---\na\n".toList
    let r := run { files := .fresh [], stdin := [definition, [0x61, 0x0a, 0xff]] } []
    r.ending = .exit .badData ∧ r.stdout = "ACEITA\n".toList := by
  decide +kernel

/-- A run whose second word gets stuck, one that writes to its own input by another name, and one
whose input is not there. -/
theorem run_changes_stuck_word :
    let definition := "dfa\na\nq\nq\nq\nq a q".toList
    let files := ((FileSystem.fresh []).install "in".toList
      (.file { content := Utf8.encode (definition ++ "\n---\na a\nb\n".toList) })).install
        "also".toList (.link "./in".toList)
    let apart := ["-i".toList, "in".toList, "-o".toList, "out".toList]
    let same := ["-i".toList, "in".toList, "-o".toList, "also".toList]
    let missing := ["-i".toList, "no".toList, "-o".toList, "out".toList]
    let r := run { files } apart
    (r.files.nodeAt ["out".toList] ≠ files.nodeAt ["out".toList] ∧
      ∃ o path, Request.ofArguments apart = .check o ∧ o.output = some path ∧
        files.locate path = .ok ["out".toList]) ∧
    (∃ t, r.Wrote t (some ["out".toList]) ∧
      ({} : Config).Writes ["a a\n".toList, "b\n".toList] t (Definition.parse {} definition)) ∧
    ((run { files } same).ending = .exit .badData ∧
      ∃ f, (run { files } same).files.nodeAt ["in".toList] = some (.file f) ∧ f.content = []) ∧
    ((run { files } missing).ending = .exit .noInput ∧ (run { files } missing).files = files) := by
  intro definition files apart same missing r
  have hapart : Request.ofArguments apart =
      .check { input := some "in".toList, output := some "out".toList } := by decide +kernel
  have hsame : Request.ofArguments same =
      .check { input := some "in".toList, output := some "also".toList } := by decide +kernel
  have hmissing : Request.ofArguments missing =
      .check { input := some "no".toList, output := some "out".toList } := by decide +kernel
  have reads : ReadsFrom files (some "in".toList) (some ["in".toList]) :=
    .file _ _ _ (by decide +kernel) rfl rfl
  have hchanged : r.files.nodeAt ["out".toList] ≠ files.nodeAt ["out".toList] := by decide +kernel
  obtain ⟨hframe, -, hwrites, -⟩ := run_changes files [] apart
  obtain ⟨-, -, -, hempty⟩ := run_changes files [] same
  obtain ⟨-, hearly, -, -⟩ := run_changes files [] missing
  refine ⟨⟨hchanged, hframe _ hchanged⟩, ?_, ?_, ?_⟩
  · have hnew : files.fileToWrite ["out".toList] = .ok {} := by decide +kernel
    have writes : WritesTo files (some "out".toList) (some ["out".toList]) :=
      .file _ _ {} (by decide +kernel) hnew
    obtain ⟨t, -, hwrote, ht, -⟩ := hwrites _ _ _ hapart reads writes (by decide +kernel)
    refine ⟨t, hwrote (keepsAll_of_file hnew rfl), ?_⟩
    convert ht using 1
    all_goals decide +kernel
  · have writes : WritesTo files (some "also".toList) (some ["in".toList]) :=
      .file _ _ _ (by decide +kernel) rfl
    exact hempty _ _ hsame reads writes
  · have hfailure : files.openToRead "no".toList = .error .notFound := by decide +kernel
    have hends : EndsEarly files (Request.ofArguments missing) (.exit .noInput) := by
      rw [hmissing]
      exact .input _ _ _ rfl hfailure
    obtain ⟨hending, hfiles, -⟩ := hearly _ hends
    exact ⟨hending, hfiles⟩

/-- A word that is accepted leaves no label in an output without any room, and a file that may only
be read is not emptied when it is named as the output too. -/
theorem run_changes_unfit_output :
    (¬ ∀ (files : FileSystem) (arguments : List Text) (o : Options)
        (source destination : Option Location), Request.ofArguments arguments = .check o →
      ReadsFrom files o.input source → WritesTo files o.output destination →
      (∀ l, source = some l → destination ≠ some l) →
      let config : Config := { strict := o.strict }
      let delivered := Source.ofReads (({ files } : Surroundings).reads source)
      let block := Block.read config.terminator delivered.lines
      ∃ t, (run { files } arguments).Wrote t destination ∧
        config.Writes block.rest t (Definition.parse config block.text)) ∧
    ¬ ∀ (files : FileSystem) (arguments : List Text) (o : Options) (path : Text) (l : Location),
      Request.ofArguments arguments = .check o → o.output = some path →
      ReadsFrom files o.input (some l) → files.locate path = .ok l →
      (run { files } arguments).ending = .exit .badData := by
  let content := Utf8.encode "dfa\na\nq\nq\nq\nq a q\n---\na\n".toList
  let file := (FileSystem.fresh []).install "in".toList (.file { content })
  let full := file.install "out".toList (.file { medium := { room := some 0 } })
  let locked := (FileSystem.fresh []).install "in".toList (.file { content, writable := false })
  let o (output : Text) : Options := { input := some "in".toList, output := some output }
  have hrequest : ∀ output ∈ ["out".toList, "in".toList],
      Request.ofArguments ["-i".toList, "in".toList, "-o".toList, output] = .check (o output) := by
    decide +kernel
  refine ⟨fun h ↦ ?_, fun h ↦ ?_⟩
  · obtain ⟨t, hwrote, hwrites⟩ := h full _ (o "out".toList) (some ["in".toList])
      (some ["out".toList]) (hrequest _ (by simp)) (.file _ _ _ (by decide +kernel) rfl rfl)
      (.file _ _ _ (by decide +kernel) rfl) (by decide +kernel)
    have hempty : t = [] := by
      obtain ⟨-, f, hnode, hcontent⟩ := hwrote
      have hfull : (run { files := full } ["-i".toList, "in".toList, "-o".toList,
          "out".toList]).files.nodeAt ["out".toList] =
            some (.file { medium := { room := some 0 } }) := by decide +kernel
      obtain rfl := Node.file.inj (Option.some.inj (hfull.symm.trans hnode))
      have hencode : [] = Utf8.encode t := hcontent
      have hdecode : Utf8.decode [] = .ok t := hencode ▸ Utf8.decode_encode t
      exact (Except.ok.inj hdecode).symm
    subst hempty
    -- so no word has been evaluated, but the only one there is is accepted
    let block := Block.read ({} : Config).terminator
      (Source.ofReads (({ files := full } : Surroundings).reads (some ["in".toList]))).lines
    have hrest : block.rest = ["a\n".toList] := by decide +kernel
    have haccepts : ((Definition.parse {} block.text).toOption.bind fun d ↦
        (d.accepts (Text.wordOf "a\n".toList)).toOption) = some true := by decide +kernel
    have hwrites : ({} : Config).Writes block.rest [] (Definition.parse {} block.text) := hwrites
    rw [hrest] at hwrites
    cases hparsed : Definition.parse {} block.text with
    | error e =>
        rw [hparsed] at haccepts
        cases haccepts
    | ok d =>
        rw [hparsed] at haccepts hwrites
        obtain ⟨u, hu⟩ := hwrites.exists_error_of_nil
        simp only [Except.toOption, Option.bind_some, hu] at haccepts
        cases haccepts
  · have hending := h locked _ (o "in".toList) "in".toList ["in".toList] (hrequest _ (by simp)) rfl
      (.file _ _ _ (by decide +kernel) rfl rfl) (by decide +kernel)
    revert hending
    decide +kernel

end Acceptor.Command
