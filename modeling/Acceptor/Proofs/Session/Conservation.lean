import Acceptor.Proofs.Session.Steps

/-!
# Lines are conserved

However the readers of a source take turns, no line is lost, taken twice or taken out of order:
the lines that have been taken and then those that are left are always the lines that the source
was opened with.  What a single instruction takes is what its reader takes (`Session.Takes`), and
what a run takes is what its instructions take, one after the other (`Session.takenAlong`).  A label
stream is live until a request for labels is its end (`hasLive_run_iff`), and from then on it
takes nothing.
-/

namespace Acceptor

/-- A source is opened on the given lines. -/
inductive Instruction.Opens : Instruction → List Text → Prop
  | lines (lines : List Text) (name : Name) : Opens (.openLines lines name) lines
  | text (t : Text) (name : Name) : Opens (.openText t name) (Text.delivered t)

namespace Session

variable {s t : Session} {c : Instruction} {reply : Reply} {r : Reader} {tap : Tap}
  {place other k : Nat}

/-! ## Places

Sources and label streams keep their places for good. -/

theorem linesAt_setLines (h : other < s.sources.length) (place : Nat) (lines : List Text) :
    (s.setLines place lines).linesAt other = if other = place then lines else s.linesAt other := by
  simp only [linesAt, setLines, List.getD_eq_getElem?_getD, List.getElem?_set]
  by_cases hplace : place = other
  · simp [hplace, h]
  · simp [hplace, Ne.symm hplace]

theorem linesAt_addSource (h : place < s.sources.length) (name : Name) (lines : List Text) :
    (s.addSource name lines).linesAt place = s.linesAt place := by
  simp only [linesAt, addSource, bind, List.getD_eq_getElem?_getD, List.getElem?_append_left h]

theorem linesAt_addSource_self (s : Session) (name : Name) (lines : List Text) :
    (s.addSource name lines).linesAt s.sources.length = lines := by
  simp [linesAt, addSource, bind]

theorem taps_setTap (s : Session) (place : Nat) (tap : Tap) (h : k < s.taps.length) :
    (s.setTap place tap).taps[k]? = if k = place then some tap else s.taps[k]? := by
  simp only [setTap, List.getElem?_set]
  by_cases hplace : place = k
  · simp [hplace, h]
  · simp [hplace, Ne.symm hplace]

theorem Effect.length_sources_le (h : s.Effect c reply t) :
    s.sources.length ≤ t.sources.length := by
  cases h with
  | idle reads asks sources taps => rw [sources]
  | opensSource => simp [addSource, bind]
  | opensLabels => exact le_rfl
  | reads => simp [setLines]
  | asks => simp [setLines, setTap]

theorem Effect.length_taps_le (h : s.Effect c reply t) : s.taps.length ≤ t.taps.length := by
  cases h with
  | idle reads asks sources taps => rw [taps]
  | opensSource => exact le_rfl
  | opensLabels => simp [addTap, bind]
  | reads => exact le_rfl
  | asks => simp [setLines, setTap]

/-! ## What an instruction takes -/

/-- What an instruction takes from the source at a place, by its reply and the lines that it leaves:
what its reader takes, if that reads there, and else nothing. -/
inductive Takes (s : Session) (place : Nat) (c : Instruction) (reply : Reply) (left : List Text) :
    List Text → Prop
  | reads {r : Reader} {taken : List Text} (reader : s.reader? c = some (place, r))
      (takes : r.Takes taken left reply) : Takes s place c reply left taken
  | apart (elsewhere : ∀ r, s.reader? c ≠ some (place, r)) : Takes s place c reply left []

theorem takes_of_no_reader (h : s.reader? c = none) (reply : Reply) (left : List Text) :
    s.Takes place c reply left [] := .apart fun r ↦ by simp [h]

/-- A reader takes lines from the front of its source, and none from any other. -/
theorem exists_takes_of_reader (reads : s.reader? c = some (place, r))
    (hother : other < s.sources.length) :
    let after := s.setLines place (r.read (s.linesAt place)).2
    ∃ taken, s.linesAt other = taken ++ after.linesAt other ∧
      s.Takes other c (r.read (s.linesAt place)).1 (after.linesAt other) taken := by
  intro after
  rw [linesAt_setLines hother]
  by_cases h : other = place
  · subst h
    obtain ⟨taken, hlines, htakes⟩ := r.takesFront (s.linesAt other)
    rw [if_pos rfl]
    exact ⟨taken, hlines, .reads reads htakes⟩
  · rw [if_neg h]
    refine ⟨[], rfl, .apart fun r' hr' ↦ h ?_⟩
    exact (Prod.mk.inj (Option.some.inj (hr'.symm.trans reads))).1

theorem Effect.exists_takes (h : s.Effect c reply t) (hplace : place < s.sources.length) :
    ∃ taken, s.linesAt place = taken ++ t.linesAt place ∧
      s.Takes place c reply (t.linesAt place) taken := by
  cases h with
  | idle reads asks sources taps =>
      have hlines : s.linesAt place = t.linesAt place := by rw [linesAt, linesAt, sources]
      exact ⟨[], hlines, takes_of_no_reader reads _ _⟩
  | opensSource name lines reads asks =>
      exact ⟨[], (linesAt_addSource hplace name lines).symm, takes_of_no_reader reads _ _⟩
  | opensLabels name d config place reads asks => exact ⟨[], rfl, takes_of_no_reader reads _ _⟩
  | reads reads asks => exact exists_takes_of_reader reads hplace
  | asks reads asks live => exact exists_takes_of_reader reads hplace

/-- The lines that are gone from the front of a source after an instruction. -/
def takenBy (s : Session) (place : Nat) (c : Instruction) : List Text :=
  (s.linesAt place).take ((s.linesAt place).length - ((s.step c).1.linesAt place).length)

/-- The lines that are gone are the ones that the instruction takes, and all others are left. -/
theorem takes_takenBy (hplace : place < s.sources.length) (c : Instruction) :
    s.takenBy place c ++ (s.step c).1.linesAt place = s.linesAt place ∧
      s.Takes place c (s.step c).2 ((s.step c).1.linesAt place) (s.takenBy place c) := by
  obtain ⟨taken, hlines, htakes⟩ := (s.effect_step c).exists_takes hplace
  have htaken : s.takenBy place c = taken := by
    have hlength := congrArg List.length hlines
    rw [List.length_append] at hlength
    rw [takenBy, hlength, Nat.add_sub_cancel, hlines, List.take_left]
  rw [htaken]
  exact ⟨hlines.symm, htakes⟩

theorem Takes.of_reader {left taken : List Text} (h : s.Takes place c reply left taken)
    (reader : s.reader? c = some (place, r)) : r.Takes taken left reply := by
  cases h with
  | reads reader' takes =>
      obtain ⟨-, rfl⟩ := Prod.mk.inj (Option.some.inj (reader.symm.trans reader'))
      exact takes
  | apart elsewhere => exact absurd reader (elsewhere r)

/-- A label stream takes one line for a label while it is live, and nothing after that. -/
theorem takenBy_of_tap {name : Name} (hplace : place < s.sources.length)
    (htap : s.tap? name = some (k, tap)) (hsource : tap.source = place) :
    (tap.stream.live → s.takenBy place (.next name) = (s.linesAt place).take 1) ∧
      (¬ tap.stream.live →
        s.takenBy place (.next name) = [] ∧ s.takenBy place (.rest name) = []) := by
  obtain ⟨hlabel, htakesLabel⟩ := takes_takenBy hplace (.next name)
  obtain ⟨-, htakesLabels⟩ := takes_takenBy hplace (.rest name)
  have label := htakesLabel.of_reader (hsource ▸ reader?_next_of_tap htap)
  have labels := htakesLabels.of_reader (hsource ▸ reader?_rest_of_tap htap)
  rw [← hlabel]
  exact ⟨label.eq_take_one, fun spent ↦ ⟨label.label_eq_nil spent, labels.labels_eq_nil spent⟩⟩

/-! ## Runs -/

/-- The lines that the instructions of a run take from a source, in the order in which they are
taken. -/
def takenAlong (place : Nat) : Session → List Instruction → List Text
  | _, [] => []
  | s, c :: more => s.takenBy place c ++ takenAlong place (s.step c).1 more

theorem length_sources_le_run (s : Session) (instructions : List Instruction) :
    s.sources.length ≤ (s.run instructions).1.sources.length := by
  induction instructions generalizing s with
  | nil => exact le_rfl
  | cons c more ih => exact (s.effect_step c).length_sources_le.trans (ih (s.step c).1)

/-- Along a run, what has been taken and then what is left is what there was. -/
theorem takenAlong_append_linesAt (hplace : place < s.sources.length)
    (instructions : List Instruction) :
    s.takenAlong place instructions ++ (s.run instructions).1.linesAt place = s.linesAt place := by
  induction instructions generalizing s with
  | nil => rfl
  | cons c more ih =>
      have hnext : place < (s.step c).1.sources.length :=
        hplace.trans_le (s.effect_step c).length_sources_le
      calc s.takenAlong place (c :: more) ++ (s.run (c :: more)).1.linesAt place
          = s.takenBy place c ++ ((s.step c).1.takenAlong place more ++
              ((s.step c).1.run more).1.linesAt place) := List.append_assoc _ _ _
        _ = s.takenBy place c ++ (s.step c).1.linesAt place := by rw [ih hnext]
        _ = s.linesAt place := (takes_takenBy hplace c).1

/-! ## Live label streams -/

/-- The label stream at a place has not come to its end. -/
def HasLive (s : Session) (k : Nat) : Prop := ∃ tap, s.taps[k]? = some tap ∧ tap.stream.live

theorem taps_of_asked (h : s.asked? c = some (k, tap)) : s.taps[k]? = some tap := by
  cases c with
  | next name => exact (tap?_eq_some_iff.1 h).2
  | rest name => exact (tap?_eq_some_iff.1 h).2
  | _ => cases h

theorem hasLive_iff_of_taps (h : t.taps[k]? = s.taps[k]?) : t.HasLive k ↔ s.HasLive k := by
  rw [HasLive, HasLive, h]

/-- A step ends the label stream that it asks, when the reply says so, and no other. -/
theorem Effect.hasLive_iff (h : s.Effect c reply t) (hk : k < s.taps.length) :
    t.HasLive k ↔ s.HasLive k ∧ ¬ ((∃ tap, s.asked? c = some (k, tap)) ∧ EndsLabels c reply) := by
  have same : s.asked? c = none → t.taps[k]? = s.taps[k]? →
      (t.HasLive k ↔ s.HasLive k ∧
        ¬ ((∃ tap, s.asked? c = some (k, tap)) ∧ EndsLabels c reply)) := by
    intro asks htaps
    rw [hasLive_iff_of_taps htaps]
    simp [asks]
  cases h with
  | idle reads asks sources taps => exact same asks (by rw [taps])
  | opensSource name lines reads asks => exact same asks rfl
  | opensLabels name d config place reads asks => exact same asks (List.getElem?_append_left hk)
  | reads reads asks => exact same asks rfl
  | @asks j tap r stream reads asks live =>
      have hj := taps_of_asked asks
      have htaps := taps_setTap (s.setLines tap.source (r.read (s.linesAt tap.source)).2) j
        { tap with stream } hk
      by_cases hkj : k = j
      · subst hkj
        rw [if_pos rfl] at htaps
        simp [HasLive, htaps, hj, asks, live]
      · rw [if_neg hkj] at htaps
        rw [hasLive_iff_of_taps (s := s) htaps]
        simp [asks, Ne.symm hkj]

/-- A label stream stays live along a run as long as no instruction is its end. -/
theorem hasLive_run_iff (hk : k < s.taps.length) (instructions : List Instruction) :
    (s.run instructions).1.HasLive k ↔ s.HasLive k ∧
      ∀ earlier c later, instructions = earlier ++ c :: later → ¬ (s.run earlier).1.Ends c k := by
  induction instructions generalizing s with
  | nil => simp [run]
  | cons first more ih =>
      have heffect := s.effect_step first
      change ((s.step first).1.run more).1.HasLive k ↔ _
      rw [ih (hk.trans_le heffect.length_taps_le), heffect.hasLive_iff hk, and_assoc]
      refine and_congr_right fun _ ↦ ?_
      constructor
      · rintro ⟨hfirst, hmore⟩ earlier c later hsplit
        cases earlier with
        | nil =>
            obtain ⟨rfl, rfl⟩ := List.cons.inj hsplit
            exact hfirst
        | cons c' earlier =>
            obtain ⟨rfl, htail⟩ := List.cons.inj hsplit
            exact hmore earlier c later htail
      · intro hall
        refine ⟨hall [] first more rfl, fun earlier c later hsplit ↦ ?_⟩
        exact hall (first :: earlier) c later (congrArg (first :: ·) hsplit)

/-! ## Turns

At any point of a session the readers of a source take turns in the way that `Orderly` lists. -/

/-- How the source at a place is read. -/
structure Orderly (s : Session) (place : Nat) : Prop where
  /-- An instruction takes what its reader takes. -/
  takes (c : Instruction) :
    s.Takes place c (s.step c).2 ((s.step c).1.linesAt place) (s.takenBy place c)
  /-- A definition takes the lines up to the first terminator, and that one too, or all lines. -/
  definition (name : Name) (terminator : Text) (named : s.source? name = some place) :
    s.takenBy place (.readDefinition name terminator) = (s.linesAt place).take
      ((s.linesAt place).findIdx (fun line ↦ Text.trim line = terminator) + 1)
  /-- A check that rejects its definition takes what the definition takes. -/
  rejected (name : Name) (config : Config) (r : StreamRun) (e : DefinitionError)
    (named : s.source? name = some place)
    (reply : (s.step (.checkStream name config)).2 = .stream r)
    (outcome : r.outcome = .error (.refused (.definition e))) :
    s.takenBy place (.checkStream name config) =
      s.takenBy place (.readDefinition name config.terminator)
  /-- Opening a label stream takes nothing. -/
  unread (automaton source : Name) (config : Config) (name : Name) :
    s.takenBy place (.openLabels automaton source config name) = []
  /-- A label takes one line of a live label stream, if there is one, and whether or not the line
  has a label. -/
  label (name : Name) (k : Nat) (tap : Tap) (named : s.tap? name = some (k, tap))
    (on : tap.source = place) (live : s.HasLive k) :
    s.takenBy place (.next name) = (s.linesAt place).take 1
  /-- A label stream that is not live takes nothing. -/
  spent (name : Name) (k : Nat) (tap : Tap) (named : s.tap? name = some (k, tap))
    (on : tap.source = place) (spent : ¬ s.HasLive k) :
    s.takenBy place (.next name) = [] ∧ s.takenBy place (.rest name) = []
  /-- A label stream is live when it is opened. -/
  opened (automaton source : Name) (config : Config) (name : Name) (d : Automaton) (l : Nat)
    (defined : s.automaton? automaton = some d) (named : s.source? source = some l) :
    let t := (s.step (.openLabels automaton source config name)).1
    t.tap? name = some (s.taps.length, ⟨{ automaton := d, config }, l⟩) ∧ t.HasLive s.taps.length
  /-- A label stream stays live up to the instruction that is its end, and is never live again. -/
  live (k : Nat) (there : k < s.taps.length) (instructions : List Instruction) :
    (s.run instructions).1.HasLive k ↔ s.HasLive k ∧
      ∀ earlier c later, instructions = earlier ++ c :: later → ¬ (s.run earlier).1.Ends c k

theorem takenBy_readDefinition {name : Name} (hplace : place < s.sources.length)
    (h : s.source? name = some place) (terminator : Text) :
    s.takenBy place (.readDefinition name terminator) = (s.linesAt place).take
      ((s.linesAt place).findIdx (fun line ↦ Text.trim line = terminator) + 1) := by
  obtain ⟨hlines, htakes⟩ := takes_takenBy hplace (.readDefinition name terminator)
  have hreader : s.reader? (.readDefinition name terminator) =
      some (place, .definition terminator) := by simp [reader?, h]
  rw [← hlines]
  exact (htakes.of_reader hreader).definition_eq

theorem takenBy_checkStream_of_rejected {name : Name} {config : Config} {r : StreamRun}
    {e : DefinitionError} (hplace : place < s.sources.length) (h : s.source? name = some place)
    (hreply : (s.step (.checkStream name config)).2 = .stream r)
    (houtcome : r.outcome = .error (.refused (.definition e))) :
    s.takenBy place (.checkStream name config) =
      s.takenBy place (.readDefinition name config.terminator) := by
  obtain ⟨hlines, htakes⟩ := takes_takenBy hplace (.checkStream name config)
  have hreader : s.reader? (.checkStream name config) = some (place, .stream config) := by
    simp [reader?, h]
  have hstream := htakes.of_reader hreader
  rw [hreply] at hstream
  obtain ⟨text, hblock⟩ := hstream.exists_definition houtcome
  rw [takenBy_readDefinition hplace h, ← hlines]
  exact hblock.definition_eq

theorem takenBy_openLabels (hplace : place < s.sources.length) (automaton source : Name)
    (config : Config) (name : Name) :
    s.takenBy place (.openLabels automaton source config name) = [] := by
  obtain ⟨-, htakes⟩ := takes_takenBy hplace (.openLabels automaton source config name)
  generalize s.takenBy place (.openLabels automaton source config name) = taken at htakes
  cases htakes with
  | reads reader takes => cases reader
  | apart elsewhere => rfl

theorem tap?_openLabels {automaton source : Name} {d : Automaton} {l : Nat}
    (hd : s.automaton? automaton = some d) (hl : s.source? source = some l) (config : Config)
    (name : Name) :
    (s.step (.openLabels automaton source config name)).1.tap? name =
      some (s.taps.length, ⟨{ automaton := d, config }, l⟩) := by
  rw [tap?_eq_some_iff]
  simp [step, hd, hl, addTap, bind, lookup?]

theorem hasLive_iff_of_tap {name : Name} (h : s.tap? name = some (k, tap)) :
    s.HasLive k ↔ tap.stream.live := by
  simp [HasLive, (tap?_eq_some_iff.1 h).2]

theorem orderly (hplace : place < s.sources.length) : s.Orderly place where
  takes c := (takes_takenBy hplace c).2
  definition _ terminator named := takenBy_readDefinition hplace named terminator
  rejected _ _ _ _ named reply outcome :=
    takenBy_checkStream_of_rejected hplace named reply outcome
  unread := takenBy_openLabels hplace
  label _ _ _ named on live :=
    (takenBy_of_tap hplace named on).1 ((hasLive_iff_of_tap named).1 live)
  spent _ _ _ named on spent :=
    (takenBy_of_tap hplace named on).2 fun live ↦ spent ((hasLive_iff_of_tap named).2 live)
  opened _ _ config name _ _ defined named :=
    have htap := tap?_openLabels defined named config name
    ⟨htap, (hasLive_iff_of_tap htap).2 rfl⟩
  live _ there instructions := hasLive_run_iff there instructions

/-! ## Conservation -/

theorem linesAt_of_opens {opening : Instruction} {lines : List Text} (h : opening.Opens lines)
    (s : Session) :
    let opened := (s.step opening).1
    opened.linesAt s.sources.length = lines ∧ s.sources.length < opened.sources.length := by
  cases h with
  | lines lines name =>
      exact ⟨linesAt_addSource_self s name lines, by simp [step, addSource, bind]⟩
  | text t name =>
      exact ⟨linesAt_addSource_self s name (Text.delivered t), by simp [step, addSource, bind]⟩

/-- Whatever is done with a source and the label streams on it, in any order: at every point the
lines that have been taken and then those that are left are the lines that the source was opened
with, and its readers take turns as they should. -/
theorem lines_conserved {opening : Instruction} {lines : List Text} (h : opening.Opens lines)
    (s : Session) (instructions : List Instruction) :
    let place := s.sources.length
    let opened := (s.step opening).1
    let t := (opened.run instructions).1
    opened.takenAlong place instructions ++ t.linesAt place = lines ∧ t.Orderly place := by
  intro place opened t
  obtain ⟨hlines, hplace⟩ := linesAt_of_opens h s
  refine ⟨?_, orderly ?_⟩
  · exact (takenAlong_append_linesAt hplace instructions).trans hlines
  · exact hplace.trans_le (length_sources_le_run opened instructions)

/-- Two label streams on one source, of which the second gets stuck on the line after that of the
first: the line behind is there for the first, and the second takes no line any more. -/
theorem lines_conserved_two_label_streams :
    let d := Automaton.build ["a".toList] ["q".toList] "q".toList ["q".toList]
      [⟨"q".toList, "a".toList, "q".toList⟩]
    let opening := Instruction.openText "x\na\nb\nc\n".toList "s".toList
    let lines := ["x\n".toList, "a\n".toList, "b\n".toList, "c\n".toList]
    let instructions := [.define d "d".toList,
      .openLabels "d".toList "s".toList {} "g".toList,
      .openLabels "d".toList "s".toList {} "h".toList,
      .next "s".toList, .next "g".toList, .next "h".toList]
    let opened := (({} : Session).step opening).1
    let t := (opened.run instructions).1
    opening.Opens lines ∧ t.linesAt 0 = ["c\n".toList] ∧
      opened.takenAlong 0 instructions ++ t.linesAt 0 = lines ∧
      (t.HasLive 0 ∧ t.takenBy 0 (.next "g".toList) = ["c\n".toList]) ∧
      (¬ t.HasLive 1 ∧ t.takenBy 0 (.next "h".toList) = [] ∧ t.takenBy 0 (.rest "h".toList) = []) ∧
      ∀ more, ¬ (t.run more).1.HasLive 1 := by
  intro d opening lines instructions opened t
  have hopens : opening.Opens lines := by
    have hlines : Text.delivered "x\na\nb\nc\n".toList = lines := by decide +kernel
    exact hlines ▸ .text _ _
  have hleft : t.linesAt 0 = ["c\n".toList] := by decide +kernel
  obtain ⟨hconserved, horderly⟩ := lines_conserved hopens {} instructions
  have hfirst : ∃ tap, t.tap? "g".toList = some (0, tap) ∧ tap.source = 0 ∧ tap.stream.live :=
    ⟨_, rfl, rfl, rfl⟩
  have hsecond : ∃ tap, t.tap? "h".toList = some (1, tap) ∧ tap.source = 0 ∧ ¬ tap.stream.live :=
    ⟨_, rfl, rfl, Bool.false_ne_true⟩
  obtain ⟨first, hg, hgsource, hglive⟩ := hfirst
  obtain ⟨second, hh, hhsource, hhspent⟩ := hsecond
  have hliveFirst : t.HasLive 0 := (hasLive_iff_of_tap hg).2 hglive
  have hspentSecond : ¬ t.HasLive 1 := fun live ↦ hhspent ((hasLive_iff_of_tap hh).1 live)
  refine ⟨hopens, hleft, hconserved, ⟨hliveFirst, ?_⟩, ⟨hspentSecond, ?_⟩, fun more h ↦ ?_⟩
  · exact (horderly.label _ _ _ hg hgsource hliveFirst).trans (congrArg (List.take 1) hleft)
  · exact horderly.spent _ _ _ hh hhsource hspentSecond
  · exact hspentSecond ((horderly.live 1 (by decide +kernel) more).1 h).1

end Session

end Acceptor
