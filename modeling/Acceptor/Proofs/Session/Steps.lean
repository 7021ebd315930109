import Acceptor.Proofs.Session.Readers

/-!
# What an instruction does to sources and label streams

An instruction reads from a source, asks a label stream, opens a source, opens a label stream,
or leaves all sources and label streams as they are.  `Session.Effect` lists these five kinds
and `Session.effect_step` says that there are no others, so what holds of sources and label streams
along a session is looked at for five kinds of steps and not for all instructions.
-/

namespace Acceptor.Session

variable {s t : Session} {c : Instruction} {reply : Reply} {name : Name} {r : Reader} {tap : Tap}
  {place other k : Nat}

/-! ## What names stand for -/

theorem source?_eq_some_iff :
    s.source? name = some place ↔ s.lookup? name = some (.source place) := by
  rw [source?]
  split
  · next h => simp [h]
  · next h => simpa using h place

/-- The label stream of a name, with its place. -/
def tap? (s : Session) (name : Name) : Option (Nat × Tap) :=
  match s.lookup? name with
  | some (.labels k) => s.taps[k]?.map (k, ·)
  | _ => none

theorem tap?_eq_some_iff :
    s.tap? name = some (k, tap) ↔ s.lookup? name = some (.labels k) ∧ s.taps[k]? = some tap := by
  rw [tap?]
  split
  · next j h =>
      rw [h, Option.map_eq_some_iff]
      constructor
      · rintro ⟨tap, htap, heq⟩
        obtain ⟨rfl, rfl⟩ := Prod.mk.inj heq
        exact ⟨rfl, htap⟩
      · rintro ⟨heq, htap⟩
        obtain rfl : j = k := by simpa using heq
        exact ⟨tap, htap, rfl⟩
  · next h =>
      constructor
      · intro heq
        cases heq
      · rintro ⟨hname, -⟩
        exact absurd hname (h k)

theorem source?_eq_none_of_tap (h : s.tap? name = some (k, tap)) : s.source? name = none := by
  rw [source?, (tap?_eq_some_iff.1 h).1]

/-! ## Items of names -/

section Items

theorem next_of_source (h : s.source? name = some place) :
    s.next name = (s.setLines place (pullLine (s.linesAt place)).2,
      .ofPulled (pullLine (s.linesAt place)).1) := by
  simp only [next, source?_eq_some_iff.1 h]

theorem next_of_tap (h : s.tap? name = some (k, tap)) :
    let pulled := tap.stream.pull (s.linesAt tap.source)
    s.next name = ((s.setLines tap.source pulled.2.2).setTap k { tap with stream := pulled.2.1 },
      .ofPulled pulled.1) := by
  obtain ⟨hname, htap⟩ := tap?_eq_some_iff.1 h
  simp only [next, hname, htap]

theorem next_of_neither (hsource : s.source? name = none) (htap : s.tap? name = none) :
    s.next name = (s, .unbound) := by
  rw [next]
  split
  · next hname => simp [source?, hname] at hsource
  · next hname =>
      rw [tap?, hname, Option.map_eq_none_iff] at htap
      simp only [htap]
  · rfl

theorem rest_of_source (h : s.source? name = some place) :
    s.rest name = (s.setLines place [], .texts (s.linesAt place)) := by
  simp only [rest, source?_eq_some_iff.1 h]

theorem rest_of_tap (h : s.tap? name = some (k, tap)) :
    let drained := tap.stream.drain (s.linesAt tap.source)
    s.rest name = ((s.setLines tap.source drained.2.2).setTap k { tap with stream := drained.2.1 },
      .ofRun .texts drained.1) := by
  obtain ⟨hname, htap⟩ := tap?_eq_some_iff.1 h
  simp only [rest, hname, htap]

theorem rest_of_neither (hsource : s.source? name = none) (htap : s.tap? name = none) :
    s.rest name = (s, .unbound) := by
  rw [rest]
  split
  · next hname => simp [source?, hname] at hsource
  · next hname =>
      rw [tap?, hname, Option.map_eq_none_iff] at htap
      simp only [htap]
  · rfl

end Items

/-! ## Readers of instructions -/

/-- The label stream that an instruction asks for labels. -/
def asked? (s : Session) : Instruction → Option (Nat × Tap)
  | .next name => s.tap? name
  | .rest name => s.tap? name
  | _ => none

/-- The place of the source that an instruction takes lines from, and how it takes them.  A label
stream takes them from the source that it was opened on. -/
def reader? (s : Session) : Instruction → Option (Nat × Reader)
  | .readDefinition source terminator => (s.source? source).map (·, .definition terminator)
  | .checkStream source config => (s.source? source).map (·, .stream config)
  | .next name =>
      ((s.source? name).map (·, .line)).or
        ((s.tap? name).map fun (_, tap) ↦ (tap.source, .label tap.stream))
  | .rest name =>
      ((s.source? name).map (·, .lines)).or
        ((s.tap? name).map fun (_, tap) ↦ (tap.source, .labels tap.stream))
  | _ => none

theorem reader?_next_of_tap (h : s.tap? name = some (k, tap)) :
    s.reader? (.next name) = some (tap.source, .label tap.stream) := by
  simp [reader?, source?_eq_none_of_tap h, h]

theorem reader?_rest_of_tap (h : s.tap? name = some (k, tap)) :
    s.reader? (.rest name) = some (tap.source, .labels tap.stream) := by
  simp [reader?, source?_eq_none_of_tap h, h]

/-- A request for labels is the last one that finds any: there was none, or all have been given. -/
inductive EndsLabels : Instruction → Reply → Prop
  | finished (name : Name) : EndsLabels (.next name) .finished
  | failed (name : Name) (e : CheckError) : EndsLabels (.next name) (.failed e)
  | rest (name : Name) (reply : Reply) : EndsLabels (.rest name) reply

/-- The instruction is the end of the label stream at a place. -/
def Ends (s : Session) (c : Instruction) (k : Nat) : Prop :=
  (∃ tap, s.asked? c = some (k, tap)) ∧ EndsLabels c (s.step c).2

/-! ## Effects -/

/-- What an instruction with the given reply makes of the sources and the label streams of
a session. -/
inductive Effect (s : Session) (c : Instruction) : Reply → Session → Prop
  | idle {reply : Reply} {t : Session} (reads : s.reader? c = none) (asks : s.asked? c = none)
      (sources : t.sources = s.sources) (taps : t.taps = s.taps) : Effect s c reply t
  | opensSource (name : Name) (lines : List Text) (reads : s.reader? c = none)
      (asks : s.asked? c = none) : Effect s c .done (s.addSource name lines)
  | opensLabels (name : Name) (d : Automaton) (config : Config) (place : Nat)
      (reads : s.reader? c = none) (asks : s.asked? c = none) :
      Effect s c .done (s.addTap name ⟨{ automaton := d, config }, place⟩)
  | reads {place : Nat} {r : Reader} (reads : s.reader? c = some (place, r))
      (asks : s.asked? c = none) :
      Effect s c (r.read (s.linesAt place)).1 (s.setLines place (r.read (s.linesAt place)).2)
  /-- The label stream that is asked stays live as long as it has labels. -/
  | asks {k : Nat} {tap : Tap} {r : Reader} {stream : LabelStream}
      (reads : s.reader? c = some (tap.source, r)) (asks : s.asked? c = some (k, tap))
      (live : stream.live ↔ tap.stream.live ∧ ¬ EndsLabels c (r.read (s.linesAt tap.source)).1) :
      Effect s c (r.read (s.linesAt tap.source)).1
        ((s.setLines tap.source (r.read (s.linesAt tap.source)).2).setTap k { tap with stream })

/-- A label stream that gives a label stays as it is, and else it is not live any more. -/
theorem live_pull_iff (stream : LabelStream) (lines : List Text) (name : Name) :
    (stream.pull lines).2.1.live ↔
      stream.live ∧ ¬ EndsLabels (.next name) (.ofPulled (stream.pull lines).1) := by
  have hitem : ∀ t, ¬ EndsLabels (.next name) (.text t) := by
    intro t h
    cases h
  rw [LabelStream.pull.eq_def]
  split
  · next live =>
      split
      · simp [Reply.ofPulled, EndsLabels.finished]
      · split
        · simpa [Reply.ofPulled, live] using hitem _
        · simp [Reply.ofPulled, EndsLabels.failed]
  · next spent => simp [spent]

theorem live_drain (stream : LabelStream) (lines : List Text) :
    ¬ (stream.drain lines).2.1.live := by
  rw [LabelStream.drain]
  split
  · simp
  · next spent => exact spent

theorem effect_next (s : Session) (name : Name) :
    s.Effect (.next name) (s.next name).2 (s.next name).1 := by
  cases htap : s.tap? name with
  | some entry =>
      obtain ⟨k, tap⟩ := entry
      rw [next_of_tap htap]
      exact .asks (reader?_next_of_tap htap) htap (live_pull_iff tap.stream _ name)
  | none =>
      cases hsource : s.source? name with
      | some place =>
          have hreader : s.reader? (.next name) = some (place, .line) := by simp [reader?, hsource]
          rw [next_of_source hsource]
          exact .reads hreader htap
      | none =>
          rw [next_of_neither hsource htap]
          exact .idle (by simp [reader?, hsource, htap]) htap rfl rfl

theorem effect_rest (s : Session) (name : Name) :
    s.Effect (.rest name) (s.rest name).2 (s.rest name).1 := by
  cases htap : s.tap? name with
  | some entry =>
      obtain ⟨k, tap⟩ := entry
      rw [rest_of_tap htap]
      refine .asks (reader?_rest_of_tap htap) htap ?_
      simp [live_drain, EndsLabels.rest]
  | none =>
      cases hsource : s.source? name with
      | some place =>
          have hreader : s.reader? (.rest name) = some (place, .lines) := by simp [reader?, hsource]
          rw [rest_of_source hsource]
          exact .reads hreader htap
      | none =>
          rw [rest_of_neither hsource htap]
          exact .idle (by simp [reader?, hsource, htap]) htap rfl rfl

/-- Every instruction has one of the five effects. -/
theorem effect_step (s : Session) (c : Instruction) : s.Effect c (s.step c).2 (s.step c).1 := by
  cases c with
  | parse config text name =>
      simp only [step]
      split <;> exact .idle rfl rfl rfl rfl
  | define d name => exact .idle rfl rfl rfl rfl
  | openLines lines name => exact .opensSource name lines rfl rfl
  | openText text name => exact .opensSource name (Text.delivered text) rfl rfl
  | openLabels automaton source config name =>
      simp only [step]
      split
      · exact .opensLabels name _ config _ rfl rfl
      · exact .idle rfl rfl rfl rfl
  | readDefinition source terminator =>
      simp only [step]
      split
      · next place hsource =>
          have hreader : s.reader? (.readDefinition source terminator) =
              some (place, .definition terminator) := by simp [reader?, hsource]
          exact .reads hreader rfl
      · next hsource => exact .idle (by simp [reader?, hsource]) rfl rfl rfl
  | checkStream source config =>
      simp only [step]
      split
      · next place hsource =>
          have hreader : s.reader? (.checkStream source config) = some (place, .stream config) := by
            simp [reader?, hsource]
          exact .reads hreader rfl
      · next hsource => exact .idle (by simp [reader?, hsource]) rfl rfl rfl
  | next name => exact effect_next s name
  | rest name => exact effect_rest s name
  | compare first second =>
      simp only [step]
      split <;> exact .idle rfl rfl rfl rfl
  | query automaton question =>
      simp only [step]
      split <;> exact .idle rfl rfl rfl rfl

end Acceptor.Session
