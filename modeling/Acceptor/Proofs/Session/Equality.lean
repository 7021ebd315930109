import Acceptor.Proofs.Automaton.Arrangements
import Acceptor.Proofs.Definition.Listing
import Acceptor.Session.Instruction

/-!
# Equal automata

Two automata are equal when they have the same names in the same places and the same targets.  What
they were built from may differ in order and repetition, and so may the order in which they are
held, but no question tells them apart: each is answered from any arrangement as it is from the
automaton itself (`Arrangement.reply_eq`).
-/

namespace Acceptor

/-! ## Questions to arrangements -/

namespace Arrangement

/-- The reply to a question from the lists as they stand. -/
def reply (x : Arrangement) : Query → Reply
  | .show => .automaton x.automaton
  | .target q a => .state? (x.target? q a)
  | .hasTransition q a => .flag (x.target? q a).isSome
  | .isFinal q => .flag (x.isFinal q)
  | .isComplete => .flag x.isComplete
  | .validate lines =>
      match x.validate lines with
      | .ok _ => .flag true
      | .error e => .failed (.definition e)
  | .step q a => .ofRun .text (x.step q a)
  | .run q w => .ofRun .text (x.run q w)
  | .trace w => .ofRun .texts (x.trace w)
  | .accepts w => .ofRun .flag (x.accepts w)
  | .checkLine config line => .ofRun .text ((x.accepts (Text.wordOf line)).map config.label)

/-- No question is answered by the order. -/
theorem reply_eq (x : Arrangement) (question : Query) :
    x.reply question = question.reply x.automaton := by
  cases question with
  | «show» => rfl
  | target q a => rw [reply, Query.reply, x.target?_eq]
  | hasTransition q a => rw [reply, Query.reply, x.target?_eq]
  | isFinal q => rw [reply, Query.reply, x.isFinal_eq]
  | isComplete => rw [reply, Query.reply, x.isComplete_eq]
  | validate lines =>
      rw [reply, Query.reply, x.validate_eq]
      cases x.automaton.validate lines <;> rfl
  | step q a => rw [reply, Query.reply, x.step_eq]
  | run q w => rw [reply, Query.reply, x.run_eq]
  | trace w => rw [reply, Query.reply, x.trace_eq]
  | accepts w => rw [reply, Query.reply, x.accepts_eq]
  | checkLine config line => rw [reply, Query.reply, x.accepts_eq, checkLine]

end Arrangement

/-! ## Equality -/

/-- Listings build equal automata when they list the same names and the last transition with each
key has the same target. -/
theorem Listing.automaton_eq_iff {l m : Listing} :
    l.automaton = m.automaton ↔
      (∀ a, a ∈ l.alphabet ↔ a ∈ m.alphabet) ∧ (∀ q, q ∈ l.states ↔ q ∈ m.states) ∧
      (∀ q, q ∈ l.finals ↔ q ∈ m.finals) ∧ l.initial = m.initial ∧
      ∀ k : Key, (l.transitions.filter fun t ↦ t.key = k).getLast?.map Transition.target =
        (m.transitions.filter fun t ↦ t.key = k).getLast?.map Transition.target := by
  have halphabet : ∀ (l : Listing) a, a ∈ l.automaton.alphabet ↔ a ∈ l.alphabet :=
    fun l a ↦ SortedSet.mem_ofList
  have hstates : ∀ (l : Listing) q, q ∈ l.automaton.states ↔ q ∈ l.states :=
    fun l q ↦ SortedSet.mem_ofList
  have hfinals : ∀ (l : Listing) q, q ∈ l.automaton.finals ↔ q ∈ l.finals :=
    fun l q ↦ SortedSet.mem_ofList
  have htarget : ∀ (l : Listing) (k : Key), l.automaton.target? k.state k.symbol =
      (l.transitions.filter fun t ↦ t.key = k).getLast?.map Transition.target :=
    fun l k ↦ Transition.get?_table l.transitions k
  constructor
  · intro h
    refine ⟨fun a ↦ ?_, fun q ↦ ?_, fun q ↦ ?_, ?_, fun k ↦ ?_⟩
    · rw [← halphabet l, h, halphabet]
    · rw [← hstates l, h, hstates]
    · rw [← hfinals l, h, hfinals]
    · exact congrArg Automaton.initial h
    · rw [← htarget l, h, htarget]
  · rintro ⟨ha, hq, hf, hi, ht⟩
    refine Automaton.ext (fun a ↦ ?_) (fun q ↦ ?_) hi (fun q ↦ ?_) fun q a ↦ ?_
    · rw [halphabet, halphabet, ha]
    · rw [hstates, hstates, hq]
    · rw [hfinals, hfinals, hf]
    · rw [htarget l ⟨q, a⟩, htarget m ⟨q, a⟩, ht]

/-- Automata are equal exactly when they are built from the same names, the same initial state and
the same last target for each key, in whatever order and however often these are listed.  Equal
automata have the same outline, and whatever orders they are held in, both have the one account and
give the one reply to each question, failures included. -/
theorem equal_automata_indistinguishable (l m : Listing) :
    (l.automaton = m.automaton ↔
      (∀ a, a ∈ l.alphabet ↔ a ∈ m.alphabet) ∧ (∀ q, q ∈ l.states ↔ q ∈ m.states) ∧
      (∀ q, q ∈ l.finals ↔ q ∈ m.finals) ∧ l.initial = m.initial ∧
      ∀ k : Key, (l.transitions.filter fun t ↦ t.key = k).getLast?.map Transition.target =
        (m.transitions.filter fun t ↦ t.key = k).getLast?.map Transition.target) ∧
    (l.automaton = m.automaton → l.automaton.outline = m.automaton.outline ∧
      ∀ x y : Arrangement, x.automaton = l.automaton → y.automaton = m.automaton →
        (x.summary = l.automaton.summary ∧ y.summary = l.automaton.summary) ∧
        ∀ question : Query, x.reply question = question.reply l.automaton ∧
          y.reply question = question.reply l.automaton) := by
  refine ⟨Listing.automaton_eq_iff, fun h ↦ ⟨congrArg Automaton.outline h, ?_⟩⟩
  intro x y hx hy
  have hy : y.automaton = l.automaton := hy.trans h.symm
  refine ⟨⟨?_, ?_⟩, fun question ↦ ⟨?_, ?_⟩⟩
  · rw [x.summary_eq, hx]
  · rw [y.summary_eq, hy]
  · rw [x.reply_eq, hx]
  · rw [y.reply_eq, hy]

/-- One listing in another order, with repetitions and with a target that a later transition
replaces. -/
theorem equal_automata_indistinguishable_reordered :
    let l : Listing := ⟨["1".toList, "0".toList, "1".toList], ["q".toList, "p".toList], "q".toList,
      ["p".toList, "q".toList, "p".toList], [⟨"q".toList, "1".toList, "q".toList⟩,
        ⟨"p".toList, "0".toList, "r".toList⟩, ⟨"p".toList, "0".toList, "p".toList⟩]⟩
    let m : Listing := ⟨["0".toList, "1".toList], ["p".toList, "q".toList], "q".toList,
      ["p".toList, "q".toList], [⟨"p".toList, "0".toList, "p".toList⟩,
        ⟨"q".toList, "1".toList, "q".toList⟩]⟩
    let arranged (l : Listing) := Arrangement.ofLists l.alphabet l.states l.initial l.finals
      l.transitions
    l.automaton = m.automaton ∧ (∀ q, q ∈ l.finals ↔ q ∈ m.finals) ∧
      (arranged l).finals ≠ (arranged m).finals ∧
      (arranged l).transitions.entries ≠ (arranged m).transitions.entries ∧
      (arranged l).summary = (arranged m).summary ∧
      ∀ question : Query, (arranged l).reply question = (arranged m).reply question := by
  intro l m arranged
  have hequal : l.automaton = m.automaton := by decide +kernel
  obtain ⟨hiff, hsame⟩ := equal_automata_indistinguishable l m
  obtain ⟨-, -, hfinals, -⟩ := hiff.1 hequal
  obtain ⟨⟨hl, hm⟩, hreply⟩ := (hsame hequal).2 (arranged l) (arranged m)
    (Arrangement.automaton_ofLists _ _ _ _ _) (Arrangement.automaton_ofLists _ _ _ _ _)
  exact ⟨hequal, hfinals, by decide +kernel, by decide +kernel, hl.trans hm.symm,
    fun question ↦ (hreply question).1.trans (hreply question).2.symm⟩

end Acceptor
