import Acceptor.Proofs.Automaton.Runs

/-!
# Runs and paths

A path on a word is a list of states, one more than the word has symbols, in which the transition on
each symbol leads from one state to the next.  Paths are told by their places alone, without
following the word, and they say what runs and traces are.

* `visited_eq_ok_iff`: the states that a run passes through are the path from where it starts.
* `run_eq_ok_iff`: a run ends where the path from its state ends.
* `run_eq_error_iff_meets`: a run gets stuck where it meets a key that has no transition.
-/

namespace Acceptor.Automaton

variable {d : Automaton} {p q r : State} {a : Symbol} {k : Key} {u v w : Word}
  {s : UndefinedTransition} {states others : List State}

/-! ## Paths -/

/-- The states on the way of a word, from any of them on the next symbol to the one after it. -/
structure IsPath (d : Automaton) (w : Word) (states : List State) : Prop where
  length_eq : states.length = w.length + 1
  target_eq : ∀ i p a r, states[i]? = some p → w[i]? = some a → states[i + 1]? = some r →
    d.target? p a = some r

theorem isPath_singleton (d : Automaton) (q : State) : d.IsPath [] [q] where
  length_eq := rfl
  target_eq := by simp

theorem isPath_cons_iff :
    d.IsPath (a :: w) (p :: states) ↔
      ∃ r, states.head? = some r ∧ d.target? p a = some r ∧ d.IsPath w states := by
  constructor
  · intro h
    have hlength : states.length = w.length + 1 := by simpa using h.length_eq
    obtain ⟨r, rest, rfl⟩ := List.exists_cons_of_length_eq_add_one hlength
    refine ⟨r, rfl, h.target_eq 0 p a r rfl rfl rfl, hlength, ?_⟩
    intro i p' a' r' hp ha hr
    exact h.target_eq (i + 1) p' a' r' hp ha hr
  · rintro ⟨r, hhead, htarget, hpath⟩
    refine ⟨by simp [hpath.length_eq], ?_⟩
    intro i p' a' r' hp ha hr
    cases i with
    | zero =>
        obtain ⟨rest, rfl⟩ := List.head?_eq_some_iff.1 hhead
        obtain rfl : p = p' := by simpa using hp
        obtain rfl : a = a' := by simpa using ha
        obtain rfl : r = r' := by simpa using hr
        exact htarget
    | succ i => exact hpath.target_eq i p' a' r' hp ha hr

/-- The front of a path is the path on a front of the word. -/
theorem IsPath.take (h : d.IsPath w states) {i : Nat} (hi : i ≤ w.length) :
    d.IsPath (w.take i) (states.take (i + 1)) where
  length_eq := by
    rw [List.length_take, List.length_take, h.length_eq]
    omega
  target_eq := by
    intro j p a r hp ha hr
    simp only [List.getElem?_take, Option.ite_none_right_eq_some] at hp ha hr
    exact h.target_eq j p a r hp.2 ha.2 hr.2

/-! ## Traces -/

/-- The states that a run passes through are the path from the state that it starts in. -/
theorem visited_eq_ok_iff :
    d.visited q w = .ok states ↔ d.IsPath w states ∧ states.head? = some q := by
  induction w generalizing q states with
  | nil =>
      constructor
      · intro h
        obtain rfl := Except.ok.inj h
        exact ⟨isPath_singleton d q, rfl⟩
      · rintro ⟨hpath, hhead⟩
        obtain ⟨p, rfl⟩ := List.length_eq_one_iff.1 hpath.length_eq
        obtain rfl := Option.some.inj hhead
        rfl
  | cons a w ih =>
      simp only [visited_cons_eq_ok_iff, ih]
      constructor
      · rintro ⟨p, rest, htarget, ⟨hpath, hhead⟩, rfl⟩
        exact ⟨isPath_cons_iff.2 ⟨p, hhead, htarget, hpath⟩, rfl⟩
      · rintro ⟨hpath, hhead⟩
        obtain ⟨rest, rfl⟩ := List.head?_eq_some_iff.1 hhead
        obtain ⟨p, hhead, htarget, hpath⟩ := isPath_cons_iff.1 hpath
        exact ⟨p, rest, htarget, ⟨hpath, hhead⟩, rfl⟩

/-- There is at most one path on a word from a state. -/
theorem IsPath.unique (h : d.IsPath w states) (hhead : states.head? = some q)
    (h' : d.IsPath w others) (hhead' : others.head? = some q) : states = others :=
  Except.ok.inj ((visited_eq_ok_iff.2 ⟨h, hhead⟩).symm.trans (visited_eq_ok_iff.2 ⟨h', hhead'⟩))

/-- A run ends in the last of the states that it passes through, and it gets stuck where its trace
does. -/
theorem run_eq_map_visited (d : Automaton) (q : State) (w : Word) :
    d.run q w = (d.visited q w).map fun states ↦ states.getLastD q := by
  induction w generalizing q with
  | nil => rfl
  | cons a w ih =>
      cases htarget : d.target? q a with
      | none => rw [run_cons_of_none htarget, visited_cons_of_none htarget, Except.map]
      | some p =>
          rw [run_cons_of_some htarget, visited_cons_of_some htarget, ih]
          cases hrest : d.visited p w with
          | error s => rfl
          | ok rest =>
              obtain ⟨-, hhead⟩ := visited_eq_ok_iff.1 hrest
              obtain ⟨rest, rfl⟩ := List.head?_eq_some_iff.1 hhead
              simp [Except.map, List.getLastD]

theorem visited_eq_error_iff : d.visited q w = .error s ↔ d.run q w = .error s := by
  rw [run_eq_map_visited]
  cases d.visited q w <;> simp [Except.map]

/-! ## Runs -/

theorem run_eq_ok_iff :
    d.run q w = .ok r ↔
      ∃ states, d.IsPath w states ∧ states.head? = some q ∧ states.getLast? = some r := by
  have hlast : ∀ states : List State, states.head? = some q →
      (states.getLastD q = r ↔ states.getLast? = some r) := by
    intro states hhead
    obtain ⟨rest, rfl⟩ := List.head?_eq_some_iff.1 hhead
    simp [List.getLast?_cons]
  rw [run_eq_map_visited]
  constructor
  · intro h
    cases hvisited : d.visited q w with
    | error s => simp [hvisited, Except.map] at h
    | ok states =>
        obtain ⟨hpath, hhead⟩ := visited_eq_ok_iff.1 hvisited
        rw [hvisited] at h
        exact ⟨states, hpath, hhead, (hlast states hhead).1 (Except.ok.inj h)⟩
  · rintro ⟨states, hpath, hhead, hr⟩
    rw [visited_eq_ok_iff.2 ⟨hpath, hhead⟩, Except.map, (hlast states hhead).2 hr]

/-- Every state of a path is the end of the run on the symbols before it. -/
theorem IsPath.run_take (h : d.IsPath w states) (hhead : states.head? = some q) {i : Nat}
    (hr : states[i]? = some r) : d.run q (w.take i) = .ok r := by
  have hi : i < states.length := (List.getElem?_eq_some_iff.1 hr).1
  have hlength := h.length_eq
  refine run_eq_ok_iff.2 ⟨states.take (i + 1), h.take (by omega), ?_, ?_⟩
  · obtain ⟨rest, rfl⟩ := List.head?_eq_some_iff.1 hhead
    rfl
  · rw [List.getLast?_take]
    simp [hr]

/-! ## Keys on the way -/

/-- The run comes to the state of the key when the symbol of the key is next.  Whether the key has a
transition does not matter. -/
def Meets (d : Automaton) (q : State) (w : Word) (k : Key) : Prop :=
  ∃ i, d.run q (w.take i) = .ok k.state ∧ w[i]? = some k.symbol

theorem not_meets_nil : ¬ d.Meets q [] k := by
  rintro ⟨i, -, hsymbol⟩
  simp at hsymbol

theorem meets_cons_iff :
    d.Meets q (a :: w) k ↔ k = ⟨q, a⟩ ∨ ∃ r, d.target? q a = some r ∧ d.Meets r w k := by
  constructor
  · rintro ⟨i, hrun, hsymbol⟩
    cases i with
    | zero =>
        obtain rfl : q = k.state := by simpa using hrun
        obtain rfl : a = k.symbol := by simpa using hsymbol
        exact .inl rfl
    | succ i =>
        obtain ⟨r, htarget, hrun⟩ := run_cons_eq_ok_iff.1 hrun
        exact .inr ⟨r, htarget, i, hrun, hsymbol⟩
  · rintro (rfl | ⟨r, htarget, i, hrun, hsymbol⟩)
    · exact ⟨0, rfl, rfl⟩
    · exact ⟨i + 1, run_cons_eq_ok_iff.2 ⟨r, htarget, hrun⟩, hsymbol⟩

theorem meets_iff_exists_front :
    d.Meets q w k ↔ ∃ u v, w = u ++ k.symbol :: v ∧ d.run q u = .ok k.state := by
  constructor
  · rintro ⟨i, hrun, hsymbol⟩
    obtain ⟨hi, hsymbol⟩ := List.getElem?_eq_some_iff.1 hsymbol
    refine ⟨w.take i, w.drop (i + 1), ?_, hrun⟩
    rw [← hsymbol, ← List.drop_eq_getElem_cons hi, List.take_append_drop]
  · rintro ⟨u, v, rfl, hrun⟩
    exact ⟨u.length, by rwa [List.take_left], by simp⟩

/-- A run gets stuck at a key that it meets and that has no transition. -/
theorem run_eq_error_iff_meets :
    d.run q w = .error s ↔
      d.Meets q w ⟨s.state, s.symbol⟩ ∧ d.target? s.state s.symbol = none := by
  rw [run_eq_error_iff, meets_iff_exists_front]
  constructor
  · rintro ⟨u, v, hw, hrun, htarget⟩
    exact ⟨⟨u, v, hw, hrun⟩, htarget⟩
  · rintro ⟨⟨u, v, hw, hrun⟩, htarget⟩
    exact ⟨u, v, hw, hrun, htarget⟩

/-- A run is the following of a path, of which there is one at most.  It gets stuck exactly where
the symbols before some place lead to a state that has no transition on the symbol there, and then
so does the run on every longer word, which otherwise goes on from where the run ends. -/
theorem runs_follow_paths (d : Automaton) (q : State) (w : Word) :
    (∀ r, d.run q w = .ok r ↔
      ∃ states, d.IsPath w states ∧ states.head? = some q ∧ states.getLast? = some r) ∧
    (∀ states others, d.IsPath w states → states.head? = some q → d.IsPath w others →
      others.head? = some q → states = others) ∧
    (∀ s, d.run q w = .error s ↔
      ∃ i, d.run q (w.take i) = .ok s.state ∧ w[i]? = some s.symbol ∧
        d.target? s.state s.symbol = none) ∧
    ∀ v, (∀ r, d.run q w = .ok r → d.run q (w ++ v) = d.run r v) ∧
      ∀ s, d.run q w = .error s → d.run q (w ++ v) = .error s := by
  refine ⟨fun r ↦ run_eq_ok_iff, ?_, ?_, ?_⟩
  · intro states others hpath hhead hpath' hhead'
    exact hpath.unique hhead hpath' hhead'
  · intro s
    rw [run_eq_error_iff_meets, Meets, exists_and_right.symm]
    simp only [and_assoc]
  · intro v
    constructor
    · intro r hrun
      exact run_append_of_ok hrun v
    · intro s hrun
      rw [run_append, hrun]
      rfl

/-- A run through states that are not declared, which gets stuck on one symbol more. -/
theorem runs_follow_paths_undeclared :
    let d := build ["b".toList] [] "p".toList []
      [⟨"p".toList, "a".toList, "q".toList⟩, ⟨"q".toList, "a".toList, "p".toList⟩]
    let w := ["a".toList, "a".toList, "a".toList]
    let states := ["p".toList, "q".toList, "p".toList, "q".toList]
    d.IsPath w states ∧ d.run "p".toList w = .ok "q".toList ∧
      d.run "p".toList (w ++ ["b".toList]) = .error ⟨"q".toList, "b".toList⟩ := by
  intro d w states
  obtain ⟨hends, -, hstuck, hlonger⟩ := runs_follow_paths d "p".toList w
  have htrace : d.visited "p".toList w = .ok states := rfl
  obtain ⟨hpath, hhead⟩ := visited_eq_ok_iff.1 htrace
  have hrun : d.run "p".toList w = .ok "q".toList := (hends _).2 ⟨states, hpath, hhead, rfl⟩
  have hgap : d.run "q".toList ["b".toList] = .error ⟨"q".toList, "b".toList⟩ :=
    run_cons_of_none rfl []
  exact ⟨hpath, hrun, ((hlonger ["b".toList]).1 _ hrun).trans hgap⟩

end Acceptor.Automaton
