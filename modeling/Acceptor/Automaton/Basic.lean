import Acceptor.Sorted.Map
import Acceptor.Text.Basic

/-!
# Partial deterministic automata

An automaton declares an alphabet and states, starts in an initial state, accepts in its final
states and moves by a partial transition function.  Nothing ties the five components together:
the initial state, the final states and the transitions may use undeclared names.  Since sets and
maps have one representation each, two automata are equal when their components are.
-/

namespace Acceptor

abbrev State := Text
abbrev Symbol := Text
abbrev Word := List Symbol

/-! ## Keys

A transition leaves from a key.  Keys are ordered by their states, and by their symbols where the
states agree. -/

/-- A state and the symbol that is read in it. -/
structure Key where
  state : State
  symbol : Symbol
deriving DecidableEq, Repr

namespace Key

instance : Ord Key := ⟨compareLex (compareOn Key.state) (compareOn Key.symbol)⟩

instance : Std.TransOrd Key :=
  inferInstanceAs (Std.TransCmp (compareLex (compareOn Key.state) (compareOn Key.symbol)))

instance : Std.LawfulEqOrd Key where
  eq_of_compare {j k} h := by
    obtain ⟨p, a⟩ := j
    obtain ⟨q, b⟩ := k
    have h : (compare p q).then (compare a b) = .eq := h
    rw [Ordering.then_eq_eq] at h
    simp only [Std.LawfulEqOrd.compare_eq_iff_eq] at h
    rw [h.1, h.2]

end Key

structure Transition where
  source : State
  symbol : Symbol
  target : State
deriving DecidableEq, Repr

def Transition.key (t : Transition) : Key := ⟨t.source, t.symbol⟩

/-- Of two transitions with the same key the later one stays. -/
def Transition.table (transitions : List Transition) : SortedMap Key State :=
  .ofList (transitions.map fun t ↦ (t.key, t.target))

structure Automaton where
  alphabet : SortedSet Symbol
  states : SortedSet State
  initial : State
  finals : SortedSet State
  transitions : SortedMap Key State
deriving DecidableEq

namespace Automaton

/-- The automaton of plain lists, in which order and repetition do not matter except that a later
transition replaces an earlier one with the same key. -/
def build (alphabet : List Symbol) (states : List State) (initial : State) (finals : List State)
    (transitions : List Transition) : Automaton :=
  ⟨.ofList alphabet, .ofList states, initial, .ofList finals, Transition.table transitions⟩

def target? (d : Automaton) (q : State) (a : Symbol) : Option State := d.transitions.get? ⟨q, a⟩

def IsFinal (d : Automaton) (q : State) : Prop := q ∈ d.finals

instance (d : Automaton) (q : State) : Decidable (d.IsFinal q) :=
  inferInstanceAs (Decidable (q ∈ d.finals))

/-- The number of declared states. -/
def size (d : Automaton) : Nat := d.states.size

/-- Every declared state has a transition on every declared symbol. -/
def IsComplete (d : Automaton) : Prop :=
  ∀ q ∈ d.states.toList, ∀ a ∈ d.alphabet.toList, (d.target? q a).isSome

instance (d : Automaton) : Decidable d.IsComplete :=
  inferInstanceAs (Decidable (∀ q ∈ d.states.toList, ∀ a ∈ d.alphabet.toList, _))

/-- The components that a hash of the automaton reads, which are all but the transitions. -/
def outline (d : Automaton) : SortedSet Symbol × SortedSet State × State × SortedSet State :=
  (d.alphabet, d.states, d.initial, d.finals)

end Automaton

end Acceptor
