import Acceptor.Automaton.Basic
import Acceptor.Text.Quoted

/-!
# Runs

A run follows the transitions that a word asks for, one symbol after the other.  It either ends in
a state or stops at the first symbol that has no transition; which states and symbols are declared
plays no part.
-/

namespace Acceptor

/-- The state and the symbol at which a run has nowhere to go. -/
structure UndefinedTransition where
  state : State
  symbol : Symbol
deriving DecidableEq, Repr

def UndefinedTransition.message (u : UndefinedTransition) : Text :=
  "No transition defined from state ".toList ++ Text.quoted u.state ++ " on symbol ".toList ++
    Text.quoted u.symbol

namespace Automaton

def step (d : Automaton) (q : State) (a : Symbol) : Except UndefinedTransition State :=
  match d.target? q a with
  | some r => .ok r
  | none => .error ⟨q, a⟩

def run (d : Automaton) (q : State) (w : Word) : Except UndefinedTransition State :=
  w.foldlM d.step q

@[simp] theorem run_nil (d : Automaton) (q : State) : d.run q [] = .ok q := rfl

theorem run_cons (d : Automaton) (q : State) (a : Symbol) (w : Word) :
    d.run q (a :: w) = d.step q a >>= fun r ↦ d.run r w := rfl

def accepts (d : Automaton) (w : Word) : Except UndefinedTransition Bool := do
  let q ← d.run d.initial w
  return decide (d.IsFinal q)

/-- The states that a run passes through, beginning with the one it starts in. -/
def visited (d : Automaton) : State → Word → Except UndefinedTransition (List State)
  | q, [] => .ok [q]
  | q, a :: w => do
      let r ← d.step q a
      let rest ← d.visited r w
      return q :: rest

/-- The states of the run from the initial state: one more than the word has symbols. -/
def trace (d : Automaton) (w : Word) : Except UndefinedTransition (List State) :=
  d.visited d.initial w

end Automaton

end Acceptor
