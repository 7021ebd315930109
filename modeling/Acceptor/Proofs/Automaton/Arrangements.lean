import Acceptor.Automaton.Run
import Acceptor.Automaton.Summary
import Acceptor.Definition.Strict
import Acceptor.Proofs.Automaton.Building
import Mathlib.Data.List.Dedup

/-!
# Arrangements

An automaton has its names and transitions in one order, that of the comparison.  What is held in
memory has them in some other order: the members of a set stand as they happen to, and transitions
as they came.  An arrangement is an automaton in any such order, and what is asked of it is answered
by going through its lists as they stand, sorting them where the answer is to name the least.

Every answer is the one of the automaton (`Arrangement.target?_eq` and the statements after it), so
no order can be told from another.
-/

namespace Acceptor

universe u v

/-! ## Sorting -/

section Sorting

variable {α : Type u} {β : Type v} [Ord α]

/-- The elements in the order of their keys. -/
def sortedBy (key : β → α) (l : List β) : List β :=
  l.mergeSort fun a b ↦ (compare (key a) (key b)).isLE

/-- However the elements of an increasing list stand, sorting gives the list. -/
theorem sortedBy_eq_of_perm [Std.TransOrd α] {key : β → α} {l m : List β} (perm : l.Perm m)
    (increasing : m.Pairwise fun a b ↦ Precedes (key a) (key b)) : sortedBy key l = m := by
  have hperm : (sortedBy key l).Perm m := (List.mergeSort_perm l _).trans perm
  have hle : (sortedBy key l).Pairwise fun a b ↦ (compare (key a) (key b)).isLE := by
    apply List.pairwise_mergeSort
    · exact fun a b c ↦ Std.TransCmp.isLE_trans
    · intro a b
      rw [Std.OrientedOrd.eq_swap (b := key b)]
      cases compare (key b) (key a) <;> rfl
  -- keys that are apart in the increasing list are apart in any order
  have hne : (sortedBy key l).Pairwise fun a b ↦ compare (key a) (key b) ≠ .eq := by
    refine (hperm.pairwise_iff fun h ↦ ?_).2 (increasing.imp fun h ↦ ?_)
    · exact fun heq ↦ h (Std.OrientedCmp.eq_symm heq)
    · rw [show compare _ _ = Ordering.lt from h]
      decide
  refine eq_of_pairwise (fun _ _ ↦ not_precedes_of_precedes) ?_ increasing fun _ ↦ hperm.mem_iff
  refine (hle.and hne).imp fun {a b} h ↦ ?_
  rw [Precedes]
  revert h
  cases compare (key a) (key b) <;> decide

end Sorting

/-! ## Arrangements of automata -/

/-- An automaton whose sets hold their members once each and in any order, and whose transitions are
a mapping. -/
structure Arrangement where
  alphabet : List Symbol
  states : List State
  initial : State
  finals : List State
  transitions : Mapping
  alphabet_nodup : alphabet.Nodup
  states_nodup : states.Nodup
  finals_nodup : finals.Nodup

namespace Arrangement

variable (x : Arrangement)

/-- The automaton that is arranged. -/
def automaton : Automaton :=
  .buildFrom x.alphabet x.states x.initial x.finals x.transitions

/-- Plain lists with each name once and with the transitions as a mapping that they fill. -/
def ofLists (alphabet : List Symbol) (states : List State) (initial : State) (finals : List State)
    (ts : List Transition) : Arrangement where
  alphabet := alphabet.dedup
  states := states.dedup
  initial := initial
  finals := finals.dedup
  transitions := .ofTransitions ts
  alphabet_nodup := alphabet.nodup_dedup
  states_nodup := states.nodup_dedup
  finals_nodup := finals.nodup_dedup

/-! ### Answers

Each answer goes through the lists as they stand. -/

/-- The target of the first entry with the key. -/
def target? (q : State) (a : Symbol) : Option State :=
  SortedMap.find? ⟨q, a⟩ x.transitions.entries

def isComplete : Bool := x.states.all fun q ↦ x.alphabet.all fun a ↦ (x.target? q a).isSome

def step (q : State) (a : Symbol) : Except UndefinedTransition State :=
  match x.target? q a with
  | some r => .ok r
  | none => .error ⟨q, a⟩

def run (q : State) (w : Word) : Except UndefinedTransition State := w.foldlM x.step q

def isFinal (q : State) : Bool := decide (q ∈ x.finals)

def accepts (w : Word) : Except UndefinedTransition Bool := do
  let q ← x.run x.initial w
  return x.isFinal q

/-- The states of a run, those passed already and the one it has come to. -/
def visited (passed : List State) (q : State) : Word → Except UndefinedTransition (List State)
  | [] => .ok (passed ++ [q])
  | a :: w => do
      let r ← x.step q a
      visited (passed ++ [q]) r w

def trace (w : Word) : Except UndefinedTransition (List State) := x.visited [] x.initial w

/-- A name that has to be declared, and the fault when it is not. -/
def require (declared : List Text) (name : Text) (e : DefinitionError) :
    Except DefinitionError Unit :=
  if name ∈ declared then .ok () else .error e

def checkTransition (lines : Automaton.LineNumbers) (e : Key × State) :
    Except DefinitionError Unit := do
  let line := Automaton.lineOf lines e.1
  require x.states e.1.state (.unknownState e.1.state .transition line)
  require x.alphabet e.1.symbol (.unknownSymbol e.1.symbol line)
  require x.states e.2 (.unknownState e.2 .transition line)

/-- The strict check.  It stops at its first fault, so final states and transitions are sorted. -/
def validate (lines : Automaton.LineNumbers) : Except DefinitionError Unit := do
  require x.states x.initial (.unknownState x.initial .initial 4)
  (sortedBy id x.finals).forM fun q ↦ require x.states q (.unknownState q .final 5)
  (sortedBy Prod.fst x.transitions.entries).forM (x.checkTransition lines)

/-- The one-line account, from the numbers of names and transitions and the sorted final states. -/
def account (states alphabet : Nat) (initial : State) (finals : List State)
    (transitions : Nat) : Text :=
  "DFA(states=".toList ++ Text.ofNat states ++ ", alphabet=".toList ++ Text.ofNat alphabet ++
    ", initial=".toList ++ Text.quoted initial ++ ", final=".toList ++
    ("[".toList ++ (", ".toList).intercalate (finals.map Text.quoted) ++ "]".toList) ++
    ", transitions=".toList ++ Text.ofNat transitions ++ ")".toList

def summary : Text :=
  account x.states.length x.alphabet.length x.initial (sortedBy id x.finals)
    x.transitions.entries.length

/-! ### The lists and the automaton -/

theorem automaton_ofLists (alphabet : List Symbol) (states : List State) (initial : State)
    (finals : List State) (ts : List Transition) :
    (ofLists alphabet states initial finals ts).automaton =
      .build alphabet states initial finals ts := by
  have hset : ∀ names : List Text, SortedSet.ofList names.dedup = .ofList names := fun names ↦
    SortedSet.ext fun n ↦ by simp
  rw [automaton, ofLists, Automaton.buildFrom_ofTransitions, Automaton.build, Automaton.build,
    hset, hset, hset]

theorem alphabet_perm : x.alphabet.Perm x.automaton.alphabet.toList :=
  SortedSet.perm_toList_ofList x.alphabet_nodup

theorem states_perm : x.states.Perm x.automaton.states.toList :=
  SortedSet.perm_toList_ofList x.states_nodup

theorem finals_perm : x.finals.Perm x.automaton.finals.toList :=
  SortedSet.perm_toList_ofList x.finals_nodup

theorem entries_perm : x.transitions.entries.Perm x.automaton.transitions.entries := by
  have hnodup : ∀ {l : List (Key × State)}, l.Pairwise (fun e f ↦ e.1 ≠ f.1) → l.Nodup :=
    fun h ↦ h.imp fun hne heq ↦ hne (congrArg Prod.fst heq)
  apply (List.perm_ext_iff_of_nodup (hnodup x.transitions.distinct)
    (hnodup x.automaton.transitions.entries_distinct)).2
  rintro ⟨k, r⟩
  rw [← Mapping.get?_table_transitions, ← SortedMap.get?_eq_some]
  rfl

theorem mem_alphabet_iff {a : Symbol} : a ∈ x.alphabet ↔ a ∈ x.automaton.alphabet :=
  x.alphabet_perm.mem_iff

theorem mem_states_iff {q : State} : q ∈ x.states ↔ q ∈ x.automaton.states :=
  x.states_perm.mem_iff

theorem mem_finals_iff {q : State} : q ∈ x.finals ↔ q ∈ x.automaton.finals :=
  x.finals_perm.mem_iff

theorem sortedBy_finals : sortedBy id x.finals = x.automaton.finals.toList :=
  sortedBy_eq_of_perm x.finals_perm x.automaton.finals.increasing

theorem sortedBy_entries :
    sortedBy Prod.fst x.transitions.entries = x.automaton.transitions.entries :=
  sortedBy_eq_of_perm x.entries_perm x.automaton.transitions.increasing

/-! ### Answers of the automaton -/

theorem target?_eq (q : State) (a : Symbol) : x.target? q a = x.automaton.target? q a := by
  refine Option.ext fun r ↦ ?_
  rw [target?, SortedMap.find?_eq_some_iff_mem x.transitions.distinct, x.entries_perm.mem_iff,
    Automaton.target?, SortedMap.get?_eq_some]

theorem isComplete_eq : x.isComplete = decide x.automaton.IsComplete := by
  rw [isComplete, Bool.eq_iff_iff, List.all_eq_true, decide_eq_true_iff]
  simp only [List.all_eq_true, target?_eq, mem_states_iff, mem_alphabet_iff]
  exact Iff.rfl

theorem step_eq (q : State) (a : Symbol) : x.step q a = x.automaton.step q a := by
  rw [step, target?_eq]
  rfl

theorem run_eq (q : State) (w : Word) : x.run q w = x.automaton.run q w := by
  have hstep : x.step = x.automaton.step := funext fun q ↦ funext fun a ↦ x.step_eq q a
  rw [run, Automaton.run, hstep]

theorem isFinal_eq (q : State) : x.isFinal q = decide (x.automaton.IsFinal q) :=
  decide_eq_decide.2 x.mem_finals_iff

theorem accepts_eq (w : Word) : x.accepts w = x.automaton.accepts w := by
  have hfinal : x.isFinal = fun q ↦ decide (x.automaton.IsFinal q) := funext x.isFinal_eq
  rw [accepts, Automaton.accepts, run_eq, hfinal]
  rfl

/-- The states that were passed stay in front of those that are still to come. -/
theorem visited_eq (passed : List State) (q : State) (w : Word) :
    x.visited passed q w = (x.automaton.visited q w).map (passed ++ ·) := by
  induction w generalizing passed q with
  | nil => rfl
  | cons a w ih =>
      rw [visited, Automaton.visited, step_eq]
      cases x.automaton.step q a with
      | error u => rfl
      | ok r =>
          show x.visited (passed ++ [q]) r w = _
          rw [ih]
          cases hrest : x.automaton.visited r w with
          | error u => simp [hrest, bind, Except.bind, Except.map]
          | ok rest => simp [hrest, bind, Except.bind, Except.map, pure, Except.pure]

theorem trace_eq (w : Word) : x.trace w = x.automaton.trace w := by
  rw [trace, visited_eq]
  show (x.automaton.trace w).map id = _
  cases x.automaton.trace w <;> rfl

/-! ### The strict check -/

/-- The first of some faults, if there are any. -/
def refuse : List DefinitionError → Except DefinitionError Unit
  | [] => .ok ()
  | e :: _ => .error e

theorem refuse_append (l m : List DefinitionError) :
    refuse (l ++ m) = (do refuse l; refuse m) := by
  cases l <;> rfl

/-- Going through elements, each with its faults, is refusing for the first of all faults. -/
theorem refuse_flatMap {α : Type} (f : α → List DefinitionError) (l : List α) :
    refuse (l.flatMap f) = l.forM fun a ↦ refuse (f a) := by
  induction l with
  | nil => rfl
  | cons a l ih =>
      rw [List.flatMap_cons, refuse_append, ih]
      rfl

theorem require_eq {declared : List Text} {s : SortedSet Text}
    (h : ∀ {name}, name ∈ declared ↔ name ∈ s) (name : Text) (e : DefinitionError) :
    require declared name e = refuse (if name ∈ s then [] else [e]) := by
  rw [require]
  by_cases hname : name ∈ s
  · rw [if_pos (h.2 hname), if_pos hname, refuse]
  · rw [if_neg (mt h.1 hname), if_neg hname, refuse]

theorem checkTransition_eq (lines : Automaton.LineNumbers) (e : Key × State) :
    x.checkTransition lines e =
      refuse (x.automaton.undeclaredIn e.1 e.2 (Automaton.lineOf lines e.1)) := by
  rw [Automaton.undeclaredIn, refuse_append, refuse_append, ← require_eq x.mem_states_iff,
    ← require_eq x.mem_alphabet_iff, ← require_eq x.mem_states_iff, checkTransition, bind_assoc]

/-- Sorting makes the first fault of the loops the first in the order of the automaton. -/
theorem validate_eq_refuse (lines : Automaton.LineNumbers) :
    x.validate lines = refuse (x.automaton.undeclared lines) := by
  have hfinals : x.automaton.undeclaredFinals = x.automaton.finals.toList.flatMap fun q ↦
      if q ∈ x.automaton.states then [] else [.unknownState q .final 5] := by
    rw [Automaton.undeclaredFinals]
    induction x.automaton.finals.toList with
    | nil => rfl
    | cons q more ih => by_cases hq : q ∈ x.automaton.states <;> simpa [hq] using ih
  have hcheck : x.checkTransition lines = fun e ↦
      refuse (x.automaton.undeclaredIn e.1 e.2 (Automaton.lineOf lines e.1)) :=
    funext fun e ↦ x.checkTransition_eq lines e
  rw [validate, sortedBy_finals, sortedBy_entries, hcheck, Automaton.undeclared, refuse_append,
    refuse_append, hfinals, Automaton.undeclaredTransitions, refuse_flatMap, refuse_flatMap,
    bind_assoc]
  simp only [require_eq x.mem_states_iff]
  rfl

/-- The strict check of an arrangement fails as that of the automaton does. -/
theorem validate_eq (lines : Automaton.LineNumbers) :
    x.validate lines = (x.automaton.validate lines).map fun _ ↦ () := by
  rw [validate_eq_refuse, Automaton.validate]
  cases x.automaton.undeclared lines <;> rfl

/-! ### Accounts -/

theorem summary_eq : x.summary = x.automaton.summary := by
  rw [summary, sortedBy_finals, x.states_perm.length_eq, x.alphabet_perm.length_eq,
    x.entries_perm.length_eq]
  rfl

end Arrangement

end Acceptor
