import Acceptor.Proofs.Definition.Faults
import Acceptor.Proofs.Definition.Grammar
import Acceptor.Proofs.Definition.Undeclared

/-!
# Where undeclared names are used

The check of an automaton does not see the text that it was read from.  It reports the number that
is kept for a key, and the numbers are kept apart from the transitions.  Both are overwritten
together, so the number is that of the last line with the key, which is the line that the reported
transition was read from (`get?_lineNumbers`, `Sections.exists_last_line`).

`Sections.IsCause` says which line of a definition a fault is about, by the names on the lines.
Each undeclared use that is reported has such a line, and its number is the line's.
-/

namespace Acceptor

/-- The fault is an undeclared name. -/
inductive DefinitionError.IsUse : DefinitionError → Prop
  | state (q : State) (role : Role) (line : Int) : IsUse (.unknownState q role line)
  | symbol (a : Symbol) (line : Int) : IsUse (.unknownSymbol a line)

theorem Transition.FirstUndeclared.line_eq {IsSymbol : Symbol → Prop} {IsState : State → Prop}
    {t : Transition} {line : Int} {e : DefinitionError}
    (h : t.FirstUndeclared IsSymbol IsState line e) : e.line = line := by
  cases h <;> rfl

namespace Definition

variable {s : Sections} {e : DefinitionError}

/-! ## Line numbers -/

/-- The number that is kept for a key is that of the last transition with it. -/
theorem get?_lineNumbers {front back : List Transition} {t : Transition} (number : Nat)
    (hback : ∀ u ∈ back, u.key ≠ t.key) :
    (lineNumbers ((front ++ t :: back).zipIdx number)).get? t.key =
      some ((number + front.length : Nat) : Int) := by
  rw [lineNumbers, SortedMap.get?_ofList_eq_some_iff, List.zipIdx_append, List.zipIdx_cons,
    List.map_append, List.map_cons]
  refine ⟨_, _, rfl, fun entry hentry ↦ ?_⟩
  obtain ⟨⟨u, n⟩, hu, rfl⟩ := List.mem_map.1 hentry
  exact hback u (List.fst_mem_of_mem_zipIdx hu)

/-! ## Lines that are to blame -/

namespace Sections

/-- The line of a definition is what the fault is about.  Of a transition it is the last line with
the source and the symbol, and the fault is the first name on it that is not declared. -/
inductive IsCause (s : Sections) : Text → DefinitionError → Prop
  | initial (undeclared : Text.trim s.initial ∉ Text.tokens s.states) :
      IsCause s s.initial (.unknownState (Text.trim s.initial) .initial 4)
  | final (q : State) (counts : ¬ s.HasNoFinals) (isFinal : q ∈ Text.tokens s.finals)
      (undeclared : q ∉ Text.tokens s.states) : IsCause s s.finals (.unknownState q .final 5)
  | transition (t : Transition) (earlier : List Text) (line : Text) (later : List Text)
      (e : DefinitionError) (split : s.transitions = earlier ++ line :: later)
      (names : Text.tokens line = t.names)
      (last : ∀ other ∈ later, ∀ names, Text.tokens other ≠ t.source :: t.symbol :: names)
      (first : t.FirstUndeclared (· ∈ Text.tokens s.alphabet) (· ∈ Text.tokens s.states)
        (6 + earlier.length : Nat) e) :
      IsCause s line e

theorem getElem?_lines (s : Sections) (n : Nat) : s.lines[n + 5]? = s.transitions[n]? := rfl

/-- A fault has the number of the line that it is about. -/
theorem IsCause.exists_number {line : Text} (h : s.IsCause line e) :
    ∃ n : Nat, 4 ≤ n ∧ e.line = n ∧ s.lines[n - 1]? = some line := by
  cases h with
  | initial => exact ⟨4, Nat.le_refl 4, rfl, rfl⟩
  | final => exact ⟨5, by decide, rfl, rfl⟩
  | transition t earlier line later e split names last first =>
      have hfive : 6 + earlier.length - 1 = earlier.length + 5 := by omega
      refine ⟨6 + earlier.length, by omega, first.line_eq, ?_⟩
      rw [hfive, getElem?_lines, split, List.getElem?_append_right (Nat.le_refl _), Nat.sub_self,
        List.getElem?_cons_zero]

variable {finals : List State} {ts : List Transition}

/-- The least undeclared use of what is read has a line that it is about. -/
theorem Reads.exists_isCause (h : s.Reads finals ts)
    (huse : (Automaton.build (Text.tokens s.alphabet) (Text.tokens s.states) (Text.trim s.initial)
      finals ts).IsLeastUse (lineNumbers (ts.zipIdx 6)) e) :
    ∃ line, s.IsCause line e := by
  cases huse with
  | initial undeclared => exact ⟨_, .initial fun hmem ↦ undeclared (SortedSet.mem_ofList.2 hmem)⟩
  | final q _ isFinal undeclared =>
      obtain ⟨hrun, hcounts⟩ := (mem_finals_iff h.finals q).1 (SortedSet.mem_ofList.1 isFinal)
      exact ⟨_, .final q hcounts (Text.mem_tokens_iff.2 hrun)
        fun hmem ↦ undeclared (SortedSet.mem_ofList.2 hmem)⟩
  | transition t e _ _ there first =>
      obtain ⟨front, u, back, rfl, hkey, htarget, hback⟩ :=
        Transition.get?_table_eq_some_iff.1 there
      obtain ⟨hsource, hsymbol⟩ := Key.mk.inj hkey
      obtain rfl : u = t :=
        Transition.names_injective (by rw [Transition.names, hsource, hsymbol, htarget]; rfl)
      obtain ⟨earlier, line, later, hsplit, hlength, hnames, hlast⟩ :=
        exists_last_line h.transitions hback
      rw [get?_lineNumbers 6 hback, Option.getD_some, ← hlength] at first
      simp only [Automaton.build, SortedSet.mem_ofList] at first
      exact ⟨line, .transition u earlier line later e hsplit hnames hlast first⟩

end Sections

/-! ## Undeclared uses -/

/-- Reading by itself does not find undeclared names. -/
theorem not_isUse_of_read_error {lines : List Text} (h : read lines = .error e) : ¬ e.IsUse := by
  intro huse
  obtain ⟨-, rfl⟩ | ⟨-, hfault⟩ := read_eq_error_iff.1 h
  · cases huse
  · obtain ⟨n, line, -, rfl⟩ := firstFault_iff.1 hfault
    rw [formFault.eq_def] at huse
    split at huse <;> cases huse

/-- What is undeclared in what was read has a line of the definition that it is about. -/
theorem exists_isCause_of_read {lines : List Text} {r : Reading} (hread : read lines = .ok r)
    (hvalidate : r.automaton.validate r.lines = .error e) :
    ∃ (s : Sections) (line : Text), lines = s.lines ∧ s.IsCause line e := by
  obtain ⟨s, finals, ts, hlines, hreads, rfl⟩ := read_eq_ok_iff.1 hread
  obtain ⟨line, hcause⟩ := hreads.exists_isCause (Automaton.validate_eq_error_iff.1 hvalidate)
  exact ⟨s, line, hlines, hcause⟩

/-- A fault with a known line number is that of the line with this number.  Either the line has not
its form, or an undeclared name on it is to blame. -/
theorem exists_line_of_parse_eq_error {config : Config} {text : Text}
    (h : parse config text = .error e) (hknown : 1 ≤ e.line) :
    ∃ (n : Nat) (line : Text), (Text.lines text)[n]? = some line ∧ e.line = (n + 1 : Nat) ∧
      (e = formFault (n + 1) line ∨
        ∃ s : Sections, Text.lines text = s.lines ∧ s.IsCause line e) := by
  rcases parse_eq_error_cases h with hread | ⟨-, r, hread, hvalidate⟩
  · rcases read_eq_error_iff.1 hread with ⟨-, rfl⟩ | ⟨-, hfault⟩
    · exact absurd hknown (by simp [DefinitionError.line, DefinitionError.unknownLine])
    · obtain ⟨n, line, hfirst, rfl⟩ := firstFault_iff.1 hfault
      rw [Nat.add_comm 1 n]
      exact ⟨n, line, hfirst.there, line_formFault _ _, .inl rfl⟩
  · obtain ⟨s, line, hlines, hcause⟩ := exists_isCause_of_read hread hvalidate
    obtain ⟨n, hfour, hnumber, hline⟩ := hcause.exists_number
    refine ⟨n - 1, line, hlines ▸ hline, ?_, .inr ⟨s, hlines, hcause⟩⟩
    rw [hnumber, Nat.sub_add_cancel (by omega)]

/-- An undeclared name that is reported is used on the line with the number of the fault.  Initial
states are on the fourth line, final states on the fifth, where they count only without the mark for
none, and the transitions follow.  Of the names of a transition it is the first that is not
declared, and no later line has the same source and symbol. -/
theorem undeclared_use_located (config : Config) {text : Text} {e : DefinitionError}
    (h : parse config text = .error e) (huse : e.IsUse) :
    let lines := Text.lines text
    ∃ (s : Sections) (n : Nat) (line : Text), lines = s.lines ∧ e.line = n ∧ 4 ≤ n ∧
      n ≤ lines.length ∧ lines[n - 1]? = some line ∧ s.IsCause line e := by
  intro lines
  rcases parse_eq_error_cases h with hread | ⟨-, r, hread, hvalidate⟩
  · exact absurd huse (not_isUse_of_read_error hread)
  · obtain ⟨s, line, hlines, hcause⟩ := exists_isCause_of_read hread hvalidate
    obtain ⟨n, hfour, hnumber, hline⟩ := hcause.exists_number
    rw [← hlines] at hline
    obtain ⟨hlt, -⟩ := List.getElem?_eq_some_iff.1 hline
    exact ⟨s, n, line, hlines, hnumber, hfour, Nat.le_of_pred_lt hlt, hline, hcause⟩

/-- The seventh line overwrites the sixth and is to blame, for its target.  The names of the sixth
do not matter any more, and the eighth has a later key. -/
theorem undeclared_use_located_overwritten :
    let config : Config := { strict := true }
    let text := "dfa\n0 1\nq\n q \n!! r\nq 0 s\n q  0 p\r\nq 1 s\n".toList
    let e := DefinitionError.unknownState "p".toList .transition 7
    parse config text = .error e ∧ e.IsUse ∧
      ∃ s : Sections, Text.lines text = s.lines ∧ s.IsCause " q  0 p".toList e := by
  intro config text e
  have herror : parse config text = .error e := by decide +kernel
  have huse : e.IsUse := .state _ _ _
  obtain ⟨s, n, line, hlines, hnumber, -, -, hline, hcause⟩ :=
    undeclared_use_located config herror huse
  have hseven : (7 : Int) = n := hnumber
  obtain rfl : n = 7 := by omega
  have hline' : (Text.lines text)[6]? = some " q  0 p".toList := by decide +kernel
  obtain rfl := Option.some.inj (hline'.symm.trans hline)
  exact ⟨herror, huse, s, hlines, hcause⟩

end Definition

end Acceptor
