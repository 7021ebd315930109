import Acceptor.Proofs.Definition.Strictness
import Acceptor.Proofs.Stream.Reports

/-!
# Strict checks of streams

Strictness is looked at once the definition block is read and before the first word, and answering
words does not look at it.  A strict check therefore does what the plain one does, or it ends at the
definition with all words unread; `strictness_filters` says so for single definitions and for
streams.
-/

namespace Acceptor

/-! ## Checks with the same automaton -/

section Congruence

variable (config : Config) (fault : Option DecodeError)

/-- Answering words looks at the labels of a configuration only. -/
theorem answer_strict (strict : Bool) (d : Automaton) (room : Option Nat) (lines : List Text) :
    answer { config with strict } d fault room lines = answer config d fault room lines := by
  induction lines generalizing room with
  | nil => rfl
  | cons line more ih =>
      rw [answer, answer, ih]
      rfl

/-- A check is settled by what its definition is read as, strictly or not. -/
theorem checkAfter_strict_of_parse_eq {block : Block} {strict : Bool}
    (h : Definition.parse { config with strict } block.text =
      Definition.parse config block.text) (room : Option Nat) :
    checkAfter { config with strict } block fault room = checkAfter config block fault room := by
  rw [checkAfter, checkAfter, h]
  cases Definition.parse config block.text with
  | error e => rfl
  | ok d => simp only [answer_strict]

end Congruence

/-! ## Plain and strict checks -/

/-- With the block read, strictness changes nothing or rejects the automaton of the block. -/
theorem checkAfter_strict (config : Config) (block : Block) (fault : Option DecodeError)
    (room : Option Nat) :
    let strict := checkAfter { config with strict := true } block fault room
    strict = checkAfter { config with strict := false } block fault room ∨
      ∃ d e, Definition.parse { config with strict := false } block.text = .ok d ∧
        d.IsUndeclaredUse e ∧ strict.outcome = .error (.refused (.definition e)) ∧
        strict.labels = [] ∧ strict.rest = block.rest := by
  have same : Definition.parse { config with strict := true } block.text =
      Definition.parse { config with strict := false } block.text →
      checkAfter { config with strict := true } block fault room =
        checkAfter { config with strict := false } block fault room :=
    fun h ↦ checkAfter_strict_of_parse_eq { config with strict := false } fault h room
  cases hplain : Definition.parse { config with strict := false } block.text with
  | error e => exact .inl (same ((Definition.parse_strict_of_error hplain).trans hplain.symm))
  | ok d =>
      rcases Definition.parse_strict_of_ok hplain with hstrict | ⟨e, huse, hstrict⟩
      · exact .inl (same (hstrict.trans hplain.symm))
      · exact .inr ⟨d, e, rfl, huse, checkAfter_of_error hstrict fault room⟩

/-- The same for a whole stream, whose source may fail and whose output may be limited. -/
theorem checkStream_strict (config : Config) (source : Source) (room : Option Nat) :
    let strict := checkStream { config with strict := true } source room
    let block := Block.read config.terminator source.lines
    strict = checkStream { config with strict := false } source room ∨
      ∃ d e, Definition.parse { config with strict := false } block.text = .ok d ∧
        d.IsUndeclaredUse e ∧ strict.outcome = .error (.refused (.definition e)) ∧
        strict.labels = [] ∧ strict.rest = block.rest := by
  simp only [checkStream]
  cases hclosed : (Block.read config.terminator source.lines).closed with
  | true => exact checkAfter_strict config _ source.fault room
  | false =>
      cases hfault : source.fault with
      | none => exact checkAfter_strict config _ none room
      | some e => exact .inl rfl

/-- Strictness only ever filters.  Faults of plain reading stay as they are; what plain reading
gives is kept when it uses declared names only and rejected for an undeclared use otherwise; and
a check of a stream does the same as without strictness, or it ends before the first word with
exactly the lines after the terminator unread. -/
theorem strictness_filters (config : Config) :
    let plain := { config with strict := false }
    let strict := { config with strict := true }
    (∀ text e, Definition.parse plain text = .error e →
      Definition.parse strict text = .error e) ∧
    (∀ text d, Definition.parse plain text = .ok d →
      (Definition.parse strict text = .ok d ↔ d.IsDeclared) ∧
      (Definition.parse strict text = .ok d ∨
        ∃ e, d.IsUndeclaredUse e ∧ Definition.parse strict text = .error e)) ∧
    ∀ source room,
      let r := checkStream strict source room
      let k := source.lines.findIdx fun line ↦ Text.trim line = config.terminator
      let definition := ['\n'].intercalate ((source.lines.take k).map Text.chomp)
      r = checkStream plain source room ∨
        ∃ d e, Definition.parse plain definition = .ok d ∧ d.IsUndeclaredUse e ∧
          r.outcome = .error (.refused (.definition e)) ∧ r.labels = [] ∧
          r.rest = source.lines.drop (k + 1) := by
  intro plain strict
  refine ⟨fun text e ↦ Definition.parse_strict_of_error, fun text d h ↦ ?_, ?_⟩
  · exact ⟨Definition.parse_strict_eq_ok_iff_of_ok h, Definition.parse_strict_of_ok h⟩
  · intro source room r k definition
    have h := checkStream_strict config source room
    rwa [Block.read_eq] at h

/-- A definition that is too short either way, and one whose transition goes to a state that is not
declared: without strictness the word after it is answered, and with strictness it is left. -/
theorem strictness_filters_undeclared_target :
    let text := "dfa\n0\nq\nq\n!!\nq 0 r".toList
    let d := Automaton.build ["0".toList] ["q".toList] "q".toList []
      [⟨"q".toList, "0".toList, "r".toList⟩]
    let source := Source.ofText (text ++ "\n---\n0\n".toList)
    let r := checkStream { strict := true } source none
    Definition.parse {} "dfa".toList = .error (.tooFewLines 1) ∧
      Definition.parse { strict := true } "dfa".toList = .error (.tooFewLines 1) ∧
      Definition.parse {} text = .ok d ∧
      (∃ e, d.IsUndeclaredUse e ∧ Definition.parse { strict := true } text = .error e) ∧
      ∃ e, d.IsUndeclaredUse e ∧ r.outcome = .error (.refused (.definition e)) ∧
        r.labels = [] ∧ r.rest = ["0\n".toList] := by
  intro text d source r
  obtain ⟨hform, hnames, hstream⟩ := strictness_filters {}
  have hshort : Definition.parse {} "dfa".toList = .error (.tooFewLines 1) := by decide +kernel
  have hplain : Definition.parse {} text = .ok d := by decide +kernel
  have hstrict : Definition.parse { strict := true } text ≠ .ok d := by decide +kernel
  have hrest : r.rest ≠ (checkStream {} source none).rest := by decide +kernel
  refine ⟨hshort, hform _ _ hshort, hplain, (hnames text d hplain).2.resolve_left hstrict, ?_⟩
  obtain ⟨d', e, hd', huse, houtcome, hlabels, hleft⟩ :=
    (hstream source none).resolve_left fun h ↦ hrest (congrArg StreamRun.rest h)
  have hd : Definition.parse {} text = .ok d' := by
    refine Eq.trans ?_ hd'
    decide +kernel
  obtain rfl : d = d' := Except.ok.inj (hplain.symm.trans hd)
  exact ⟨e, huse, houtcome, hlabels, hleft.trans (by decide +kernel)⟩

end Acceptor
