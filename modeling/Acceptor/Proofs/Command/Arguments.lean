import Acceptor.Command.Options
import Mathlib.Data.List.TakeDrop
import Mathlib.Data.List.TakeWhile

/-!
# Laws of arguments

A check of a file can be asked for whatever the file is called: behind an equals sign a path is not
looked at.  As an argument of its own it must not begin with a hyphen.
-/

namespace Acceptor

variable {arguments : List Text} {classified : List Argument} {o : Options} {path : Text}

/-- What does not begin with a hyphen is no switch. -/
theorem Argument.ofText_of_head?_ne (h : path.head? ≠ some '-') :
    ofText path = .ok (.plain path) := by
  cases path with
  | nil => rfl
  | cons c rest =>
      have hc : c ≠ '-' := by simpa using h
      rw [ofText.eq_def]
      split
      · next heq => exact absurd (List.cons.inj heq).1 hc
      · next heq => exact absurd (List.cons.inj heq).1 hc
      · rfl

namespace Request

/-- Arguments that are all understood and leave nothing over ask for a check. -/
theorem ofArguments_eq_check (hdashes : "--".toList ∉ arguments)
    (hclassified : arguments.mapM Argument.ofText = .ok classified)
    (hcollected : collect {} [] classified = .ok (o, [])) :
    ofArguments arguments = .check o := by
  have hall : ∀ a ∈ arguments, (a != "--".toList) = true := by
    intro a ha
    rw [bne_iff_ne]
    rintro rfl
    exact hdashes ha
  have hspan : arguments.span (· != "--".toList) = (arguments, []) := by
    rw [List.span_eq_takeWhile_dropWhile, List.takeWhile_eq_self_iff.2 hall,
      List.dropWhile_eq_nil_iff.2 hall]
  rw [ofArguments, hspan]
  simp [hclassified, Except.mapError, bind, Except.bind, hcollected]

/-! ## Spelling options -/

/-- The switch for strictness, or nothing. -/
def strictArguments (strict : Bool) : List Text := if strict then ["--strict".toList] else []

theorem mapM_strictArguments (strict : Bool) :
    (strictArguments strict).mapM Argument.ofText =
      .ok (if strict then [.bare .strict] else []) := by
  cases strict <;> rfl

/-- Arguments that ask for a check with the given options.  Each path stands behind the letter of
its switch and an equals sign. -/
def spelled (o : Options) : List Text :=
  (o.input.map ("-i=".toList ++ ·)).toList ++ (o.output.map ("-o=".toList ++ ·)).toList ++
    strictArguments o.strict

/-- Every check can be asked for, whatever its files are called. -/
theorem ofArguments_spelled (o : Options) : ofArguments (spelled o) = .check o := by
  obtain ⟨strict, input, output⟩ := o
  let classified : List Argument := (input.map (.assigned .input ·)).toList ++
    (output.map (.assigned .output ·)).toList ++ if strict then [.bare .strict] else []
  have hdashes : "--".toList ∉ spelled ⟨strict, input, output⟩ := by
    cases input <;> cases output <;> cases strict <;> simp [spelled, strictArguments]
  have hclassified : (spelled ⟨strict, input, output⟩).mapM Argument.ofText = .ok classified := by
    cases input <;> cases output <;> cases strict <;> rfl
  apply ofArguments_eq_check hdashes hclassified
  cases input <;> cases output <;> cases strict <;> rfl

/-- The letter of the switch, an equals sign and any path. -/
theorem ofArguments_joined_input (strict : Bool) (path : Text) :
    ofArguments (("-i=".toList ++ path) :: strictArguments strict) =
      .check { strict, input := some path } :=
  ofArguments_spelled { strict, input := some path }

/-- The letter of the switch and then a path that is not taken for a switch. -/
theorem ofArguments_input (strict : Bool) (h : path.head? ≠ some '-') :
    ofArguments ("-i".toList :: path :: strictArguments strict) =
      .check { strict, input := some path } := by
  have hpath : "--".toList ≠ path := by
    rintro rfl
    exact h rfl
  have hdashes : "--".toList ∉ "-i".toList :: path :: strictArguments strict := by
    rw [List.mem_cons, List.mem_cons, not_or, not_or]
    refine ⟨by decide, hpath, ?_⟩
    cases strict <;> simp [strictArguments]
  have hclassified : ("-i".toList :: path :: strictArguments strict).mapM Argument.ofText =
      .ok (.bare .input :: .plain path :: if strict then [.bare .strict] else []) := by
    rw [List.mapM_cons, List.mapM_cons, Argument.ofText_of_head?_ne h, mapM_strictArguments]
    rfl
  apply ofArguments_eq_check hdashes hclassified
  cases strict <;> rfl

end Request

end Acceptor
