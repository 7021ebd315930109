import Acceptor.Text.Digit
import Acceptor.Text.Quoted

/-!
# Options

The arguments of a command are options and nothing else.  Reading them takes two passes.  The
first decides for each argument by itself whether it is an option and which one; the second acts
on the options from left to right.  An argument that the first pass cannot place uniquely is an
error before anything is acted on, and whatever is left over is an error after all options have
been, unless one of them asked for help or for the version.

Letters that are joined behind one hyphen are one option in this: they are checked as a whole and
then act.  There are readers of options that let each letter act as they come to it and would
print the version for `-vx`; for this one `x` is a value that the version ignores, and an error.
-/

namespace Acceptor

inductive Switch where
  | help
  | version
  | input
  | output
  | strict
deriving DecidableEq, Repr

namespace Switch

def all : List Switch := [help, version, input, output, strict]

/-- The letter after a single hyphen. -/
def letter? : Switch → Option Char
  | help => some 'h'
  | version => some 'v'
  | input => some 'i'
  | output => some 'o'
  | strict => none

def long : Switch → Text
  | help => "--help".toList
  | version => "--version".toList
  | input => "--input".toList
  | output => "--output".toList
  | strict => "--strict".toList

def short? (s : Switch) : Option Text := s.letter?.map fun c ↦ ['-', c]

/-- All spellings of a switch, as messages name it. -/
def title (s : Switch) : Text := ['/'].intercalate (s.short?.toList ++ [s.long])

def takesValue : Switch → Bool
  | input | output => true
  | help | version | strict => false

def ofLetter? (c : Char) : Option Switch := all.find? fun s ↦ s.letter? == some c

/-- The switches whose long spelling begins with the given text. -/
def abbreviatedBy (t : Text) : List Switch := all.filter fun s ↦ t.isPrefixOf s.long

end Switch

/-! ## Misuse -/

inductive Misuse where
  | ambiguous (t : Text) (candidates : List Switch)
  | expectedValue (s : Switch)
  | ignoredValue (s : Switch) (value : Text)
  | unrecognized (leftovers : List Text)
deriving DecidableEq, Repr

def Misuse.message : Misuse → Text
  | ambiguous t candidates =>
      "ambiguous option: ".toList ++ t ++ " could match ".toList ++
        (", ".toList).intercalate (candidates.map Switch.long)
  | expectedValue s => "argument ".toList ++ s.title ++ ": expected one argument".toList
  | ignoredValue s value =>
      "argument ".toList ++ s.title ++ ": ignored explicit argument ".toList ++ Text.quoted value
  | unrecognized leftovers =>
      "unrecognized arguments: ".toList ++ [' '].intercalate leftovers

/-! ## Arguments one by one -/

inductive Argument where
  /-- No option. -/
  | plain (t : Text)
  /-- An option that does not exist. -/
  | unknown (t : Text)
  /-- A switch by itself. -/
  | bare (s : Switch)
  /-- A switch with a value in the same argument. -/
  | assigned (s : Switch) (value : Text)
  /-- A switch that takes no value, by its letter, with more letters after it. -/
  | joined (s : Switch) (others : Text)
deriving DecidableEq, Repr

namespace Argument

/-- A text cut at its first equals sign. -/
def splitAtEquals : Text → Option (Text × Text)
  | [] => none
  | c :: rest =>
      if c = '=' then some ([], rest)
      else (splitAtEquals rest).map fun (name, value) ↦ (c :: name, value)

/-- Whether a hyphen is followed by digits, or by a point with digits after it and perhaps before
it.  A line feed at the very end does not count. -/
def isNegativeNumber : Text → Bool
  | '-' :: t =>
      let number := if t.getLast? = some '\n' then t.dropLast else t
      match number.dropWhile Text.isDigit with
      | [] => !number.isEmpty
      | '.' :: fraction => !fraction.isEmpty && fraction.all Text.isDigit
      | _ => false
  | _ => false

/-- What begins with a hyphen and names no switch is still no option when it is a negative number
or holds a space. -/
def unnamed (t : Text) : Argument :=
  if isNegativeNumber t || t.contains ' ' then plain t else unknown t

/-- An argument with two hyphens, which names a switch by any beginning that no other has. -/
def ofLong (t : Text) : Except Misuse Argument :=
  let (name, value?) := match splitAtEquals t with
    | some (name, value) => (name, some value)
    | none => (t, none)
  match Switch.abbreviatedBy name, value? with
  | [], _ => .ok (unnamed t)
  | [s], none => .ok (bare s)
  | [s], some value => .ok (assigned s value)
  | candidates, _ => .error (.ambiguous t candidates)

/-- A switch, by its letter, with what follows the letter.  That is its value if it takes one, and
more letters if it does not; an equals sign in front is part of neither.  Nothing at all after
an equals sign is an empty value. -/
def ofLetter (s : Switch) : Text → Argument
  | [] => bare s
  | '=' :: rest => if s.takesValue || rest.isEmpty then assigned s rest else joined s rest
  | rest => if s.takesValue then assigned s rest else joined s rest

def ofText (t : Text) : Except Misuse Argument :=
  match t with
  | '-' :: '-' :: _ => ofLong t
  | '-' :: letter :: rest =>
      match Switch.ofLetter? letter with
      | some s => .ok (ofLetter s rest)
      | none => .ok (unnamed t)
  | _ => .ok (plain t)

end Argument

/-! ## What the arguments ask for -/

structure Options where
  strict : Bool := false
  input : Option Text := none
  output : Option Text := none
deriving DecidableEq, Repr

inductive Request where
  | help
  | version
  | check (o : Options)
  | misuse (m : Misuse)
deriving DecidableEq, Repr

/-- A switch with its value.  Of several values the last one stays. -/
def Options.assign (o : Options) (s : Switch) (value : Text) : Options :=
  match s with
  | .input => { o with input := some value }
  | .output => { o with output := some value }
  | _ => o

/-- A switch without a value.  Help and version end the reading of the arguments. -/
def Options.act (o : Options) : Switch → Except Request Options
  | .help => .error .help
  | .version => .error .version
  | .strict => .ok { o with strict := true }
  | .input | .output => .ok o

namespace Request

/-- The switch at the end of joined letters that still needs a value, if it does.  A character that
is no letter of a switch makes itself and what follows an ignored value.  All letters are looked at
before the first of them acts, so one that is no switch is found even behind help or version. -/
def lacking (s : Switch) : Text → Except Misuse (Option Switch)
  | [] => .ok (if s.takesValue then some s else none)
  | c :: others =>
      if s.takesValue then .ok none
      else
        match Switch.ofLetter? c with
        | some next => lacking next others
        | none => .error (.ignoredValue s (c :: others))

/-- Acts on the arguments from left to right.  Joined letters are checked as a whole before the
first of them acts; only help and version can stand in front of other letters, and with them the
reading ends. -/
def collect (o : Options) (leftovers : List Text) :
    List Argument → Except Request (Options × List Text)
  | [] => .ok (o, leftovers)
  | .plain t :: more => collect o (leftovers ++ [t]) more
  | .unknown t :: more => collect o (leftovers ++ [t]) more
  | .assigned s value :: more =>
      if s.takesValue then collect (o.assign s value) leftovers more
      else .error (misuse (.ignoredValue s value))
  | .bare s :: more =>
      if s.takesValue then
        match more with
        | .plain value :: more => collect (o.assign s value) leftovers more
        | _ => .error (misuse (.expectedValue s))
      else do collect (← o.act s) leftovers more
  | .joined s others :: more => do
      match ← (lacking s others).mapError misuse, more with
      | none, _ | some _, .plain _ :: _ => collect (← o.act s) leftovers more
      | some last, _ => .error (misuse (.expectedValue last))

/-- After a lone double hyphen all arguments are leftovers, and so is the double hyphen. -/
def ofArguments (arguments : List Text) : Request :=
  let (options, others) := arguments.span (· != "--".toList)
  let result := do
    let classified ← (options.mapM Argument.ofText).mapError misuse
    collect {} [] classified
  match result with
  | .error r => r
  | .ok (o, leftovers) =>
      match leftovers ++ others with
      | [] => check o
      | unread => misuse (.unrecognized unread)

example : ofArguments ["-vx".toList] = misuse (.ignoredValue .version ['x']) := by decide +kernel

end Request

end Acceptor
