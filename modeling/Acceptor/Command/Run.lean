import Acceptor.Command.Help
import Acceptor.Command.Options
import Acceptor.Files.Writer
import Acceptor.Stream.Check

/-!
# Running the command

A run reads a definition and words from a file or from standard input and writes the labels to
a file or to standard output.  The input is opened first, then the output, which empties it, and
only then is anything read: a run whose output is its own input finds nothing to read.  A failure
is one line on standard error and an exit status; labels that were written before it stay.  An
output file without room may fail once more when it is closed, and that failure breaks the run off.
-/

namespace Acceptor.Command

inductive Status where
  | success
  | usage
  | badData
  | noInput
  | cannotCreate
  | ioFailure
deriving DecidableEq, Repr

/-- The exit code of a status, by the convention for system programs. -/
def Status.code : Status → Nat
  | success => 0
  | usage => 2
  | badData => 65
  | noInput => 66
  | cannotCreate => 73
  | ioFailure => 74

/-- How a run ends.  A path with a null character is no path at all, and a run that is given one
breaks off without a status.  So does a run that cannot close its output file. -/
inductive Ending where
  | exit (s : Status)
  | nullInPath
  | unclosed
deriving DecidableEq, Repr

structure Outcome where
  ending : Ending
  stdout : Text
  stderr : Text
  files : FileSystem
deriving DecidableEq

/-- The surroundings of a run: the files, the bytes on standard input in the reads in which they
come, and how many labels standard output takes if it does not take any number. -/
structure Surroundings where
  files : FileSystem
  stdin : List Bytes := []
  room : Option Nat := none

/-- The reads of a file or of standard input. -/
def Surroundings.reads (around : Surroundings) : Option Location → List Bytes
  | none => around.stdin
  | some l => Source.readsOf (around.files.contentAt l)

/-! ## Failures -/

inductive Failure where
  | inputMissing (path : Text)
  | inputUnreadable (path : Text) (e : FileError)
  | outputUncreatable (path : Text)
  | stream (e : StreamError)
deriving DecidableEq, Repr

def Failure.status : Failure → Status
  | inputMissing _ => .noInput
  | inputUnreadable _ _ => .ioFailure
  | outputUncreatable _ => .cannotCreate
  | stream (.refused _) => .badData
  | stream (.undecodable _) => .badData
  | stream .outputFull => .ioFailure

/-- What is said of an output that has no room for what is to be written. -/
def noSpace : Text := "[Errno 28] No space left on device".toList

def Failure.message : Failure → Text
  | inputMissing path => "Input file not found: ".toList ++ path
  | inputUnreadable path e =>
      "Cannot read input file ".toList ++ path ++ ": ".toList ++ e.message path
  | outputUncreatable path => "Cannot create output file: ".toList ++ path
  | stream (.refused (.definition e)) => "Invalid automaton definition: ".toList ++ e.message
  | stream (.refused (.word u)) => "Cannot evaluate word: ".toList ++ u.message
  | stream (.undecodable e) => "Input is not valid utf-8 text: ".toList ++ e.message
  | stream .outputFull => "I/O error: ".toList ++ noSpace

/-- The line that a message is on standard error. -/
def errorLine (message : Text) : Text := name ++ ": ".toList ++ message ++ ['\n']

/-! ## Input and output -/

inductive Stop where
  | failure (f : Failure)
  | nullInPath
deriving DecidableEq, Repr

/-- The file to read from, and none for standard input. -/
def openInput (fs : FileSystem) : Option Text → Except Stop (Option Location)
  | none => .ok none
  | some path =>
      match fs.openToRead path with
      | .ok l => .ok (some l)
      | .error .notFound => .error (.failure (.inputMissing path))
      | .error .nullInPath => .error .nullInPath
      | .error e => .error (.failure (.inputUnreadable path e))

/-- The file to write to, and none for standard output, with the files after it is opened. -/
def openOutput (fs : FileSystem) : Option Text → Except Stop (Option Location × FileSystem)
  | none => .ok (none, fs)
  | some path =>
      match fs.openToWrite path with
      | .ok (l, fs) => .ok (some l, fs)
      | .error .nullInPath => .error .nullInPath
      | .error _ => .error (.failure (.outputUncreatable path))

/-! ## Output files -/

/-- What has come of a check whose labels go to a file: its outcome, the bytes that the file has
taken, and whether it could be closed. -/
structure Saved where
  outcome : Except StreamError Nat
  written : Bytes
  closed : Bool

/-- Whatever has come before, the file is closed. -/
def Saved.closing (m : Medium) (w : Writer) (outcome : Except StreamError Nat) : Saved :=
  let last := w.close m
  ⟨outcome, (Writer.after last).written, last.isOk⟩

/-- The labels of a check are written one by one as they are found, so a write that fails ends the
check there and what would have come after it is not found out.  Only a check that has come to
its end is flushed. -/
def save (m : Medium) (r : StreamRun) : Saved :=
  match ({} : Writer).writeAll m (r.labels.map (· ++ ['\n'])) with
  | .error w => .closing m w (.error .outputFull)
  | .ok w =>
      match r.outcome with
      | .error e => .closing m w (.error e)
      | .ok words =>
          match w.flush m with
          | .error w => .closing m w (.error .outputFull)
          | .ok w => .closing m w (.ok words)

/-! ## Checking -/

/-- The end of a run that opens nothing for writing, or nothing at all. -/
def stopped (fs : FileSystem) : Stop → Outcome
  | .failure f => ⟨.exit f.status, [], errorLine f.message, fs⟩
  | .nullInPath => ⟨.nullInPath, [], [], fs⟩

/-- The status that a check with the given outcome asks for. -/
def statusOf : Except StreamError Nat → Status
  | .ok _ => .success
  | .error e => (Failure.stream e).status

/-- What is said of a check with the given outcome. -/
def reportOf : Except StreamError Nat → Text
  | .ok _ => []
  | .error e => errorLine (Failure.stream e).message

/-- The end of a check of a stream, whose output goes to a file or to standard output. -/
def finished (fs : FileSystem) (destination : Option Location) (r : StreamRun) : Outcome :=
  match destination with
  | none => ⟨.exit (statusOf r.outcome), r.output, reportOf r.outcome, fs⟩
  | some l =>
      let saved := save (fs.mediumAt l) r
      let ending := if saved.closed then .exit (statusOf saved.outcome) else .unclosed
      ⟨ending, [], reportOf saved.outcome, fs.fill l saved.written⟩

def check (around : Surroundings) (o : Options) : Outcome :=
  match openInput around.files o.input with
  | .error stop => stopped around.files stop
  | .ok source =>
      match openOutput around.files o.output with
      | .error stop => stopped around.files stop
      | .ok (destination, files) =>
          let delivered := Source.ofReads ({ around with files }.reads source)
          let room := if destination.isNone then around.room else none
          finished files destination (checkStream { strict := o.strict } delivered room)

/-! ## Runs -/

/-- What is printed without a check.  An output that is full from the start takes none of it. -/
def printed (around : Surroundings) (t : Text) : Outcome :=
  ⟨.exit .success, if hasRoom around.room then t else [], [], around.files⟩

def run (around : Surroundings) (arguments : List Text) : Outcome :=
  match Request.ofArguments arguments with
  | .help => printed around help
  | .version => printed around version
  | .misuse m =>
      ⟨.exit .usage, [], usage ++ name ++ ": error: ".toList ++ m.message ++ ['\n'], around.files⟩
  | .check o => check around o

end Acceptor.Command
