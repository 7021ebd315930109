import Acceptor.Command.Run

/-!
# The program

The program looks up what stands at the paths it is given, runs the command on that, and makes the
changes that the run asks for.
-/

namespace Acceptor

def locationOf (path : Text) : Location := (path.splitOn '/').filter (!·.isEmpty)

/-- A file as far as it can be read. -/
def readFile (path : String) : IO File := do
  try return { content := (← IO.FS.readBinFile path).toList }
  catch _ => return { readable := false }

/-- What stands at a path, and where it is when all links are followed, if it can be looked at.  A
device is read only when it is the input. -/
def lookUp (isInput : Bool) (path : Text) : IO (Option (Location × Node)) := do
  let place := (← IO.currentDir) / String.ofList path
  try
    let l := locationOf (← IO.FS.realPath place).toString.toList
    match (← place.metadata).type with
    | .dir => return some (l, .directory {})
    | .file => return some (l, .file (← readFile place.toString))
    | _ =>
        let f ← if isInput then readFile place.toString else pure {}
        return some (l, .file f)
  catch _ => return none

/-- The file system with everything that stands on the way of a path.  What is somewhere else when
all links are followed has another name on this way. -/
def survey (isInput : Bool) (fs : FileSystem) (path : Text) : IO FileSystem := do
  let names := path.splitOn '/'
  let mut fs := fs
  for n in [1 : names.length + 1] do
    let part := ['/'].intercalate (names.take n)
    if let .ok l := fs.locate part then
      if let some (k, found) := ← lookUp isInput part then
        unless l = k do fs := (fs.makeDirectories k.dropLast).put l (.alias k)
        fs := fs.put k found
  return fs

/-- The reads in which a stream comes, before some that are known. -/
partial def readAll (input : IO.FS.Stream) (reads : Array Bytes) : IO (List Bytes) := do
  let more ← input.read (USize.ofNat Source.readSize)
  if more.isEmpty then return reads.toList else readAll input (reads.push more.toList)

def surroundings (o : Options) : IO Command.Surroundings := do
  let here := locationOf (← IO.currentDir).toString.toList
  let files ← o.input.toList.foldlM (survey true) (.fresh here)
  let files ← o.output.toList.foldlM (survey false) files
  let stdin ← if o.input.isNone then readAll (← IO.getStdin) #[] else pure []
  return { files, stdin }

/-- Makes the changes of a run and says what it says. -/
def perform (before : FileSystem) (outcome : Command.Outcome) : IO UInt32 := do
  for (l, content) in before.changes outcome.files do
    IO.FS.writeBinFile (String.ofList ('/' :: ['/'].intercalate l)) ⟨content.toArray⟩
  (← IO.getStdout).putStr (String.ofList outcome.stdout)
  (← IO.getStderr).putStr (String.ofList outcome.stderr)
  match outcome.ending with
  | .exit status => return UInt32.ofNat status.code
  | .nullInPath | .unclosed => return 1

end Acceptor

def main (arguments : List String) : IO UInt32 := do
  let arguments := arguments.map String.toList
  let around ← match Acceptor.Request.ofArguments arguments with
    | .check o => Acceptor.surroundings o
    | _ => Acceptor.surroundings { input := some [] }
  Acceptor.perform around.files (Acceptor.Command.run around arguments)
