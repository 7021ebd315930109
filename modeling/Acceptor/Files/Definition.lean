import Acceptor.Definition.Parser
import Acceptor.Files.System
import Acceptor.Text.Decoding
import Acceptor.Text.Lines

/-!
# Definition files

A file may hold a definition and nothing else.  It is decoded as a whole, so a byte that cannot
be decoded is reported by its place in the file.
-/

namespace Acceptor

inductive LoadError where
  | file (e : FileError)
  | unknownEncoding (name : Text)
  | undecodable (e : DecodeError)
  | definition (e : DefinitionError)
deriving DecidableEq, Repr

/-- The automaton that a file describes.  A file that cannot be opened counts before an encoding
that is not known. -/
def Definition.load (config : Config) (fs : FileSystem) (path : Text) :
    Except LoadError Automaton := do
  let l ← (fs.openToRead path).mapError .file
  match Encoding.ofName? config.encoding with
  | none => .error (.unknownEncoding config.encoding)
  | some encoding =>
      let text ← (encoding.decode (fs.contentAt l)).mapError .undecodable
      (Definition.parse config (Text.normalizeEnds text)).mapError .definition

def LoadError.message (path : Text) : LoadError → Text
  | file e => e.message path
  | unknownEncoding name => "unknown encoding: ".toList ++ name
  | undecodable e => e.message
  | definition e => e.message

end Acceptor
