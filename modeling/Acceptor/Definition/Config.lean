import Acceptor.Text.Basic

/-!
# Configuration

What a caller may choose: whether definitions are strict, which line ends a definition inside
a stream, how acceptance and rejection are written, and the encoding of files.
-/

namespace Acceptor

structure Config where
  strict : Bool := false
  terminator : Text := "---".toList
  acceptLabel : Text := "ACEITA".toList
  rejectLabel : Text := "REJEITA".toList
  encoding : Text := "utf-8".toList
deriving DecidableEq, Repr

/-- The output line of a word that is accepted or not. -/
def Config.label (config : Config) (accepted : Bool) : Text :=
  if accepted then config.acceptLabel else config.rejectLabel

example : ({} : Config).label false = "REJEITA".toList := rfl

end Acceptor
