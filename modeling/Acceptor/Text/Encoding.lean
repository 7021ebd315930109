import Acceptor.Text.Quoted

/-!
# Encodings

Three encodings of texts as bytes, the names they go by, and what is said of bytes that none of
them can read.
-/

namespace Acceptor

abbrev Bytes := List UInt8

inductive Encoding where
  | utf8
  | latin1
  | ascii
deriving DecidableEq, Repr

namespace Encoding

/-- The spellings of an encoding's name, in lower case and with a hyphen for any punctuation. -/
def spellings : Encoding → List Text
  | utf8 => ["utf-8".toList, "utf8".toList]
  | latin1 => ["latin-1".toList, "latin1".toList, "iso-8859-1".toList, "iso8859-1".toList]
  | ascii => ["ascii".toList, "us-ascii".toList]

/-- Case and the choice of punctuation do not matter in an encoding's name. -/
def canonical (name : Text) : Text := name.map fun c ↦ if c.isAlphanum then c.toLower else '-'

def ofName? (name : Text) : Option Encoding :=
  [utf8, latin1, ascii].find? fun e ↦ e.spellings.contains (canonical name)

/-- The name that messages use. -/
def name : Encoding → Text
  | utf8 => "utf-8".toList
  | latin1 => "latin-1".toList
  | ascii => "ascii".toList

end Encoding

/-! ## Errors -/

inductive BadBytes where
  | notAscii
  | startByte
  | continuationByte
  | endOfData
deriving DecidableEq, Repr

def BadBytes.reason : BadBytes → Text
  | notAscii => "ordinal not in range(128)".toList
  | startByte => "invalid start byte".toList
  | continuationByte => "invalid continuation byte".toList
  | endOfData => "unexpected end of data".toList

/-- A range of bytes that cannot be read, with its first byte. -/
structure DecodeError where
  encoding : Encoding
  first : UInt8
  start : Nat
  width : Nat
  cause : BadBytes
deriving DecidableEq, Repr

def DecodeError.message (e : DecodeError) : Text :=
  "'".toList ++ e.encoding.name ++ "' codec can't decode ".toList ++
    (if e.width = 1 then
      "byte 0x".toList ++ Text.hex 2 e.first.toNat ++ " in position ".toList ++ Text.ofNat e.start
    else
      "bytes in position ".toList ++ Text.ofNat e.start ++ "-".toList ++
        Text.ofNat (e.start + e.width - 1)) ++
    ": ".toList ++ e.cause.reason

end Acceptor
