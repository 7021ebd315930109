import Acceptor.Text.Printable

/-!
# Quoted texts

Messages show names in quotes: apostrophes, or double quotes when the text holds an apostrophe and
no double quote.  The quote in use and the backslash are written after a backslash, and a character
that is not printable is written by its code.
-/

namespace Acceptor.Text

def apostrophe : Char := '\x27'

def doubleQuote : Char := '\x22'

def backslash : Char := '\x5c'

/-! ## Characters by their codes -/

/-- The lowercase hexadecimal digits of a number, filled up with zeros on the left. -/
def hex (width n : Nat) : Text := (Nat.toDigits 16 n).leftpad width '0'

/-- The shortest of the three forms that the code point fits into. -/
def byCode (n : Nat) : Text :=
  if n ≤ 0xff then backslash :: 'x' :: hex 2 n
  else if n ≤ 0xffff then backslash :: 'u' :: hex 4 n
  else backslash :: 'U' :: hex 8 n

/-! ## Quoting -/

/-- A character as it stands between two given quotes. -/
def quoteChar (mark c : Char) : Text :=
  if c = mark ∨ c = backslash then [backslash, c]
  else if c = '\t' then [backslash, 't']
  else if c = '\n' then [backslash, 'n']
  else if c = '\r' then [backslash, 'r']
  else if isPrintable c then [c]
  else byCode c.toNat

def quoteMark (t : Text) : Char :=
  if apostrophe ∈ t ∧ doubleQuote ∉ t then doubleQuote else apostrophe

def quoted (t : Text) : Text :=
  quoteMark t :: t.flatMap (quoteChar (quoteMark t)) ++ [quoteMark t]

example : quoted "it's".toList = "\"it's\"".toList := by decide +kernel
example : quoted "a\u2028\x00\\'\"".toList = "'a\\u2028\\x00\\\\\\'\"'".toList := by decide +kernel

end Acceptor.Text
