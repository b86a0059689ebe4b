import Hostcall.Text.Printable

/-!
# Quoted text

How a message shows a text it was given: between double quotes, with the quote,
the backslash, tab, line feed, carriage return and NUL escaped by a backslash, and
every other character that is unprintable or extends its neighbour written as its
code point in hexadecimal.

* `Quoted.escape` gives the characters one character becomes;
* `quoted` is the whole text.
-/

namespace Hostcall

namespace Quoted

/-- The code point of a character in lower-case hexadecimal, in braces. -/
def codePoint (c : Char) : List Char :=
  ['\\', 'u', '\x7b'] ++ Nat.toDigits 16 c.toNat ++ ['\x7d']

/-- What one character becomes inside the quotes. -/
def escape (c : Char) : List Char :=
  if c = '\x00' then ['\\', '0']
  else if c = '\t' then ['\\', 't']
  else if c = '\r' then ['\\', 'r']
  else if c = '\n' then ['\\', 'n']
  else if c = '\\' then ['\\', '\\']
  else if c = '"' then ['\\', '"']
  else if isGraphemeExtend c || !isPrintable c then codePoint c
  else [c]

end Quoted

/-- A text between double quotes. -/
def quoted (s : String) : String :=
  String.ofList ('"' :: s.toList.flatMap Quoted.escape ++ ['"'])

end Hostcall
