import GraphStore.Text.Digits
import GraphStore.Text.Extending
import GraphStore.Text.Invisible

/-!
# Escaped text

How a text is shown between double quotes in a message: quotes, backslashes and whatever has no
visible form of its own are escaped.
-/

namespace GraphStore
namespace Text

/-- The hexadecimal digits of a number, without leading zeros. -/
def shortHexDigits (value : Nat) : List Char :=
  Nat.toDigits 16 value

/-- Whether a code point cannot be recognised when it is shown as it is. -/
def isUnclear (code : Nat) : Bool :=
  isInvisible code || isIgnorable code || isExtending code

/-- One character as it is shown between quotes. -/
def showChar (c : Char) : List Char :=
  if c = '"' then ['\\', '"']
  else if c = '\\' then ['\\', '\\']
  else if c = '\n' then ['\\', 'n']
  else if c = '\r' then ['\\', 'r']
  else if c = '\t' then ['\\', 't']
  else if c = '\x00' then ['\\', '0']
  else if isUnclear c.toNat then
    ['\\', 'u', '\x7b'] ++ shortHexDigits c.toNat ++ ['\x7d']
  else [c]

/-- A text between quotes. -/
def showQuoted (text : String) : String :=
  String.ofList ('"' :: text.toList.flatMap showChar ++ ['"'])

end Text
end GraphStore
