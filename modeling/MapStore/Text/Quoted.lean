/-
MapStore.Text.Quoted — text between quotation marks, as messages show it.

The quotation mark and the backslash are preceded by a backslash; tab, line
feed, carriage return and NUL have a letter of their own; a hidden character
(`MapStore.Text.Hidden`) is shown by its code point in hexadecimal, without
leading zeros, between braces. Every other character stands for itself.
-/
import MapStore.Text.Hidden
import MapStore.Bytes

namespace MapStore.Text

/-- The small hexadecimal digits of a number, without leading zeros. -/
def hexDigits (n : Nat) : List Char := (Nat.toDigits 16 n)

/-- How a character is shown between quotation marks. -/
def quoteChar (c : Char) : List Char :=
  if c = '"' then ['\\', '"']
  else if c = '\\' then ['\\', '\\']
  else if c = '\n' then ['\\', 'n']
  else if c = '\r' then ['\\', 'r']
  else if c = '\t' then ['\\', 't']
  else if c.toNat = 0 then ['\\', '0']
  else if isHidden c then ['\\', 'u', '\x7b'] ++ hexDigits c.toNat ++ ['\x7d']
  else [c]

/-- The text between quotation marks. -/
def quote (text : String) : String :=
  String.ofList (['"'] ++ text.toList.flatMap quoteChar ++ ['"'])

end MapStore.Text
