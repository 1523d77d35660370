/-
MapStore.Text.Blank — blank characters and trimming.

A character is blank if it has the property White_Space: the ASCII blanks
(tab to carriage return, and space), next line, no-break space and the
separators of the scripts. `trim` removes blanks from both ends of a text.
-/
namespace MapStore.Text

/-- The code points with the property White_Space. -/
def blankCodes : List Nat :=
  [0x09, 0x0A, 0x0B, 0x0C, 0x0D, 0x20, 0x85, 0xA0, 0x1680,
   0x2000, 0x2001, 0x2002, 0x2003, 0x2004, 0x2005, 0x2006, 0x2007, 0x2008, 0x2009, 0x200A,
   0x2028, 0x2029, 0x202F, 0x205F, 0x3000]

/-- Whether the character has the property White_Space. -/
def isBlank (c : Char) : Bool := blankCodes.contains c.toNat

/-- The text without the blanks at its two ends. -/
def trim (text : String) : String :=
  String.ofList ((text.toList.dropWhile isBlank).reverse.dropWhile isBlank).reverse

/-- The text with each ASCII capital made small; other characters stay. -/
def asciiLower (text : String) : String := text.map Char.toLower

end MapStore.Text
