/-
MapStore.Text.Split — a text cut at a separator.

`split` cuts at every separator, so there is always one part more than there
are separators and parts may be empty; `joinParts` puts the parts together
again and is its inverse.
-/
namespace MapStore.Text

/-- The parts of the characters between separators. -/
def split (separator : Char) : List Char → List (List Char)
  | [] => [[]]
  | c :: rest =>
    if c = separator then [] :: split separator rest
    else match split separator rest with
      | [] => [[c]]
      | part :: parts => (c :: part) :: parts

/-- The parts with a separator between each and the next. -/
def joinParts (separator : Char) : List (List Char) → List Char
  | [] => []
  | [part] => part
  | part :: parts => part ++ separator :: joinParts separator parts

end MapStore.Text
