/-
MapStore.Artifact — the names of the files that maps are kept in.

A map called `orders` with the id 5 is kept in the artifact `orders-5.db`.
Reading a file name goes the other way: a name that ends in `.tmp` is that of
a file half written; otherwise, after one `.db` at the end, the part before
the last hyphen is the map's name and the part after it the id. A name without
a hyphen, or with nothing before it, is no artifact's; an id that is no number
of 32 bits makes the artifact malformed.

A map name is valid if it can be told from its artifact's name on any file
system: it is not empty, has no hyphen and no slash of either kind, and does
not start with a dot.
-/
import MapStore.Error

namespace MapStore

/-- The number of a map, unique in its engine's directory. -/
abbrev MapId := UInt32

namespace Artifact

/-- Between a map's name and its id. -/
def separator : Char := '-'

/-- At the end of an artifact's name. -/
def extension : String := ".db"

/-- At the end of the name of a file half written. -/
def temporary : String := ".tmp"

/-- The name of the file that the map is kept in. -/
def fileName (name : String) (id : MapId) : String :=
  name ++ String.ofList [separator] ++ toString id.toNat ++ extension

/-! ## Reading file names -/

/-- The characters without `ending`, if they end so. -/
def dropEnding (ending text : List Char) : Option (List Char) :=
  if ending.isSuffixOf text then some (text.take (text.length - ending.length)) else none

/-- What stands before and after the last `c`. -/
def splitLast (c : Char) : List Char → Option (List Char × List Char)
  | [] => none
  | x :: rest =>
    match splitLast c rest with
    | some (before, after) => some (x :: before, after)
    | none => if x = c then some ([], rest) else none

/-- The map name and id that a file name gives, none for a file that is no
artifact, an error for a malformed id. -/
def parse (file : String) : Except StoreError (Option (String × MapId)) :=
  if (dropEnding temporary.toList file.toList).isSome then .ok none
  else
    let stem := (dropEnding extension.toList file.toList).getD file.toList
    match splitLast separator stem with
    | none => .ok none
    | some ([], _) => .ok none
    | some (name, digits) =>
      match Text.Numeral.parseNat Text.Numeral.maxU32 (String.ofList digits) with
      | .ok n => .ok (some (String.ofList name, UInt32.ofNat n))
      | .error cause => .error (.invalidMapId file cause)

/-! ## Map names -/

/-- Whether a map may have this name. -/
def isValidName (name : String) : Bool :=
  match name.toList with
  | [] => false
  | first :: rest =>
    first != '.' && (first :: rest).all fun c => c != separator && c != '/' && c != '\\'

/-- Refuses a name that no map may have. -/
def checkName (name : String) : Except StoreError Unit :=
  if isValidName name then .ok () else .error (.invalidMapName name)

end Artifact

end MapStore
