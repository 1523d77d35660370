/-
MapStore.Disk — a file system held in memory.

A disk has files and directories at places; a place is the list of names on
the way from the root. A path is a text: its parts between slashes are steps
from the root. An empty part and `.` stay, `..` goes up, and any other part
goes to the entry of that name; each step starts from an existing directory.
A name of more than 255 bytes, a path of more than 4095 and a path with a NUL
in it are refused. An empty path leads nowhere.

The operations are those the store needs of a file system, and each of them
either succeeds or is refused, without saying why: what a caller learns is
that the system refused. `write` puts a whole file in one step, and `rename`
moves a file onto another.

There are no links, no permissions and no end of space, so nothing is refused
for them. A name is a text: names that are not UTF-8, which a store passes over
when it recovers ids, have no counterpart.
-/
import MapStore.Error
import MapStore.SortedTable
import MapStore.Bytes
import MapStore.Text.Split

namespace MapStore

/-- The names on the way from the root. -/
abbrev Place := List String

/-- What can be at a place. -/
inductive Node where
  | file (bytes : Bytes)
  | directory
  deriving DecidableEq, Repr

/-- The files and directories below the root. -/
structure Disk where
  nodes : SortedTable Place Node
  ordered : nodes.order = compare

namespace Disk

/-- The refusal of every operation that fails. -/
def refusal : StoreError := .io .system

/-- The disk with an empty root directory. -/
def empty : Disk := ⟨.empty compare, rfl⟩

/-- What is at a place; the root is always there. -/
def node? (d : Disk) (place : Place) : Option Node :=
  if place = [] then some .directory else d.nodes.get? place

/-- The disk with `node` at `place`. -/
def put (d : Disk) (place : Place) (node : Node) : Disk :=
  ⟨(d.nodes.insert place node).2, d.ordered⟩

/-- The disk with nothing at `place`. -/
def drop (d : Disk) (place : Place) : Disk := ⟨(d.nodes.erase place).2, d.ordered⟩

/-! ## Paths -/

/-- The steps of a path. -/
def steps (path : String) : List String :=
  (Text.split '/' path.toList).map String.ofList

/-- The longest name in bytes. -/
def maxName : Nat := 255

/-- The longest path in bytes. -/
def maxPath : Nat := 4095

/-- Whether the path can be walked at all. -/
def isPath (path : String) : Bool :=
  path != "" && path.utf8ByteSize ≤ maxPath && !path.toList.contains (Char.ofNat 0)

/-- The place that a step leads to from `here`, whatever is there. -/
def next? (here : Place) (step : String) : Option Place :=
  if step = "" ∨ step = "." then some here
  else if step = ".." then some here.dropLast
  else if step.utf8ByteSize ≤ maxName then some (here ++ [step])
  else none

/-- The place that a step leads to from the directory at `here`. -/
def step? (d : Disk) (here : Place) (step : String) : Option Place :=
  if d.node? here = some .directory then next? here step else none

/-- The place that a path leads to; there need not be anything. -/
def locate? (d : Disk) (path : String) : Option Place :=
  if isPath path then (steps path).foldlM d.step? [] else none

/-- A directory's path and a name in it; a name that starts with a slash is a
path of its own. -/
def join (directory name : String) : String :=
  if name.toList.head? = some '/' ∨ directory = "" then name
  else if directory.toList.getLast? = some '/' then directory ++ name
  else directory ++ "/" ++ name

/-! ## Looking -/

/-- What a path leads to. -/
def at? (d : Disk) (path : String) : Option Node := (d.locate? path).bind d.node?

/-- Whether there is something at the path. -/
def isPresent (d : Disk) (path : String) : Bool := (d.at? path).isSome

/-- The bytes of the file at the path. -/
def read (d : Disk) (path : String) : Except StoreError Bytes :=
  match d.at? path with
  | some (.file bytes) => .ok bytes
  | _ => .error refusal

/-- The last name of a place inside the directory `here`. -/
def nameIn? (here : Place) (place : Place) : Option String :=
  if place.dropLast = here then place.getLast? else none

/-- The names of what is in the directory at the path. -/
def list (d : Disk) (path : String) : Except StoreError (List String) :=
  match d.locate? path with
  | some here =>
    if d.node? here = some .directory then .ok (d.nodes.keys.filterMap (nameIn? here))
    else .error refusal
  | none => .error refusal

/-! ## Changing -/

/-- Makes the file at the path hold the bytes. -/
def write (d : Disk) (path : String) (bytes : Bytes) : Except StoreError Disk :=
  match d.locate? path with
  | some place =>
    if d.node? place = some .directory then .error refusal
    else .ok (d.put place (.file bytes))
  | none => .error refusal

/-- Moves the file at `source` onto `target`. -/
def rename (d : Disk) (source target : String) : Except StoreError Disk :=
  match d.locate? source, d.locate? target with
  | some old, some new =>
    match d.node? old, d.node? new with
    | some (.file bytes), none | some (.file bytes), some (.file _) =>
      .ok ((d.drop old).put new (.file bytes))
    | _, _ => .error refusal
  | _, _ => .error refusal

/-- The steps of a path that are not empty. -/
def properSteps (path : String) : List String := (steps path).filter (· != "")

/-- Makes the directories that the steps from `here` lead through. -/
def makeSteps (here : Place) : List String → Disk → Except StoreError Unit × Disk
  | [], d => (.ok (), d)
  | step :: rest, d =>
    match next? here step with
    | none => (.error refusal, d)
    | some place =>
      match d.node? place with
      | some .directory => makeSteps place rest d
      | some (.file _) => (.error refusal, d)
      | none => makeSteps place rest (d.put place .directory)

/-- Makes the directory that the steps of a path lead to, in one that exists. -/
def makeDirectory (d : Disk) (steps : List String) : Except StoreError Unit × Disk :=
  match steps.foldlM d.step? [] with
  | none => (.error refusal, d)
  | some place =>
    match d.node? place with
    | some .directory => (.ok (), d)
    | some (.file _) => (.error refusal, d)
    | none => (.ok (), d.put place .directory)

/-- Makes the directory at the path and those above it, as far as they are
missing. Those above it are found by leaving out its last step other than `.`,
so a path that ends in `.` leads to no new directory. The empty path needs
none. -/
def makeDirectories (d : Disk) (path : String) : Except StoreError Unit × Disk :=
  if path = "" then (.ok (), d)
  else if isPath path then
    match makeSteps [] ((properSteps path).filter (· != ".")).dropLast d with
    | (.ok (), d) => d.makeDirectory (properSteps path)
    | (.error cause, d) => (.error cause, d)
  else (.error refusal, d)

/-- Takes away the file at the path. -/
def removeFile (d : Disk) (path : String) : Except StoreError Disk :=
  match d.locate? path with
  | some place =>
    match d.node? place with
    | some (.file _) => .ok (d.drop place)
    | _ => .error refusal
  | none => .error refusal

/-- Takes away what is in the directory at `place`. -/
def emptyOut (d : Disk) (place : Place) : Disk :=
  let keeps (other : Place) : Bool := other = place || !place.isPrefixOf other
  ⟨d.nodes.filter fun other _ => keeps other, d.ordered⟩

/-- Takes away all that is in the directory at the path, and then what the path
leads to by then. That is the directory, which cannot be taken away as `.` or
`..`; but a path that passed through what it held leads nowhere any more, and
the directory stays. -/
def removeTree (d : Disk) (path : String) : Except StoreError Unit × Disk :=
  match d.locate? path with
  | some place =>
    if d.node? place = some .directory then
      let emptied := d.emptyOut place
      if (emptied.locate? path).isNone then (.ok (), emptied)
      else
        match (properSteps path).getLast? with
        | none | some "." | some ".." => (.error refusal, emptied)
        | some _ => (.ok (), emptied.drop place)
    else (.error refusal, d)
  | none => (.error refusal, d)

/-! ## Listing -/

/-- A place and what is there, as text: directories end in a slash. -/
def listingEntry (entry : Place × Node) : String × Nat :=
  let path := "/".intercalate entry.1
  match entry.2 with
  | .file bytes => (path, bytes.length)
  | .directory => (path ++ "/", 0)

/-- Everything below the directory at `here` with its size in bytes, sorted by
path. -/
def listing (d : Disk) (here : Place) : List (String × Nat) :=
  let below := d.nodes.toList.filter fun e => here.isPrefixOf e.1 && e.1 != here
  (below.map fun e => listingEntry (e.1.drop here.length, e.2)).mergeSort fun a b => a.1 ≤ b.1

end Disk

end MapStore
