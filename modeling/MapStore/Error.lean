/-
MapStore.Error — how an operation of the store can fail.

`StoreError` is a refusal: an answer that tells the caller why nothing was
done. `Fault` is the way an operation ends early: with a refusal, or with a
panic, that is by code behind the store (a data type, an access meter, a
backing map of the caller's own) giving up in mid-operation. What a panic
left undone stays undone, and whoever runs the operation may contain it.
`message` gives each in words; names in a message are quoted.
-/
import MapStore.Text.Quoted
import MapStore.Text.Numeral

namespace MapStore

open Text (quote)

/-- Why the system behind the store failed. -/
inductive IoFailure where
  /-- The file system refused. -/
  | system
  /-- A failure that comes with its own description. -/
  | described (text : String)
  deriving DecidableEq, Repr

/-- Why an operation was refused. -/
inductive StoreError where
  /-- The file system, or a backing, could not do its part. -/
  | io (failure : IoFailure)
  /-- Bytes that passed their checksum are not the value they should encode. -/
  | serialization (reason : String)
  /-- A map file is damaged, or is another map's. -/
  | corruption (reason : String)
  /-- A map name that could not be told from its artifact's name. -/
  | invalidMapName (name : String)
  /-- An artifact whose id is no number. -/
  | invalidMapId (artifact : String) (cause : Text.Numeral.Error)
  /-- The name is open as another type of map. -/
  | mapKindMismatch (name expected : String)
  | mapClosed (name : String)
  | engineClosed
  /-- The data type `typeName` does not admit the key. -/
  | invalidKey (typeName reason : String)
  /-- The data type `typeName` does not admit the value. -/
  | invalidValue (typeName reason : String)
  /-- The backing of the map refused a write of the merge. -/
  | mergeFailed (map reason : String)
  | mergePanicked (reason : String)
  | poolShutdown
  | config (reason : String)
  deriving DecidableEq, Repr

namespace StoreError

/-- The error in words. -/
def message : StoreError → String
  | io .system => "IO error: operating system error"
  | io (.described text) => "IO error: " ++ text
  | serialization reason => "Serialization error: " ++ reason
  | corruption reason => "Map file corruption detected: " ++ reason
  | invalidMapName name => "Invalid map name: " ++ quote name
  | invalidMapId artifact cause =>
    "Malformed map id in artifact " ++ quote artifact ++ ": " ++ cause.message
  | mapKindMismatch name expected =>
    "Map " ++ quote name ++ " is already open with a different type than " ++ expected
  | mapClosed name => "Map " ++ quote name ++ " is closed"
  | engineClosed => "Engine is closed"
  | invalidKey typeName reason => "Invalid key for " ++ typeName ++ ": " ++ reason
  | invalidValue typeName reason => "Invalid value for " ++ typeName ++ ": " ++ reason
  | mergeFailed map reason => "Merge failed for " ++ quote map ++ ": " ++ reason
  | mergePanicked reason => "Merge task panicked: " ++ reason
  | poolShutdown => "Merge pool is shut down"
  | config reason => "Configuration error: " ++ reason

end StoreError

/-- How an operation ends early. -/
inductive Fault where
  /-- It was refused. -/
  | error (cause : StoreError)
  /-- It panicked, with a message if the panic carries one. -/
  | panic (message : Option String)
  deriving DecidableEq, Repr

/-- What is shown of a panic. -/
def Fault.panicText (message : Option String) : String := message.getD "unknown panic"

end MapStore
