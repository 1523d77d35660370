/-
MapStore.PlainMap — a sorted map with its data types.

A plain map has a name and an id, a data type for its keys and one for its
values, and a sorted table of entries. It can be closed, and is refused to
everyone from then on. Only a value that is put is checked against the data
types; a key that is asked for or removed may be any byte string.

Alone a plain map is the in-memory map: it keeps nothing, so there is nothing
to save, and closing it gives up its entries.
-/
import MapStore.DataType
import MapStore.SortedTable
import MapStore.WriteBuffer
import MapStore.Artifact

namespace MapStore

/-- A sorted map in memory. -/
structure PlainMap where
  name : String
  id : MapId
  keyType : DataType
  valueType : DataType
  table : SortedTable Bytes Bytes
  closed : Bool

namespace PlainMap

/-- An open map without entries. -/
def empty (name : String) (id : MapId) (keyType valueType : DataType) : PlainMap :=
  { name, id, keyType, valueType, table := .empty keyType.compare, closed := false }

/-- Refuses a map that is closed. -/
def checkOpen (m : PlainMap) : Except StoreError Unit :=
  if m.closed then .error (.mapClosed m.name) else .ok ()

/-- The value of `key`. -/
def get (m : PlainMap) (key : Bytes) : Except StoreError (Option Bytes) := do
  m.checkOpen
  return m.table.get? key

/-- Refuses a change that the data types do not admit. -/
def checkChange (keyType valueType : DataType) (key : Bytes) :
    Change → Except StoreError Unit
  | .value bytes => do
    keyType.checkKey key
    valueType.checkValue bytes
  | .tombstone => .ok ()

/-- The table after a change to `key`, and the value the key had. -/
def change (table : SortedTable Bytes Bytes) (key : Bytes) :
    Change → Option Bytes × SortedTable Bytes Bytes
  | .value bytes => table.insert key bytes
  | .tombstone => table.erase key

/-- Makes a change to `key`; answers the value the key had. -/
def write (m : PlainMap) (key : Bytes) (c : Change) :
    Except StoreError (Option Bytes × PlainMap) := do
  m.checkOpen
  checkChange m.keyType m.valueType key c
  let (previous, table) := change m.table key c
  return (previous, { m with table })

/-- The number of entries. -/
def size (m : PlainMap) : Except StoreError Nat := do
  m.checkOpen
  return m.table.size

/-- The entries in key order. -/
def entries (m : PlainMap) : Except StoreError (List (Bytes × Bytes)) := do
  m.checkOpen
  return m.table.toList

/-- Closes the map and gives up its entries. -/
def close (m : PlainMap) : PlainMap :=
  if m.closed then m else { m with closed := true, table := m.table.clear }

end PlainMap

end MapStore
