/-
MapStore.MapKind — the kinds of map an engine opens.

A caller names a kind by a tag. Tags are compared without their surrounding
blanks and in small letters; a kind has several, and a tag that names none, or
no tag at all, means an adaptive map.
-/
import MapStore.Text.Blank

namespace MapStore

/-- The kinds of map. -/
inductive MapKind where
  /-- Writes direct or buffered, as the map is used. -/
  | adaptive
  /-- Writes straight into its entries and is kept in a file. -/
  | direct
  /-- Writes into a buffer over a direct map. -/
  | buffered
  /-- Lives in memory only. -/
  | inMemory
  deriving DecidableEq, Repr

namespace MapKind

/-- The kind's own tag. -/
def tag : MapKind → String
  | adaptive => "adaptive"
  | direct => "direct"
  | buffered => "buffered"
  | inMemory => "inmemory"

/-- The kind that a tag names. -/
def ofTag : Option String → MapKind
  | none => adaptive
  | some text =>
    match Text.asciiLower (Text.trim text) with
    | "direct" | "btree" | "btreemap" => direct
    | "buffered" | "bufferedmap" => buffered
    | "inmemory" | "memory" | "memorymap" => inMemory
    | _ => adaptive

end MapKind

end MapStore
