/-
MapStore.DataType — what the keys and values of a map may be.

A map is opened with one data type for its keys and one for its values. Keys
and values are stored as encoded bytes; the data type says which byte strings
are encodings at all (`validate`) and in which order keys stand (`compare`).
The order also says which keys are the same key: those that compare equal,
which may differ in their bytes. It is applied to every byte string a caller
asks for, admitted or not.

Here are the byte strings (`bytes`) and the texts (`string`), both in the
lexicographic order of their bytes, for texts also the order of code points;
`MapStore.DataType.Long` adds the whole numbers.
-/
import MapStore.Error
import MapStore.Bytes
import MapStore.Text.Utf8

namespace MapStore

/-- The encodings of a type and their order. -/
structure DataType where
  /-- The type's name in messages. -/
  name : String
  /-- The order of two byte strings as keys. -/
  compare : Bytes → Bytes → Ordering
  /-- Refuses a byte string that encodes nothing, with the reason. -/
  validate : Bytes → Except String Unit

namespace DataType

/-- Any byte string, in lexicographic order. -/
def bytes : DataType where
  name := "bytes"
  compare := Bytes.compare
  validate _ := .ok ()

/-- UTF-8 text, in the lexicographic order of its bytes. -/
def string : DataType where
  name := "string"
  compare := Bytes.compare
  validate text :=
    match Text.Utf8.decode? text with
    | .ok _ => .ok ()
    | .error fault => .error fault.message

/-- Refuses a key that the type does not admit. -/
def checkKey (type : DataType) (key : Bytes) : Except StoreError Unit :=
  (type.validate key).mapError (.invalidKey type.name)

/-- Refuses a value that the type does not admit. -/
def checkValue (type : DataType) (value : Bytes) : Except StoreError Unit :=
  (type.validate value).mapError (.invalidValue type.name)

end DataType

end MapStore
