/-
MapStore.DataType.Long — signed 64-bit numbers as keys and values.

A number is encoded in eight bytes, most significant first, in two's
complement. The empty byte string is admitted too: it stands for "no value"
and comes before every number. The order looks at the sign, which sits in the
first byte, and then at the bytes without a sign, so on encodings it is the
order of the numbers; it is defined on all byte strings.
-/
import MapStore.DataType

namespace MapStore.DataType.Long

/-- The width of an encoded number. -/
def width : Nat := 8

/-- The eight bytes of a number. -/
def encode (n : Int64) : Bytes := Bytes.ofNatBE width n.toUInt64.toNat

/-- The number that eight bytes encode; no other byte string encodes one. -/
def decode? (bytes : Bytes) : Option Int64 :=
  if bytes.length = width then some (UInt64.ofNat (Bytes.toNatBE bytes)).toInt64 else none

/-- The largest number. -/
def max : Nat := 0x7fffffffffffffff

/-- The encoding of a decimal text; the empty text has the empty encoding. -/
def parse (text : String) : Except StoreError Bytes :=
  if text.isEmpty then .ok []
  else match Text.Numeral.parseInt max text with
    | .ok n => .ok (encode (Int64.ofInt n))
    | .error cause =>
      .error (.invalidValue "long" (Text.quote text ++ ": " ++ cause.message))

/-- The first byte as a signed number. -/
def sign (b : UInt8) : Int8 := b.toInt8

/-- Empty first, then by the sign in the first byte, then by the bytes. -/
def compare : Bytes → Bytes → Ordering
  | [], [] => .eq
  | [], _ :: _ => .lt
  | _ :: _, [] => .gt
  | a :: as, b :: bs => (Ord.compare (sign a) (sign b)).then (Bytes.compare (a :: as) (b :: bs))

/-- Admits the empty byte string and those of eight bytes. -/
def validate (bytes : Bytes) : Except String Unit :=
  if bytes.isEmpty || bytes.length == width then .ok ()
  else .error s!"expected {width} bytes, got {bytes.length}"

end MapStore.DataType.Long

namespace MapStore.DataType

/-- Signed 64-bit numbers in their order, and the empty "no value" first. -/
def long : DataType where
  name := "long"
  compare := Long.compare
  validate := Long.validate

end MapStore.DataType
