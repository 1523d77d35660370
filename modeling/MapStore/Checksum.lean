/-
MapStore.Checksum — the CRC-32 of a byte string.

The remainder of the bytes, read with their least significant bit first, by
the polynomial of IEEE 802.3. The remainder starts at all ones and is
complemented at the end. A byte is taken in by adding it to the low end and
shifting eight times; a shift is linear in exclusive or, which is what makes
short bursts of damage detectable.
-/
import MapStore.Bytes

namespace MapStore.Checksum

/-- The polynomial, its coefficients in reverse order. -/
def polynomial : BitVec 32 := 0xEDB88320#32

/-- The remainder moved on by one bit. -/
def shift (c : BitVec 32) : BitVec 32 :=
  if c.getLsbD 0 then (c >>> 1) ^^^ polynomial else c >>> 1

/-- The remainder moved on by `n` bits. -/
def shifts : Nat → BitVec 32 → BitVec 32
  | 0, c => c
  | n + 1, c => shifts n (shift c)

/-- The remainder with one more byte taken in. -/
def step (c : BitVec 32) (b : UInt8) : BitVec 32 :=
  shifts 8 (c ^^^ b.toBitVec.setWidth 32)

/-- The CRC-32 of the bytes. -/
def crc32 (bytes : Bytes) : BitVec 32 := ~~~ bytes.foldl step (BitVec.allOnes 32)

end MapStore.Checksum
