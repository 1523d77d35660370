/-
MapStore.Text.Utf8 — the UTF-8 form of text, read strictly or leniently.

`encode` writes a text. Reading splits a byte string into `Piece`s: a
character, a malformed stretch, or a sequence that the end of the input cuts
off. The first byte of a character fixes how many continuation bytes it owes
and which range the first of them may come from (this is what excludes
overlong forms, surrogates and code points above U+10FFFF); a stretch is
malformed from its first byte up to the byte that no longer fits. `decode?`
refuses the first piece that is not a character, saying where it starts and
how long it is; `decodeLossy` shows each such piece as U+FFFD.
-/
import MapStore.Bytes

namespace MapStore.Text.Utf8

/-! ## Writing -/

/-- The one to four bytes of a character. -/
def encodeChar (c : Char) : Bytes :=
  let n := c.toNat
  if n < 0x80 then [UInt8.ofNat n]
  else if n < 0x800 then [UInt8.ofNat (0xC0 + n / 64), UInt8.ofNat (0x80 + n % 64)]
  else if n < 0x10000 then
    [UInt8.ofNat (0xE0 + n / 4096), UInt8.ofNat (0x80 + n / 64 % 64),
      UInt8.ofNat (0x80 + n % 64)]
  else
    [UInt8.ofNat (0xF0 + n / 262144), UInt8.ofNat (0x80 + n / 4096 % 64),
      UInt8.ofNat (0x80 + n / 64 % 64), UInt8.ofNat (0x80 + n % 64)]

/-- The bytes of a text. -/
def encode (text : String) : Bytes := text.toList.flatMap encodeChar

/-! ## Reading -/

/-- What a byte string starts with. -/
inductive Piece where
  /-- A character of `size` bytes. -/
  | char (c : Char) (size : Nat)
  /-- `size` bytes that start no character; the byte after them does not fit. -/
  | malformed (size : Nat)
  /-- A character whose last bytes the input no longer holds. -/
  | cutOff
  deriving DecidableEq, Repr

/-- Reads the `owed` continuation bytes of a character of which `size` bytes,
worth `value`, are read; the next one lies between `low` and `high`. -/
def follow : (owed low high value size : Nat) → Bytes → Piece
  | 0, _, _, value, size, _ => .char (Char.ofNat value) size
  | _ + 1, _, _, _, _, [] => .cutOff
  | owed + 1, low, high, value, size, b :: rest =>
    if low ≤ b.toNat ∧ b.toNat ≤ high then
      follow owed 0x80 0xBF (value * 64 + b.toNat % 64) (size + 1) rest
    else .malformed size

/-- The piece at the front of the non-empty byte string `first :: rest`. -/
def front (first : UInt8) (rest : Bytes) : Piece :=
  let n := first.toNat
  if n < 0x80 then .char (Char.ofNat n) 1
  else if n < 0xC2 then .malformed 1
  else if n < 0xE0 then follow 1 0x80 0xBF (n - 0xC0) 1 rest
  else if n < 0xF0 then
    follow 2 (if n = 0xE0 then 0xA0 else 0x80) (if n = 0xED then 0x9F else 0xBF)
      (n - 0xE0) 1 rest
  else if n < 0xF5 then
    follow 3 (if n = 0xF0 then 0x90 else 0x80) (if n = 0xF4 then 0x8F else 0xBF)
      (n - 0xF0) 1 rest
  else .malformed 1

/-- The pieces of a byte string from left to right; nothing follows a piece
that is cut off. -/
def pieces : Bytes → List Piece
  | [] => []
  | first :: rest =>
    match front first rest with
    | .char c size => .char c size :: pieces (rest.drop (size - 1))
    | .malformed size => .malformed size :: pieces (rest.drop (size - 1))
    | .cutOff => [.cutOff]
termination_by bytes => bytes.length
decreasing_by all_goals simp only [List.length_drop, List.length_cons]; omega

/-- Why a byte string is not UTF-8. -/
inductive Error where
  /-- `size` malformed bytes from `index` on. -/
  | malformed (size index : Nat)
  /-- The character that starts at `index` is cut off. -/
  | cutOff (index : Nat)
  deriving DecidableEq, Repr

/-- The error in words. -/
def Error.message : Error → String
  | .malformed size index => s!"invalid utf-8 sequence of {size} bytes from index {index}"
  | .cutOff index => s!"incomplete utf-8 byte sequence from index {index}"

/-- The characters of pieces that start at `index`, or the first fault. -/
def chars? (index : Nat) : List Piece → Except Error (List Char)
  | [] => .ok []
  | .char c size :: rest => (chars? (index + size) rest).map (c :: ·)
  | .malformed size :: _ => .error (.malformed size index)
  | .cutOff :: _ => .error (.cutOff index)

/-- The text that the bytes encode, or the first fault in them. -/
def decode? (bytes : Bytes) : Except Error String :=
  (chars? 0 (pieces bytes)).map String.ofList

/-- The text of the bytes with U+FFFD for each malformed stretch. -/
def decodeLossy (bytes : Bytes) : String :=
  String.ofList ((pieces bytes).map fun
    | .char c _ => c
    | _ => Char.ofNat 0xFFFD)

end MapStore.Text.Utf8
