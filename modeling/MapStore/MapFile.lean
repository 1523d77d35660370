/-
MapStore.MapFile — the form in which a map is kept in a file.

A file is a header of 22 bytes and a payload. The header holds, numbers most
significant byte first, the letters AOMF, the format version (2 bytes), the
map's id (4), the CRC-32 of the payload (4) and the length of the payload (8).
The payload holds, numbers of 8 bytes least significant byte first, the map's
name (its length in bytes, then its UTF-8 bytes), the number of entries, and
for each entry the key and the value, each as its length and its bytes.

`encode` writes that form. `decode` checks the header field by field against
the bytes that are there, then the checksum, and only then reads the payload;
it is indifferent to bytes after the payload's last entry. The first fault it
meets is the one it reports: `Damage` for a file that is not what was written,
`PayloadFault` for a payload that passes its checksum and still is no payload.
-/
import MapStore.Artifact
import MapStore.Checksum
import MapStore.Text.Utf8

namespace MapStore

/-- What a map file holds. -/
structure MapFile where
  name : String
  id : MapId
  /-- The entries in the order they stand in the file. -/
  entries : List (Bytes × Bytes)
  deriving DecidableEq, Repr

namespace MapFile

/-! ## The header -/

/-- The first bytes of every map file: AOMF. -/
def magic : Bytes := [0x41, 0x4F, 0x4D, 0x46]

/-- The version of the format. -/
def version : Nat := 1

/-- The length of the header. -/
def headerSize : Nat := 22

/-- The header for a payload of the map `id`. -/
def header (id : MapId) (payload : Bytes) : Bytes :=
  magic ++ Bytes.ofNatBE 2 version ++ Bytes.ofNatBE 4 id.toNat ++
    Bytes.ofNatBE 4 (Checksum.crc32 payload).toNat ++ Bytes.ofNatBE 8 payload.length

/-! ## The payload -/

/-- A byte string with its length in front. -/
def encodeBytes (bytes : Bytes) : Bytes := Bytes.ofNatLE 8 bytes.length ++ bytes

/-- A key and its value. -/
def encodeEntry (entry : Bytes × Bytes) : Bytes := encodeBytes entry.1 ++ encodeBytes entry.2

/-- The payload of a map. -/
def encodePayload (name : String) (entries : List (Bytes × Bytes)) : Bytes :=
  encodeBytes (Text.Utf8.encode name) ++ Bytes.ofNatLE 8 entries.length ++
    entries.flatMap encodeEntry

/-- Why bytes with a valid checksum are no payload. -/
inductive PayloadFault where
  /-- A number, a key or a value is cut off. -/
  | endOfFile
  /-- The name is longer than what is there. -/
  | nameCutOff
  /-- The name is not text. -/
  | nameNotText (cause : Text.Utf8.Error)
  deriving DecidableEq, Repr

/-- The fault in words. -/
def PayloadFault.message : PayloadFault → String
  | endOfFile => "io error: unexpected end of file"
  | nameCutOff => "io error: "
  | nameNotText cause => "string is not valid utf8: " ++ cause.message

/-- The first `n` bytes and the rest, or the fault if there are fewer. -/
def take (fault : PayloadFault) (n : Nat) (bytes : Bytes) :
    Except PayloadFault (Bytes × Bytes) :=
  let parts := bytes.splitAt n
  if parts.1.length = n then .ok parts else .error fault

/-- A number of 8 bytes and the rest. -/
def takeNumber (bytes : Bytes) : Except PayloadFault (Nat × Bytes) := do
  let (digits, rest) ← take .endOfFile 8 bytes
  return (Bytes.toNatLE digits, rest)

/-- A byte string with its length in front, and the rest. -/
def takeBytes (fault : PayloadFault) (bytes : Bytes) : Except PayloadFault (Bytes × Bytes) := do
  let (size, rest) ← takeNumber bytes
  take fault size rest

/-- `count` entries and the rest. -/
def takeEntries : Nat → Bytes → Except PayloadFault (List (Bytes × Bytes) × Bytes)
  | 0, bytes => .ok ([], bytes)
  | count + 1, bytes => do
    let (key, bytes) ← takeBytes .endOfFile bytes
    let (value, bytes) ← takeBytes .endOfFile bytes
    let (entries, bytes) ← takeEntries count bytes
    return ((key, value) :: entries, bytes)

/-- The name and the entries in a payload. -/
def decodePayload (bytes : Bytes) :
    Except PayloadFault (String × List (Bytes × Bytes)) := do
  let (letters, bytes) ← takeBytes .nameCutOff bytes
  let name ← (Text.Utf8.decode? letters).mapError .nameNotText
  let (count, bytes) ← takeNumber bytes
  let (entries, _) ← takeEntries count bytes
  return (name, entries)

/-! ## Files -/

/-- The bytes of a map file. -/
def encode (file : MapFile) : Bytes :=
  let payload := encodePayload file.name file.entries
  header file.id payload ++ payload

/-- Why a file is not one that was written whole. -/
inductive Damage where
  | truncatedHeader (size : Nat)
  | badMagic
  | unsupportedVersion (version : Nat)
  | payloadLength (found stated : Nat)
  | checksumMismatch
  deriving DecidableEq, Repr

/-- The damage in words. -/
def Damage.message : Damage → String
  | truncatedHeader size => s!"truncated header ({size} bytes)"
  | badMagic => "bad magic"
  | unsupportedVersion version => s!"unsupported format version {version}"
  | payloadLength found stated =>
    s!"payload length {found} does not match header {stated}"
  | checksumMismatch => "checksum mismatch"

/-- Why bytes are not a map file. -/
inductive Fault where
  | damage (d : Damage)
  | payload (f : PayloadFault)
  deriving DecidableEq, Repr

/-- The refusal of the file at `path`. -/
def Fault.toError (path : String) : Fault → StoreError
  | damage d => .corruption (path ++ ": " ++ d.message)
  | payload f => .serialization f.message

/-- The map that the bytes of a file hold. -/
def decode (bytes : Bytes) : Except Fault MapFile :=
  let field (start size : Nat) := Bytes.toNatBE ((bytes.drop start).take size)
  let payload := bytes.drop headerSize
  if bytes.length < headerSize then .error (.damage (.truncatedHeader bytes.length))
  else if bytes.take 4 ≠ magic then .error (.damage .badMagic)
  else if field 4 2 ≠ version then .error (.damage (.unsupportedVersion (field 4 2)))
  else if payload.length ≠ field 14 8 then
    .error (.damage (.payloadLength payload.length (field 14 8)))
  else if (Checksum.crc32 payload).toNat ≠ field 10 4 then .error (.damage .checksumMismatch)
  else match decodePayload payload with
    | .ok (name, entries) => .ok { name, id := UInt32.ofNat (field 6 4), entries }
    | .error f => .error (.payload f)

end MapFile

end MapStore
