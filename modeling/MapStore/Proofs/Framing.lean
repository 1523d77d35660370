/-
MapStore.Proofs.Framing — which byte strings are map files.

Each reader is turned round: what it took off the front is what the matching
writer writes, so beside reading back what was written a reader accepts nothing
else. That holds of the characters of a text, of numbers, of byte strings with
their length, of entries and of lists of them, and so of payloads, but for the
bytes that may stand after the last entry.

A file is a header and a payload that fit together (`Frames`), and there is one
way at most to see a file so. The checks on the header find out exactly whether
there is one (`decode_cases`). So a file is refused as damaged if it is no header
with its payload, as malformed if the payload is none, and is otherwise accepted
with the one name, id and list of entries that were written.
-/
import MapStore.MapFile.Stored
import MapStore.Proofs.Codec
import MapStore.Proofs.Directory

namespace MapStore

/-! ## Numbers -/

namespace Bytes

theorem ofNatLE_toNatLE (bytes : Bytes) : ofNatLE bytes.length (toNatLE bytes) = bytes := by
  induction bytes with
  | nil => rfl
  | cons b rest ih =>
    have byte := b.toNat_lt
    have low : UInt8.ofNat (b.toNat + 256 * toNatLE rest) = b := by
      rw [← UInt8.toNat_inj, UInt8.toNat_ofNat']
      omega
    have high : (b.toNat + 256 * toNatLE rest) / 256 = toNatLE rest := by omega
    rw [List.length_cons, toNatLE, ofNatLE, low, high, ih]

/-- Bytes are the number that they denote, written in as many bytes. -/
theorem ofNatBE_toNatBE {bytes : Bytes} {width : Nat} (length : bytes.length = width) :
    ofNatBE width (toNatBE bytes) = bytes := by
  have reversed := ofNatLE_toNatLE bytes.reverse
  rw [List.length_reverse, length] at reversed
  rw [ofNatBE, toNatBE, reversed, List.reverse_reverse]

theorem toNatLE_lt (bytes : Bytes) : toNatLE bytes < capacity bytes.length := by
  induction bytes with
  | nil => exact Nat.one_pos
  | cons b rest ih =>
    have byte := b.toNat_lt
    rw [toNatLE, List.length_cons, capacity]
    omega

theorem toNatBE_lt {bytes : Bytes} {width : Nat} (length : bytes.length = width) :
    toNatBE bytes < capacity width := by
  have lt := toNatLE_lt bytes.reverse
  rwa [List.length_reverse, length] at lt

theorem capacity_mono {width width' : Nat} (le : width ≤ width') :
    capacity width ≤ capacity width' := by
  induction le with
  | refl => exact Nat.le_refl _
  | step _ ih =>
    rw [capacity]
    omega

/-- A number that fits into a width can be told from its bytes. -/
theorem ofNatBE_inj {width n n' : Nat} (fits : n < capacity width) (fits' : n' < capacity width)
    (same : ofNatBE width n = ofNatBE width n') : n = n' := by
  have read := congrArg toNatBE same
  rwa [toNatBE_ofNatBE, toNatBE_ofNatBE, Nat.mod_eq_of_lt fits, Nat.mod_eq_of_lt fits'] at read

end Bytes

/-! ## Text -/

namespace Text.Utf8

/-- A continuation byte that was taken in stood there and was within its range. -/
theorem of_follow {owed low high value size k : Nat} {c : Char} {bytes : Bytes}
    (h : follow (owed + 1) low high value size bytes = .char c k) :
    ∃ b rest, bytes = b :: rest ∧ low ≤ b.toNat ∧ b.toNat ≤ high ∧
      follow owed 0x80 0xBF (value * 64 + b.toNat % 64) (size + 1) rest = .char c k := by
  cases bytes with
  | nil => cases h
  | cons b rest =>
    rw [follow] at h
    split at h
    · rename_i within
      exact ⟨b, rest, rfl, within.1, within.2, h⟩
    · cases h

theorem of_follow_zero {low high value size k : Nat} {c : Char} {bytes : Bytes}
    (h : follow 0 low high value size bytes = .char c k) : c = Char.ofNat value ∧ k = size := by
  rw [follow, Piece.char.injEq] at h
  exact ⟨h.1.symm, h.2.symm⟩

/-- The code point of a character that is made from a number. -/
theorem toNat_char {n : Nat} (valid : n < 0xD800 ∨ (0xDFFF < n ∧ n < 0x110000)) :
    (Char.ofNat n).toNat = n := by
  have valid : n.isValidChar := valid
  rw [Char.ofNat, dif_pos valid]
  rfl

theorem byte_eq {n : Nat} {b : UInt8} (h : n = b.toNat) : UInt8.ofNat n = b := by
  rw [h, UInt8.ofNat_toNat]

/-! Bytes within the ranges of each width are those of the code point that they
are read as. The range of the second byte leaves out short forms and surrogates. -/

section

variable {first b b' b'' : UInt8}

theorem encodeChar_one (lead : first.toNat < 0x80) :
    encodeChar (Char.ofNat first.toNat) = [first] := by
  have value := toNat_char (n := first.toNat) (by omega)
  unfold encodeChar
  simp only [value]
  rw [if_pos lead, byte_eq rfl]

theorem encodeChar_two (lead : 0xC2 ≤ first.toNat ∧ first.toNat < 0xE0)
    (second : 0x80 ≤ b.toNat ∧ b.toNat ≤ 0xBF) :
    encodeChar (Char.ofNat ((first.toNat - 0xC0) * 64 + b.toNat % 64)) = [first, b] := by
  generalize eq : (first.toNat - 0xC0) * 64 + b.toNat % 64 = n
  have value := toNat_char (n := n) (by omega)
  unfold encodeChar
  simp only [value]
  rw [if_neg (by omega), if_pos (by omega), byte_eq (b := first) (by omega),
    byte_eq (b := b) (by omega)]

theorem encodeChar_three (lead : 0xE0 ≤ first.toNat ∧ first.toNat < 0xF0)
    (second : (first.toNat = 0xE0 → 0xA0 ≤ b.toNat) ∧ 0x80 ≤ b.toNat ∧
      (first.toNat = 0xED → b.toNat ≤ 0x9F) ∧ b.toNat ≤ 0xBF)
    (third : 0x80 ≤ b'.toNat ∧ b'.toNat ≤ 0xBF) :
    encodeChar (Char.ofNat (((first.toNat - 0xE0) * 64 + b.toNat % 64) * 64 + b'.toNat % 64)) =
      [first, b, b'] := by
  generalize eq : ((first.toNat - 0xE0) * 64 + b.toNat % 64) * 64 + b'.toNat % 64 = n
  have value := toNat_char (n := n) (by omega)
  unfold encodeChar
  simp only [value]
  rw [if_neg (by omega), if_neg (by omega), if_pos (by omega), byte_eq (b := first) (by omega),
    byte_eq (b := b) (by omega), byte_eq (b := b') (by omega)]

theorem encodeChar_four (lead : 0xF0 ≤ first.toNat ∧ first.toNat < 0xF5)
    (second : (first.toNat = 0xF0 → 0x90 ≤ b.toNat) ∧ 0x80 ≤ b.toNat ∧
      (first.toNat = 0xF4 → b.toNat ≤ 0x8F) ∧ b.toNat ≤ 0xBF)
    (third : 0x80 ≤ b'.toNat ∧ b'.toNat ≤ 0xBF) (fourth : 0x80 ≤ b''.toNat ∧ b''.toNat ≤ 0xBF) :
    encodeChar (Char.ofNat ((((first.toNat - 0xF0) * 64 + b.toNat % 64) * 64 + b'.toNat % 64) * 64 +
      b''.toNat % 64)) = [first, b, b', b''] := by
  generalize eq : (((first.toNat - 0xF0) * 64 + b.toNat % 64) * 64 + b'.toNat % 64) * 64 +
    b''.toNat % 64 = n
  have value := toNat_char (n := n) (by omega)
  unfold encodeChar
  simp only [value]
  rw [if_neg (by omega), if_neg (by omega), if_neg (by omega), byte_eq (b := first) (by omega),
    byte_eq (b := b) (by omega), byte_eq (b := b') (by omega), byte_eq (b := b'') (by omega)]

end

/-- A character that was read is written as the bytes it was read from. -/
theorem of_front {first : UInt8} {rest : Bytes} {c : Char} {k : Nat}
    (h : front first rest = .char c k) :
    first :: rest = encodeChar c ++ rest.drop (k - 1) := by
  unfold front at h
  simp only at h
  split at h
  · rename_i lead
    cases h
    rw [encodeChar_one lead]
    rfl
  split at h
  · cases h
  split at h
  · obtain ⟨b, tail, rfl, low, high, h⟩ := of_follow h
    obtain ⟨rfl, rfl⟩ := of_follow_zero h
    rw [encodeChar_two (by omega) ⟨low, high⟩]
    rfl
  split at h
  · obtain ⟨b, _, rfl, low, high, h⟩ := of_follow h
    obtain ⟨b', tail, rfl, low', high', h⟩ := of_follow h
    obtain ⟨rfl, rfl⟩ := of_follow_zero h
    rw [encodeChar_three (by omega) ?_ ⟨low', high'⟩]
    · rfl
    · refine ⟨fun eq => ?_, ?_, fun eq => ?_, ?_⟩ <;> split at low <;> split at high <;> omega
  split at h
  · obtain ⟨b, _, rfl, low, high, h⟩ := of_follow h
    obtain ⟨b', _, rfl, low', high', h⟩ := of_follow h
    obtain ⟨b'', tail, rfl, low'', high'', h⟩ := of_follow h
    obtain ⟨rfl, rfl⟩ := of_follow_zero h
    rw [encodeChar_four (by omega) ?_ ⟨low', high'⟩ ⟨low'', high''⟩]
    · rfl
    · refine ⟨fun eq => ?_, ?_, fun eq => ?_, ?_⟩ <;> split at low <;> split at high <;> omega
  · cases h

/-- The characters of pieces without a fault are written as the bytes the pieces
were read from. -/
theorem of_chars? {bytes : Bytes} {index : Nat} {chars : List Char}
    (h : chars? index (pieces bytes) = .ok chars) : bytes = chars.flatMap encodeChar := by
  induction bytes using pieces.induct generalizing index chars with
  | case1 =>
    rw [pieces] at h
    cases h
    rfl
  | case2 first rest c size read ih =>
    rw [pieces, read] at h
    simp only [chars?] at h
    cases later : chars? (index + size) (pieces (rest.drop (size - 1))) with
    | error fault =>
      rw [later] at h
      cases h
    | ok more =>
      rw [later] at h
      cases h
      rw [List.flatMap_cons, ← ih later]
      exact of_front read
  | case3 first rest size read ih =>
    rw [pieces, read] at h
    cases h
  | case4 first rest read =>
    rw [pieces, read] at h
    cases h

/-- A byte string is text if it is what is written of the text. -/
theorem decode?_eq_ok_iff {bytes : Bytes} {text : String} :
    decode? bytes = .ok text ↔ bytes = encode text := by
  refine ⟨fun h => ?_, fun h => h ▸ decode?_encode text⟩
  unfold decode? at h
  cases read : chars? 0 (pieces bytes) with
  | error fault =>
    rw [read] at h
    cases h
  | ok chars =>
    rw [read] at h
    cases h
    rw [encode, String.toList_ofList]
    exact of_chars? read

end Text.Utf8

/-! ## Payloads -/

namespace MapFile

variable {fault : PayloadFault} {bytes rest : Bytes} {n : Nat}

/-- A step that reads, worked on, answers if both do. -/
theorem bind_eq_ok {ε α β : Type} {x : Except ε α} {f : α → Except ε β} {b : β} :
    (x >>= f) = .ok b ↔ ∃ a, x = .ok a ∧ f a = .ok b := by
  cases x with
  | error cause => simp [bind, Except.bind]
  | ok a => simp [bind, Except.bind]

theorem take_eq_ok {front : Bytes} :
    take fault n bytes = .ok (front, rest) ↔ bytes = front ++ rest ∧ front.length = n := by
  refine ⟨fun h => ?_, fun ⟨eq, length⟩ => eq ▸ take_append length⟩
  unfold take at h
  simp only [List.splitAt_eq] at h
  split at h
  · rename_i length
    cases h
    exact ⟨(List.take_append_drop n bytes).symm, length⟩
  · cases h

theorem takeNumber_eq_ok :
    takeNumber bytes = .ok (n, rest) ↔
      bytes = Bytes.ofNatLE 8 n ++ rest ∧ n < Bytes.capacity 8 := by
  refine ⟨fun h => ?_, fun ⟨eq, small⟩ => eq ▸ takeNumber_append small⟩
  obtain ⟨⟨digits, after⟩, taken, eq⟩ := bind_eq_ok.1 h
  cases eq
  obtain ⟨rfl, length⟩ := take_eq_ok.1 taken
  have small := Bytes.toNatLE_lt digits
  have written := Bytes.ofNatLE_toNatLE digits
  rw [length] at small written
  exact ⟨by rw [written], small⟩

theorem takeBytes_eq_ok {field : Bytes} :
    takeBytes fault bytes = .ok (field, rest) ↔
      bytes = encodeBytes field ++ rest ∧ field.length < Bytes.capacity 8 := by
  refine ⟨fun h => ?_, fun ⟨eq, small⟩ => eq ▸ takeBytes_append small⟩
  obtain ⟨⟨size, after⟩, number, taken⟩ := bind_eq_ok.1 h
  obtain ⟨rfl, small⟩ := takeNumber_eq_ok.1 number
  obtain ⟨rfl, rfl⟩ := take_eq_ok.1 taken
  exact ⟨by rw [encodeBytes, List.append_assoc], small⟩

/-- Entries that were taken off the front stood there as they are written. -/
theorem of_takeEntries {count : Nat} {entries : List (Bytes × Bytes)}
    (h : takeEntries count bytes = .ok (entries, rest)) :
    entries.length = count ∧ bytes = entries.flatMap encodeEntry ++ rest := by
  induction count generalizing bytes entries with
  | zero =>
    cases h
    exact ⟨rfl, rfl⟩
  | succ count ih =>
    obtain ⟨⟨key, afterKey⟩, keyTaken, h⟩ := bind_eq_ok.1 h
    obtain ⟨⟨value, afterValue⟩, valueTaken, h⟩ := bind_eq_ok.1 h
    obtain ⟨⟨later, afterAll⟩, laterTaken, h⟩ := bind_eq_ok.1 h
    cases h
    obtain ⟨rfl, -⟩ := takeBytes_eq_ok.1 keyTaken
    obtain ⟨rfl, -⟩ := takeBytes_eq_ok.1 valueTaken
    obtain ⟨rfl, rfl⟩ := ih laterTaken
    refine ⟨rfl, ?_⟩
    rw [List.flatMap_cons, encodeEntry, List.append_assoc, List.append_assoc]

/-- A payload is accepted if it is what is written of the name and the entries,
and anything after it. -/
theorem decodePayload_eq_ok_iff {name : String} {entries : List (Bytes × Bytes)}
    (small : bytes.length < Bytes.capacity 8) :
    decodePayload bytes = .ok (name, entries) ↔
      ∃ trailing, bytes = encodePayload name entries ++ trailing := by
  constructor
  · intro h
    obtain ⟨⟨letters, afterName⟩, nameTaken, h⟩ := bind_eq_ok.1 h
    obtain ⟨text, read, h⟩ := bind_eq_ok.1 h
    obtain ⟨⟨count, afterCount⟩, countTaken, h⟩ := bind_eq_ok.1 h
    obtain ⟨⟨all, trailing⟩, entriesTaken, h⟩ := bind_eq_ok.1 h
    cases h
    have isText : Text.Utf8.decode? letters = .ok name := by
      cases decoded : Text.Utf8.decode? letters with
      | error cause =>
        rw [decoded] at read
        cases read
      | ok text =>
        rw [decoded] at read
        cases read
        rfl
    obtain ⟨rfl, -⟩ := takeBytes_eq_ok.1 nameTaken
    obtain rfl := Text.Utf8.decode?_eq_ok_iff.1 isText
    obtain ⟨rfl, -⟩ := takeNumber_eq_ok.1 countTaken
    obtain ⟨rfl, rfl⟩ := of_takeEntries entriesTaken
    exact ⟨trailing, by simp only [encodePayload, List.append_assoc]⟩
  · rintro ⟨trailing, rfl⟩
    rw [List.length_append] at small
    exact decodePayload_append name entries trailing (by omega)

/-! ## Files -/

/-- The bytes are the header of the map `id` for this payload, and then the
payload. -/
def Frames (id : MapId) (payload bytes : Bytes) : Prop :=
  bytes = header id payload ++ payload ∧ payload.length < Bytes.capacity 8

/-- A number in a header, read from its bytes and written again. -/
theorem ofNatBE_field (bytes : Bytes) (start size : Nat) (inside : start + size ≤ bytes.length) :
    Bytes.ofNatBE size (Bytes.toNatBE ((bytes.drop start).take size)) =
      (bytes.drop start).take size := by
  refine Bytes.ofNatBE_toNatBE ?_
  rw [List.length_take, List.length_drop]
  omega

theorem toNatBE_field (bytes : Bytes) (start size : Nat) (inside : start + size ≤ bytes.length) :
    Bytes.toNatBE ((bytes.drop start).take size) < Bytes.capacity size := by
  refine Bytes.toNatBE_lt ?_
  rw [List.length_take, List.length_drop]
  omega

/-- A byte string is its first 22 bytes, field by field, and the rest. -/
theorem fields_append (bytes : Bytes) :
    bytes.take 4 ++ (bytes.drop 4).take 2 ++ (bytes.drop 6).take 4 ++ (bytes.drop 10).take 4 ++
      (bytes.drop 14).take 8 ++ bytes.drop headerSize = bytes := by
  have next : ∀ start size, (bytes.drop start).take size ++ bytes.drop (start + size) =
      bytes.drop start := fun start size => by
    rw [← List.drop_drop, List.take_append_drop]
  simp only [List.append_assoc]
  rw [headerSize, next 14 8, next 10 4, next 6 4, next 4 2, List.take_append_drop]

/-- A file is refused as damaged, and then it is no header with its payload; or
it is one, and the payload is looked at. -/
theorem decode_cases (bytes : Bytes) :
    (∃ d, decode bytes = .error (.damage d)) ∨ ∃ id payload, Frames id payload bytes := by
  unfold decode
  simp only
  split
  · exact .inl ⟨_, rfl⟩
  rename_i long
  split
  · exact .inl ⟨_, rfl⟩
  rename_i isMagic
  split
  · exact .inl ⟨_, rfl⟩
  rename_i isVersion
  split
  · exact .inl ⟨_, rfl⟩
  rename_i isLength
  split
  · exact .inl ⟨_, rfl⟩
  rename_i isSum
  rw [Decidable.not_not] at isMagic isVersion isLength isSum
  rw [headerSize] at long
  have small := toNatBE_field bytes 14 8 (by omega)
  have idSmall := toNatBE_field bytes 6 4 (by omega)
  rw [← isLength] at small
  refine .inr
    ⟨UInt32.ofNat (Bytes.toNatBE ((bytes.drop 6).take 4)), bytes.drop headerSize, ?_, small⟩
  have id : (UInt32.ofNat (Bytes.toNatBE ((bytes.drop 6).take 4))).toNat =
      Bytes.toNatBE ((bytes.drop 6).take 4) := by
    rw [UInt32.toNat_ofNat']
    exact Nat.mod_eq_of_lt idSmall
  have parts := fields_append bytes
  rw [header, ← isMagic, ← isVersion, ofNatBE_field bytes 4 2 (by omega), id,
    ofNatBE_field bytes 6 4 (by omega), isSum, ofNatBE_field bytes 10 4 (by omega), isLength,
    ofNatBE_field bytes 14 8 (by omega), parts]

/-- What is read of a header with its payload. -/
theorem Frames.decode {id : MapId} {payload : Bytes} (h : Frames id payload bytes) :
    MapFile.decode bytes =
      match decodePayload payload with
      | .ok (name, entries) => .ok { name, id, entries }
      | .error f => .error (.payload f) := by
  obtain ⟨rfl, small⟩ := h
  exact decode_header_append id payload small

theorem decode_eq_ok_iff {file : MapFile} :
    decode bytes = .ok file ↔
      ∃ trailing, Frames file.id (encodePayload file.name file.entries ++ trailing) bytes := by
  constructor
  · intro h
    obtain ⟨d, damaged⟩ | ⟨id, payload, frames⟩ := decode_cases bytes
    · rw [damaged] at h
      cases h
    · rw [frames.decode] at h
      cases read : decodePayload payload with
      | error f =>
        rw [read] at h
        cases h
      | ok held =>
        rw [read] at h
        cases h
        obtain ⟨trailing, rfl⟩ := (decodePayload_eq_ok_iff frames.2).1 read
        exact ⟨trailing, frames⟩
  · rintro ⟨trailing, frames⟩
    rw [frames.decode, (decodePayload_eq_ok_iff frames.2).2 ⟨trailing, rfl⟩]

/-- A file is refused as damaged if it is no header with its payload. -/
theorem decode_damage_iff :
    (∃ d, decode bytes = .error (.damage d)) ↔ ¬ ∃ id payload, Frames id payload bytes := by
  constructor
  · rintro ⟨d, damaged⟩ ⟨id, payload, frames⟩
    rw [frames.decode] at damaged
    split at damaged <;> cases damaged
  · exact (decode_cases bytes).resolve_right

/-- A file is refused as malformed if it is a header with its payload, and the
payload is not what is written of any name and entries. -/
theorem decode_payload_iff :
    (∃ f, decode bytes = .error (.payload f)) ↔
      ∃ id payload, Frames id payload bytes ∧
        ∀ name entries trailing, payload ≠ encodePayload name entries ++ trailing := by
  constructor
  · rintro ⟨f, refused⟩
    obtain ⟨d, damaged⟩ | ⟨id, payload, frames⟩ := decode_cases bytes
    · rw [damaged] at refused
      cases refused
    · refine ⟨id, payload, frames, fun name entries trailing eq => ?_⟩
      rw [frames.decode, (decodePayload_eq_ok_iff frames.2).2 ⟨trailing, eq⟩] at refused
      cases refused
  · rintro ⟨id, payload, frames, none⟩
    rw [frames.decode]
    cases read : decodePayload payload with
    | error f => exact ⟨f, rfl⟩
    | ok held =>
      obtain ⟨trailing, eq⟩ := (decodePayload_eq_ok_iff frames.2).1 read
      exact absurd eq (none held.1 held.2 trailing)

/-- The refusals of a file are told apart: damage is corruption, a payload that is
none is malformed. -/
theorem load_of_read {path : String} {d : Disk} (there : d.read path = .ok bytes) :
    (∀ file, load path d = .ok file ↔ decode bytes = .ok file) ∧
      ((∃ reason, load path d = .error (.corruption reason)) ↔
        ∃ damage, decode bytes = .error (.damage damage)) ∧
      ((∃ reason, load path d = .error (.serialization reason)) ↔
        ∃ f, decode bytes = .error (.payload f)) := by
  unfold load
  rw [there]
  simp only
  cases decode bytes with
  | ok file => simp [Except.mapError]
  | error fault => cases fault <;> simp [Except.mapError, Fault.toError]

/-- A map file that was written is read back with the name, id and entries it was
written of, whatever they are. Of all byte strings, a file is accepted if it is the
magic letters, the version, an id, the checksum of a payload and its length, and
then this payload, which is what is written of a name and entries and anything
after it; those are what is answered. A file that was accepted and has nothing after
its entries is what is written of what was read. All others are refused: as corrupt
if they are no header and payload that fit together, as malformed if they are, and
the payload is not what is written of any name and entries.

A payload is taken to have a length that eight bytes can state, as any payload has
that a machine of 64 bits can hold. -/
theorem reads_exactly_what_is_written :
    (∀ (file : MapFile) (path : String) (d d' : Disk),
      (encodePayload file.name file.entries).length < Bytes.capacity 8 →
        file.save path d = (.ok (), d') → load path d' = .ok file) ∧
    ∀ (bytes : Bytes) (path : String) (d : Disk), d.read path = .ok bytes →
      (∀ file, load path d = .ok file ↔
        ∃ trailing, Frames file.id (encodePayload file.name file.entries ++ trailing) bytes) ∧
      (∀ file, load path d = .ok file → bytes.length = file.encode.length → file.encode = bytes) ∧
      ((∃ reason, load path d = .error (.corruption reason)) ↔
        ¬ ∃ id payload, Frames id payload bytes) ∧
      ((∃ reason, load path d = .error (.serialization reason)) ↔
        ∃ id payload, Frames id payload bytes ∧
          ∀ name entries trailing, payload ≠ encodePayload name entries ++ trailing) ∧
      ((∃ file, load path d = .ok file) ∨ (∃ reason, load path d = .error (.corruption reason)) ∨
        ∃ reason, load path d = .error (.serialization reason)) := by
  refine ⟨fun file path d d' small saved => ?_, fun bytes path d there => ?_⟩
  · unfold load
    rw [Disk.read_of_save saved]
    simp only [decode_encode file small, Except.mapError]
  obtain ⟨accepted, corrupt, malformed⟩ := load_of_read there
  refine ⟨fun file => (accepted file).trans decode_eq_ok_iff, fun file read length => ?_,
    corrupt.trans decode_damage_iff, malformed.trans decode_payload_iff, ?_⟩
  · obtain ⟨trailing, rfl, -⟩ := decode_eq_ok_iff.1 ((accepted file).1 read)
    have nothing : trailing = [] := by
      simp only [encode, List.length_append, length_header] at length
      exact List.length_eq_zero_iff.1 (by omega)
    rw [nothing, List.append_nil]
    rfl
  · cases decoded : decode bytes with
    | ok file => exact .inl ⟨file, (accepted file).2 decoded⟩
    | error fault =>
      cases fault with
      | damage damage => exact .inr (.inl (corrupt.2 ⟨damage, decoded⟩))
      | payload f => exact .inr (.inr (malformed.2 ⟨f, decoded⟩))

/-- A file with one entry. -/
def receipt : MapFile := ⟨"a", 7, [([1], [2])]⟩

/-- The payload of the receipt, and a byte after it. -/
def paddedPayload : Bytes := encodePayload receipt.name receipt.entries ++ [0]

/-- A disk with the padded receipt. -/
def paddedDisk : Disk := Disk.empty.put ["a-7.db"] (.file (header 7 paddedPayload ++ paddedPayload))

/-- The receipt is read back from where it was saved, and also from a file in
which a byte follows its entries. -/
theorem receipt_read :
    (receipt.save "a-7.db" .empty).1 = .ok () ∧
      load "a-7.db" (receipt.save "a-7.db" .empty).2 = .ok receipt ∧
      paddedDisk.read "a-7.db" = .ok (header 7 paddedPayload ++ paddedPayload) ∧
      load "a-7.db" paddedDisk = .ok receipt := by
  have small : paddedPayload.length < Bytes.capacity 8 := by decide +kernel
  have fits : (encodePayload receipt.name receipt.entries).length < Bytes.capacity 8 := by
    decide +kernel
  have saved : (receipt.save "a-7.db" .empty).1 = .ok () := by decide +kernel
  have there : paddedDisk.read "a-7.db" = .ok (header 7 paddedPayload ++ paddedPayload) := by
    decide +kernel
  obtain ⟨written, accepted⟩ := reads_exactly_what_is_written
  exact ⟨saved, written receipt "a-7.db" .empty _ fits (Prod.ext saved rfl), there,
    ((accepted _ _ _ there).1 receipt).2 ⟨[0], rfl, small⟩⟩

end MapFile

end MapStore
