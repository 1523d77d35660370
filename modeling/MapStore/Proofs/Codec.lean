/-
MapStore.Proofs.Codec — what is written is read back.

Each reader, put in front of what the matching writer wrote and anything after
it, gives back the value and leaves what comes after: the characters of a text,
a number, a byte string with its length, an entry, a list of entries. So a map
file is decoded to what was encoded (`decode_encode`), provided the length of
its payload can be written in the eight bytes that are there for it.
-/
import MapStore.MapFile

namespace MapStore

/-! ## Text -/

namespace Text.Utf8

/-- The code points of characters: all below 0x110000 but the surrogates. -/
theorem toNat_bounds (c : Char) : c.toNat < 0xD800 ∨ (0xDFFF < c.toNat ∧ c.toNat < 0x110000) :=
  c.valid

theorem toNat_ofNat {n : Nat} (h : n < 256) : (UInt8.ofNat n).toNat = n := by
  rw [UInt8.toNat_ofNat']
  omega

/-- A continuation byte that is expected and within its range is taken in. -/
theorem follow_cons {owed low high value size n : Nat} {rest : Bytes} (byte : n < 256)
    (within : low ≤ n ∧ n ≤ high) :
    follow (owed + 1) low high value size (UInt8.ofNat n :: rest) =
      follow owed 0x80 0xBF (value * 64 + n % 64) (size + 1) rest := by
  rw [follow, toNat_ofNat byte, if_pos within]

/-! A code point of each width is read back from its bytes. -/

section

variable {n : Nat} (rest : Bytes)

theorem front_one (small : n < 0x80) :
    front (UInt8.ofNat n) rest = .char (Char.ofNat n) 1 := by
  simp only [front, toNat_ofNat (show n < 256 by omega)]
  rw [if_pos small]

theorem front_two (large : 0x80 ≤ n) (small : n < 0x800) :
    front (UInt8.ofNat (0xC0 + n / 64)) (UInt8.ofNat (0x80 + n % 64) :: rest) =
      .char (Char.ofNat n) 2 := by
  simp only [front, toNat_ofNat (show 0xC0 + n / 64 < 256 by omega)]
  rw [if_neg (by omega), if_neg (by omega), if_pos (by omega),
    follow_cons (by omega) (by omega), follow]
  rw [show (0xC0 + n / 64 - 0xC0) * 64 + (0x80 + n % 64) % 64 = n by omega]

theorem front_three (large : 0x800 ≤ n) (small : n < 0x10000)
    (whole : n < 0xD800 ∨ 0xDFFF < n) :
    front (UInt8.ofNat (0xE0 + n / 4096))
        (UInt8.ofNat (0x80 + n / 64 % 64) :: UInt8.ofNat (0x80 + n % 64) :: rest) =
      .char (Char.ofNat n) 3 := by
  simp only [front, toNat_ofNat (show 0xE0 + n / 4096 < 256 by omega)]
  rw [if_neg (by omega), if_neg (by omega), if_neg (by omega), if_pos (by omega),
    follow_cons (by omega) (by constructor <;> split <;> omega),
    follow_cons (by omega) (by omega), follow]
  rw [show ((0xE0 + n / 4096 - 0xE0) * 64 + (0x80 + n / 64 % 64) % 64) * 64 +
    (0x80 + n % 64) % 64 = n by omega]

theorem front_four (large : 0x10000 ≤ n) (small : n < 0x110000) :
    front (UInt8.ofNat (0xF0 + n / 262144))
        (UInt8.ofNat (0x80 + n / 4096 % 64) :: UInt8.ofNat (0x80 + n / 64 % 64) ::
          UInt8.ofNat (0x80 + n % 64) :: rest) =
      .char (Char.ofNat n) 4 := by
  simp only [front, toNat_ofNat (show 0xF0 + n / 262144 < 256 by omega)]
  rw [if_neg (by omega), if_neg (by omega), if_neg (by omega), if_neg (by omega),
    if_pos (by omega), follow_cons (by omega) (by constructor <;> split <;> omega),
    follow_cons (by omega) (by omega), follow_cons (by omega) (by omega), follow]
  rw [show (((0xF0 + n / 262144 - 0xF0) * 64 + (0x80 + n / 4096 % 64) % 64) * 64 +
    (0x80 + n / 64 % 64) % 64) * 64 + (0x80 + n % 64) % 64 = n by omega]

end

/-- A character at the front is a piece, and the pieces of what follows it come
after. -/
theorem pieces_of_front {first : UInt8} {more rest : Bytes} {c : Char} {size : Nat}
    (read : front first (more ++ rest) = .char c size) (length : more.length = size - 1) :
    pieces (first :: more ++ rest) = .char c size :: pieces rest := by
  rw [List.cons_append, pieces, read]
  simp only
  rw [← length, List.drop_left]

/-- The bytes of a character are read as that character. -/
theorem pieces_encodeChar (c : Char) (rest : Bytes) :
    ∃ size, pieces (encodeChar c ++ rest) = .char c size :: pieces rest := by
  have bounds := toNat_bounds c
  have self : Char.ofNat c.toNat = c := Char.ofNat_toNat c
  unfold encodeChar
  generalize c.toNat = n at bounds self
  subst self
  simp only
  split
  · rename_i small
    exact ⟨1, pieces_of_front (front_one _ small) rfl⟩
  split
  · rename_i small
    exact ⟨2, pieces_of_front (front_two rest (by omega) small) rfl⟩
  split
  · rename_i small
    exact ⟨3, pieces_of_front (front_three rest (by omega) small (by omega)) rfl⟩
  · exact ⟨4, pieces_of_front (front_four rest (by omega) (by omega)) rfl⟩

theorem chars?_encode (chars : List Char) (index : Nat) :
    chars? index (pieces (chars.flatMap encodeChar)) = .ok chars := by
  induction chars generalizing index with
  | nil =>
    rw [List.flatMap_nil, pieces]
    rfl
  | cons c rest ih =>
    obtain ⟨size, read⟩ := pieces_encodeChar c (rest.flatMap encodeChar)
    rw [List.flatMap_cons, read, chars?, ih]
    rfl

/-- A text is read back from its bytes. -/
theorem decode?_encode (text : String) : decode? (encode text) = .ok text := by
  unfold decode? encode
  rw [chars?_encode]
  exact congrArg Except.ok String.ofList_toList

/-- A lenient reader shows a character that was written. -/
theorem decodeLossy_append (c : Char) (rest : Bytes) :
    (decodeLossy (encodeChar c ++ rest)).toList = c :: (decodeLossy rest).toList := by
  obtain ⟨size, read⟩ := pieces_encodeChar c rest
  unfold decodeLossy
  rw [read, List.map_cons, String.toList_ofList, String.toList_ofList]

/-- So a text is read back by a lenient reader, too. -/
theorem decodeLossy_encode (text : String) : decodeLossy (encode text) = text := by
  have shown : ∀ chars : List Char, (decodeLossy (chars.flatMap encodeChar)).toList = chars := by
    intro chars
    induction chars with
    | nil =>
      rw [List.flatMap_nil, decodeLossy, pieces]
      rfl
    | cons c rest ih => rw [List.flatMap_cons, decodeLossy_append, ih]
  exact String.toList_inj.1 (shown text.toList)

/-- Different texts have different bytes. -/
theorem encode_inj {text text' : String} (same : encode text = encode text') : text = text' := by
  rw [← decodeLossy_encode text, same, decodeLossy_encode]

theorem length_encodeChar_le (c : Char) : (encodeChar c).length ≤ 4 := by
  simp only [encodeChar, apply_ite List.length, List.length_cons, List.length_nil]
  repeat' split
  all_goals decide

/-- A character has at most four bytes. -/
theorem length_encode_le (text : String) : (encode text).length ≤ 4 * text.length := by
  have all : ∀ chars : List Char, (chars.flatMap encodeChar).length ≤ 4 * chars.length := by
    intro chars
    induction chars with
    | nil => exact Nat.zero_le _
    | cons c rest ih =>
      rw [List.flatMap_cons, List.length_append, List.length_cons]
      have first := length_encodeChar_le c
      omega
  exact String.length_toList ▸ all text.toList

end Text.Utf8

/-! ## Payloads -/

namespace MapFile

variable {fault : PayloadFault} {bytes rest : Bytes} {n : Nat}

theorem take_append (h : bytes.length = n) : take fault n (bytes ++ rest) = .ok (bytes, rest) := by
  simp [take, ← h]

/-- A number that eight bytes can hold is read back. -/
theorem takeNumber_append (small : n < Bytes.capacity 8) :
    takeNumber (Bytes.ofNatLE 8 n ++ rest) = .ok (n, rest) := by
  unfold takeNumber
  rw [take_append (Bytes.length_ofNatLE 8 n)]
  show Except.ok _ = _
  rw [Bytes.toNatLE_ofNatLE, Nat.mod_eq_of_lt small]

theorem takeBytes_append (small : bytes.length < Bytes.capacity 8) :
    takeBytes fault (encodeBytes bytes ++ rest) = .ok (bytes, rest) := by
  unfold takeBytes encodeBytes
  rw [List.append_assoc, takeNumber_append small]
  exact take_append rfl

theorem length_encodeBytes (bytes : Bytes) : (encodeBytes bytes).length = 8 + bytes.length := by
  simp [encodeBytes]

/-- Entries are read back, each being small enough. -/
theorem takeEntries_append (entries : List (Bytes × Bytes))
    (small : (entries.flatMap encodeEntry).length < Bytes.capacity 8) :
    takeEntries entries.length (entries.flatMap encodeEntry ++ rest) = .ok (entries, rest) := by
  induction entries with
  | nil => rfl
  | cons entry later ih =>
    obtain ⟨key, value⟩ := entry
    rw [List.flatMap_cons, List.length_append] at small
    simp only [encodeEntry, List.length_append, length_encodeBytes] at small
    have keyFits : key.length < Bytes.capacity 8 := by omega
    have valueFits : value.length < Bytes.capacity 8 := by omega
    have step : ∀ tail : Bytes, takeEntries (later.length + 1)
        (encodeBytes key ++ (encodeBytes value ++ tail)) = (do
          let read ← takeEntries later.length tail
          return ((key, value) :: read.1, read.2)) := by
      intro tail
      rw [takeEntries, takeBytes_append keyFits]
      show (takeBytes .endOfFile (encodeBytes value ++ tail) >>= _) = _
      rw [takeBytes_append valueFits]
      rfl
    rw [List.length_cons, List.flatMap_cons]
    simp only [encodeEntry, List.append_assoc]
    rw [step, ih (by omega)]
    rfl

theorem length_entries_le (entries : List (Bytes × Bytes)) :
    entries.length ≤ (entries.flatMap encodeEntry).length := by
  induction entries with
  | nil => exact Nat.le_refl _
  | cons entry later ih =>
    simp only [List.flatMap_cons, List.length_append, List.length_cons, encodeEntry,
      length_encodeBytes]
    omega

/-- A payload is read back, whatever stands after it. -/
theorem decodePayload_append (name : String) (entries : List (Bytes × Bytes)) (trailing : Bytes)
    (small : (encodePayload name entries).length < Bytes.capacity 8) :
    decodePayload (encodePayload name entries ++ trailing) = .ok (name, entries) := by
  have count := length_entries_le entries
  unfold encodePayload at small ⊢
  simp only [List.length_append, length_encodeBytes, Bytes.length_ofNatLE] at small
  unfold decodePayload
  rw [List.append_assoc, List.append_assoc, takeBytes_append (by omega)]
  show ((Text.Utf8.decode? (Text.Utf8.encode name)).mapError PayloadFault.nameNotText >>= _) = _
  rw [Text.Utf8.decode?_encode]
  show (takeNumber _ >>= _) = _
  rw [takeNumber_append (by omega)]
  show (takeEntries _ _ >>= _) = _
  rw [takeEntries_append entries (by omega)]
  rfl

/-! ## Files -/

/-- What stands between two parts of a file. -/
theorem field_append {before middle after : Bytes} {start size : Nat}
    (first : before.length = start) (second : middle.length = size) :
    ((before ++ (middle ++ after)).drop start).take size = middle := by
  rw [← first, List.drop_left, ← second, List.take_left]

/-- A number that fits its field of a file is read back. -/
theorem number_field {before after : Bytes} {start size n : Nat} (first : before.length = start)
    (small : n < Bytes.capacity size) :
    Bytes.toNatBE (((before ++ (Bytes.ofNatBE size n ++ after)).drop start).take size) = n := by
  rw [field_append first (Bytes.length_ofNatBE size n), Bytes.toNatBE_ofNatBE,
    Nat.mod_eq_of_lt small]

theorem length_header (id : MapId) (payload : Bytes) : (header id payload).length = headerSize := by
  simp [header, magic, headerSize]

/-- Behind a header that was made for it a payload is read, and nothing else is
asked of it. -/
theorem decode_header_append (id : MapId) (payload : Bytes)
    (small : payload.length < Bytes.capacity 8) :
    decode (header id payload ++ payload) =
      match decodePayload payload with
      | .ok (name, entries) => .ok { name, id, entries }
      | .error f => .error (.payload f) := by
  have length := length_header id payload
  have atPayload : (header id payload ++ payload).drop headerSize = payload :=
    List.drop_left' length
  have long : ¬ (header id payload ++ payload).length < headerSize := by
    rw [List.length_append, length]
    omega
  have shape : header id payload ++ payload =
      magic ++ (Bytes.ofNatBE 2 version ++ (Bytes.ofNatBE 4 id.toNat ++
        (Bytes.ofNatBE 4 (Checksum.crc32 payload).toNat ++
          (Bytes.ofNatBE 8 payload.length ++ payload)))) := by
    simp [header]
  generalize header id payload ++ payload = bytes at *
  have magicIs : bytes.take 4 = magic := by
    rw [shape]
    exact List.take_left' rfl
  have versionIs : Bytes.toNatBE ((bytes.drop 4).take 2) = version := by
    rw [shape]
    exact number_field rfl (by decide)
  have idIs : Bytes.toNatBE ((bytes.drop 6).take 4) = id.toNat := by
    rw [shape, ← List.append_assoc]
    exact number_field (by simp [magic]) id.toNat_lt
  have sumIs : Bytes.toNatBE ((bytes.drop 10).take 4) = (Checksum.crc32 payload).toNat := by
    rw [shape, ← List.append_assoc, ← List.append_assoc]
    exact number_field (by simp [magic]) (Checksum.crc32 payload).isLt
  have sizeIs : Bytes.toNatBE ((bytes.drop 14).take 8) = payload.length := by
    rw [shape, ← List.append_assoc, ← List.append_assoc, ← List.append_assoc]
    exact number_field (by simp [magic]) small
  unfold decode
  cases read : decodePayload payload with
  | ok found | error fault =>
    simp only [magicIs, versionIs, idIs, sumIs, sizeIs, atPayload, if_neg long, ne_eq,
      not_true_eq_false, if_false, UInt32.ofNat_toNat, read]

/-- A map file is read back. -/
theorem decode_encode (file : MapFile)
    (small : (encodePayload file.name file.entries).length < Bytes.capacity 8) :
    decode file.encode = .ok file := by
  have read := decodePayload_append file.name file.entries [] small
  rw [List.append_nil] at read
  show decode (header _ _ ++ _) = _
  rw [decode_header_append _ _ small, read]

end MapFile

end MapStore
