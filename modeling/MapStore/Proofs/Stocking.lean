/-
MapStore.Proofs.Stocking — what a directory holds of the values put into it.

A list of puts says what a store is asked to keep: of every key of every map
the value put last (`Put.last?`), and the maps in the order of their first puts
(`Put.maps`). A directory is `Stocked` with them if it has one artifact for
each of these maps, with its place in that order for an id, and nothing else;
each artifact is a whole map file with just the last values of its map.

An engine on a stocked directory recovers those ids, finds those entries, and
numbers a new map next (`Stocked.recovers`, `Stocked.loads`). Saving a map that
one more put was made to gives a directory that is stocked with it, too
(`Stocked.put`).

There are ids for 2³² − 1 maps. A directory that holds so many is still stocked,
but no map without an id is `Numbered` there, and a put to one is not made:
`Put.made` leaves such puts out of those that are asked for.

The side conditions are those of the disk, put together in `Room`: the file
system accepts the artifacts' names, and the bytes in each artifact can be
counted in the eight bytes that it has for that.
-/
import MapStore.Proofs.Restarting
import Mathlib.Algebra.GroupWithZero.Nat
import Mathlib.Algebra.Order.BigOperators.Group.List
import Mathlib.Algebra.Order.Group.Nat
import Mathlib.Data.List.Induction
import Mathlib.Data.List.Perm.Subperm

namespace MapStore

open Artifact (fileName isValidName)
open Text.Utf8 (encode decodeLossy)

/-- A value that is put under a key of a map. -/
structure Put where
  map : String
  key : String
  value : String
  deriving DecidableEq, Repr

namespace Put

variable {puts more : List Put} {p : Put} {map key value : String} {i : Nat}

/-! ## What is put -/

/-- The value put last under the key. -/
def last? (puts : List Put) (map key : String) : Option String :=
  (puts.reverse.find? fun p => p.map == map && p.key == key).map (·.value)

/-- The maps put to, in the order of their first puts. -/
def maps (puts : List Put) : List String :=
  puts.foldl (fun names p => if p.map ∈ names then names else names ++ [p.map]) []

/-- The entry that a put makes. -/
def entry (p : Put) : Bytes × Bytes := (encode p.key, encode p.value)

/-- The bytes of a put: those of its texts, each with its length in front, and
of a number of entries. -/
def size (p : Put) : Nat :=
  32 + (encode p.map).length + (encode p.key).length + (encode p.value).length

theorem last?_append (puts : List Put) (p : Put) (map key : String) :
    last? (puts ++ [p]) map key =
      if p.map = map ∧ p.key = key then some p.value else last? puts map key := by
  unfold last?
  rw [List.reverse_append, List.reverse_singleton, List.singleton_append, List.find?_cons]
  by_cases same : p.map = map ∧ p.key = key
  · simp [same]
  · have other : (p.map == map && p.key == key) = false := by simpa using same
    rw [other, if_neg same]

/-- It was put. -/
theorem of_last? (h : last? puts map key = some value) : ⟨map, key, value⟩ ∈ puts := by
  unfold last? at h
  obtain ⟨p, found, rfl⟩ := Option.map_eq_some_iff.1 h
  have mem := List.mem_of_find?_eq_some found
  have same := List.find?_some found
  simp only [Bool.and_eq_true, beq_iff_eq] at same
  obtain ⟨rfl, rfl⟩ := same
  exact List.mem_reverse.1 mem

theorem maps_append (puts : List Put) (p : Put) :
    maps (puts ++ [p]) = if p.map ∈ maps puts then maps puts else maps puts ++ [p.map] := by
  unfold maps
  rw [List.foldl_append]
  rfl

theorem mem_maps : map ∈ maps puts ↔ ∃ p ∈ puts, p.map = map := by
  induction puts using List.reverseRecOn with
  | nil => simp [maps]
  | append_singleton puts p ih =>
    rw [maps_append]
    simp only [List.mem_append, List.mem_singleton, or_and_right, exists_or, exists_eq_left]
    rw [← ih]
    split
    · rename_i old
      exact ⟨.inl, fun either => either.elim id fun eq => eq ▸ old⟩
    · rw [List.mem_append, List.mem_singleton, @eq_comm _ map]

theorem nodup_maps (puts : List Put) : (maps puts).Nodup := by
  induction puts using List.reverseRecOn with
  | nil => exact List.nodup_nil
  | append_singleton puts p ih =>
    rw [maps_append]
    split
    · exact ih
    · rename_i new
      exact List.nodup_append.2 ⟨ih, by simp, by simp; exact fun a mem eq => new (eq ▸ mem)⟩

/-- A map has one place. -/
theorem place_unique {j : Nat} (there : (maps puts)[i]? = some map)
    (there' : (maps puts)[j]? = some map) : i = j :=
  (List.getElem?_inj (List.getElem?_eq_some_iff.1 there).1 (nodup_maps puts)).1
    (there.trans there'.symm)

/-- Later puts only add maps at the end. -/
theorem maps_prefix (puts more : List Put) : maps puts <+: maps (puts ++ more) := by
  induction more using List.reverseRecOn with
  | nil => simp
  | append_singleton more p ih =>
    rw [← List.append_assoc, maps_append]
    split
    · exact ih
    · exact ih.trans (List.prefix_append ..)

/-- Every map keeps its place. -/
theorem place_append (there : (maps puts)[i]? = some map) (more : List Put) :
    (maps (puts ++ more))[i]? = some map := by
  obtain ⟨rest, eq⟩ := maps_prefix puts more
  rw [← eq, List.getElem?_append_left (List.getElem?_eq_some_iff.1 there).1, there]

/-- After a put its map has its place. -/
theorem place_put (puts : List Put) (p : Put) :
    (maps (puts ++ [p]))[(maps puts).idxOf p.map]? = some p.map := by
  rw [maps_append]
  split
  · rename_i old
    exact List.getElem?_idxOf old
  · rename_i new
    rw [List.idxOf_eq_length new, List.getElem?_append_right (Nat.le_refl _)]
    simp

/-- The other maps had theirs before. -/
theorem place_other (there : (maps (puts ++ [p]))[i]? = some map) (ne : map ≠ p.map) :
    (maps puts)[i]? = some map := by
  have old : map ∈ maps puts := by
    have mem := List.mem_of_getElem? there
    rw [maps_append] at mem
    split at mem
    · exact mem
    · exact (List.mem_append.1 mem).resolve_right fun eq => ne (List.mem_singleton.1 eq)
  have before := List.getElem?_idxOf old
  rwa [place_unique there (place_append before [p])]

/-- The id of the map that is put to as the `i`-th, counted from 0. -/
def idAt (i : Nat) : MapId := UInt32.ofNat (i + 1)

theorem toNat_idAt (small : i < MapIds.maxId.toNat) : (idAt i).toNat = i + 1 := by
  rw [idAt, UInt32.toNat_ofNat']
  exact Nat.mod_eq_of_lt (Nat.lt_of_le_of_lt small (by decide))

/-! ## What can be put -/

/-- After the puts the map has a number, or there is one left for it. -/
def Numbered (puts : List Put) (map : String) : Prop :=
  map ∈ maps puts ∨ (maps puts).length < MapIds.maxId.toNat

instance (puts : List Put) (map : String) : Decidable (Numbered puts map) :=
  inferInstanceAs (Decidable (_ ∨ _))

/-- There are numbers for all maps after one more put. -/
theorem Numbered.countable (h : Numbered puts p.map)
    (countable : (maps puts).length ≤ MapIds.maxId.toNat) :
    (maps (puts ++ [p])).length ≤ MapIds.maxId.toNat := by
  rw [maps_append]
  split
  · exact countable
  · rename_i new
    rw [List.length_append]
    exact h.resolve_left new

/-- The puts that are made of those that are asked for: all but those to maps
that there is no number for. -/
def made (asked : List Put) : List Put :=
  asked.foldl (fun puts p => if Numbered puts p.map then puts ++ [p] else puts) []

theorem made_append (asked : List Put) (p : Put) :
    made (asked ++ [p]) =
      if Numbered (made asked) p.map then made asked ++ [p] else made asked := by
  unfold made
  rw [List.foldl_append]
  rfl

theorem made_append_of_numbered {asked : List Put} (h : Numbered (made asked) p.map) :
    made (asked ++ [p]) = made asked ++ [p] :=
  (made_append asked p).trans (if_pos h)

/-- What was made is not undone by asking for more. -/
theorem made_grows (asked more : List Put) : made asked <+: made (asked ++ more) := by
  induction more using List.reverseRecOn with
  | nil => simp
  | append_singleton more p ih =>
    rw [← List.append_assoc, made_append]
    split
    · exact ih.trans (List.prefix_append ..)
    · exact ih

/-- Where there are numbers for all maps every put is made. -/
theorem made_of_countable {asked : List Put}
    (countable : (maps asked).length ≤ MapIds.maxId.toNat) : made asked = asked := by
  induction asked using List.reverseRecOn with
  | nil => rfl
  | append_singleton asked p ih =>
    have grown := maps_prefix asked [p]
    have all := ih (grown.length_le.trans countable)
    rw [made_append, all, if_pos]
    rw [maps_append] at countable
    split at countable
    · rename_i old
      exact .inl old
    · rw [List.length_append] at countable
      exact .inr countable

end Put

open Put (idAt)

variable {dir map key value : String} {here : Place} {puts more : List Put} {p : Put}
  {disk disk' : Disk} {t : SortedTable Bytes Bytes} {ids ids' : MapIds} {id : MapId} {i : Nat}

/-! ## The tables -/

/-- The table has just the values put last to the map. -/
structure Latest (puts : List Put) (map : String) (t : SortedTable Bytes Bytes) : Prop where
  order : t.order = Bytes.compare
  entries : ∀ k v, t.get? k = some v ↔ ∃ key value, Put.last? puts map key = some value ∧
    k = encode key ∧ v = encode value

/-- Distinct members of a list weigh no more than the list. -/
theorem sum_map_le_of_subset {α : Type} (f : α → Nat) {l l' : List α} (distinct : l.Nodup)
    (among : l ⊆ l') : (l.map f).sum ≤ (l'.map f).sum := by
  obtain ⟨part, same, inside⟩ := List.subperm_of_subset distinct among
  calc (l.map f).sum = (part.map f).sum := (same.map f).sum_nat.symm
    _ ≤ (l'.map f).sum := (inside.map f).sum_le_sum fun _ _ => Nat.zero_le _

namespace Latest

theorem lawful (h : Latest puts map t) : Std.TransCmp t.order ∧ Std.LawfulEqCmp t.order := by
  rw [h.order]
  exact ⟨inferInstance, inferInstance⟩

/-- What a text finds. -/
theorem get? (h : Latest puts map t) (key : String) :
    t.get? (encode key) = (Put.last? puts map key).map encode := by
  cases found : t.get? (encode key) with
  | some v =>
    obtain ⟨key', value, last, same, rfl⟩ := (h.entries _ _).1 found
    obtain rfl := Text.Utf8.encode_inj same
    rw [last, Option.map_some]
  | none =>
    cases last : Put.last? puts map key with
    | none => rfl
    | some value =>
      rw [(h.entries _ _).2 ⟨key, value, last, rfl, rfl⟩] at found
      cases found

/-- No table has entries of a map that was never put to. -/
theorem empty (unknown : map ∉ Put.maps puts) : Latest puts map (.empty Bytes.compare) where
  order := rfl
  entries k v := by
    rw [SortedTable.get?_empty]
    refine ⟨nofun, ?_⟩
    rintro ⟨key, value, last, -⟩
    exact absurd (Put.mem_maps.2 ⟨_, Put.of_last? last, rfl⟩) unknown

/-- Tables with the same entries. -/
theorem congr {u : SortedTable Bytes Bytes} (h : Latest puts map t) (order : u.order = t.order)
    (same : ∀ k, u.get? k = t.get? k) : Latest puts map u where
  order := order.trans h.order
  entries k v := by rw [same, h.entries]

/-- The table that is made from the list when it is loaded. -/
theorem loaded (h : Latest puts map t) : Latest puts map (.ofList Bytes.compare t.toList) := by
  have trans := h.lawful.1
  have same := SortedTable.same_ofList_toList t
  rw [← h.order]
  exact h.congr (SortedTable.order_ofList ..) fun k => same.get? k

/-- A put to another map. -/
theorem other (h : Latest puts map t) (ne : p.map ≠ map) : Latest (puts ++ [p]) map t where
  order := h.order
  entries k v := by simp only [Put.last?_append, ne, false_and, if_false, h.entries]

/-- A put to the map. -/
theorem insert (h : Latest puts p.map t) :
    Latest (puts ++ [p]) p.map (t.insert (encode p.key) (encode p.value)).2 where
  order := h.order
  entries k v := by
    obtain ⟨trans, lawful⟩ := h.lawful
    rw [SortedTable.get?_insert]
    simp only [Put.last?_append, true_and]
    by_cases same : t.order (encode p.key) k = .eq
    · obtain rfl := Std.LawfulEqCmp.eq_of_compare same
      rw [if_pos same]
      constructor
      · intro eq
        cases eq
        exact ⟨p.key, p.value, if_pos rfl, rfl, rfl⟩
      · rintro ⟨key, value, last, eq, rfl⟩
        obtain rfl := Text.Utf8.encode_inj eq
        rw [if_pos rfl] at last
        cases last
        rfl
    · have other : ∀ key, k = encode key → p.key ≠ key := fun key eq eq' =>
        same (by rw [eq, eq']; exact Std.ReflCmp.compare_self)
      rw [if_neg same, h.entries]
      constructor
      · rintro ⟨key, value, last, eq, eq'⟩
        exact ⟨key, value, (if_neg (other key eq)).trans last, eq, eq'⟩
      · rintro ⟨key, value, last, eq, eq'⟩
        rw [if_neg (other key eq)] at last
        exact ⟨key, value, last, eq, eq'⟩

/-- The list of the table is a list of texts: of each key the value put last, by
the bytes of the keys. -/
theorem texts (h : Latest puts map t) :
    ∃ entries : List (String × String),
      t.toList = entries.map (fun e => (encode e.1, encode e.2)) ∧
      (∀ key value, (key, value) ∈ entries ↔ Put.last? puts map key = some value) ∧
      entries.Pairwise fun a b => Bytes.compare (encode a.1) (encode b.1) = .lt := by
  obtain ⟨trans, lawful⟩ := h.lawful
  have inside : ∀ k v, (k, v) ∈ t.toList ↔ ∃ key value, Put.last? puts map key = some value ∧
      k = encode key ∧ v = encode value := fun k v => t.mem_toList_iff.trans (h.entries k v)
  have encoded : t.toList =
      (t.toList.map fun e => (decodeLossy e.1, decodeLossy e.2)).map
        fun e => (encode e.1, encode e.2) := by
    rw [List.map_map]
    refine (List.map_id _).symm.trans (List.map_congr_left fun e mem => ?_)
    obtain ⟨key, value, -, eq, eq'⟩ := (inside e.1 e.2).1 mem
    exact Prod.ext (by simp [eq, Text.Utf8.decodeLossy_encode])
      (by simp [eq', Text.Utf8.decodeLossy_encode])
  generalize (t.toList.map fun e => (decodeLossy e.1, decodeLossy e.2)) = entries at encoded
  refine ⟨entries, encoded, fun key value => ?_, ?_⟩
  · have same := inside (encode key) (encode value)
    rw [encoded] at same
    constructor
    · intro mem
      obtain ⟨key', value', last, eq, eq'⟩ := same.1 (List.mem_map.2 ⟨_, mem, rfl⟩)
      rwa [Text.Utf8.encode_inj eq, Text.Utf8.encode_inj eq']
    · intro last
      obtain ⟨e, mem, eq⟩ := List.mem_map.1 (same.2 ⟨key, value, last, rfl, rfl⟩)
      obtain ⟨eq, eq'⟩ := Prod.mk.inj eq
      rwa [← Text.Utf8.encode_inj eq, ← Text.Utf8.encode_inj eq']
  · have ascending := t.pairwise_toList
    rw [encoded, h.order] at ascending
    exact List.pairwise_map.1 ascending

/-- The file of a map that was put to has no more bytes than all the puts. -/
theorem length_encodePayload_le (h : Latest puts map t) (known : map ∈ Put.maps puts) :
    (MapFile.encodePayload map t.toList).length ≤ (puts.map Put.size).sum := by
  obtain ⟨trans, lawful⟩ := h.lawful
  have distinct : t.toList.Nodup :=
    t.pairwise_toList.imp fun less eq => SortedTable.ne_of_lt less eq
  have among : t.toList ⊆ puts.map Put.entry := by
    rintro ⟨k, v⟩ mem
    obtain ⟨key, value, last, rfl, rfl⟩ := (h.entries k v).1 (t.mem_toList_iff.1 mem)
    exact List.mem_map.2 ⟨_, Put.of_last? last, rfl⟩
  have entries := sum_map_le_of_subset (fun e => (MapFile.encodeEntry e).length) distinct among
  obtain ⟨p, mem, rfl⟩ := Put.mem_maps.1 known
  have name : 16 + (encode p.map).length ≤ (puts.map fun p => 16 + (encode p.map).length).sum :=
    List.le_sum_of_mem (List.mem_map_of_mem mem)
  have total : (puts.map Put.size).sum = (puts.map fun p => 16 + (encode p.map).length).sum +
      ((puts.map Put.entry).map fun e => (MapFile.encodeEntry e).length).sum := by
    rw [List.map_map, ← List.sum_map_add]
    refine congrArg List.sum (List.map_congr_left fun p _ => ?_)
    simp only [Put.size, Put.entry, Function.comp, MapFile.encodeEntry, List.length_append,
      MapFile.length_encodeBytes]
    omega
  simp only [MapFile.encodePayload, List.length_append, MapFile.length_encodeBytes,
    Bytes.length_ofNatLE, List.length_flatMap]
  omega

end Latest

/-! ## Room -/

/-- The disk has room for what is put. -/
structure Room (dir : String) (puts : List Put) : Prop where
  /-- The artifacts, and the files they are written to first, have names that the
  file system accepts. -/
  accepted : ∀ i map, (Put.maps puts)[i]? = some map →
    Disk.Accepts dir (fileName map (idAt i)) ∧
      Disk.Accepts dir (MapFile.temporaryPath (fileName map (idAt i)))
  /-- After every put the bytes of each map can be counted in eight bytes. -/
  small : ∀ before, before <+: puts → ∀ map ∈ Put.maps before, ∀ t, Latest before map t →
    (MapFile.encodePayload map t.toList).length < Bytes.capacity 8

/-- There was room for the earlier puts. -/
theorem Room.of_append (h : Room dir (puts ++ more)) : Room dir puts where
  accepted i map there := h.accepted i map (Put.place_append there more)
  small before inside := h.small before (inside.trans (List.prefix_append ..))

theorem Room.earlier {before : List Put} (h : Room dir puts) (inside : before <+: puts) :
    Room dir before := by
  obtain ⟨more, rfl⟩ := inside
  exact h.of_append

/-- There is room for puts whose bytes can be counted together in eight bytes. -/
theorem Room.of_sizes
    (accepted : ∀ i map, (Put.maps puts)[i]? = some map →
      Disk.Accepts dir (fileName map (idAt i)) ∧
        Disk.Accepts dir (MapFile.temporaryPath (fileName map (idAt i))))
    (sizes : (puts.map Put.size).sum < Bytes.capacity 8) : Room dir puts where
  accepted
  small before inside map known t latest := by
    obtain ⟨more, rfl⟩ := inside
    rw [List.map_append, List.sum_append] at sizes
    exact Nat.lt_of_le_of_lt (latest.length_encodePayload_le known) (by omega)

/-! ## The directory -/

/-- The directory has an artifact for each map put to, with its last values,
and nothing else. -/
structure Stocked (disk : Disk) (dir : String) (here : Place) (puts : List Put) : Prop where
  houses : disk.Houses dir here
  countable : (Put.maps puts).length ≤ MapIds.maxId.toNat
  valid : ∀ p ∈ puts, isValidName p.map = true
  files : ∀ file, (disk.node? (here ++ [file])).isSome →
    ∃ i map, (Put.maps puts)[i]? = some map ∧ file = fileName map (idAt i)
  stored : ∀ i map, (Put.maps puts)[i]? = some map → ∃ t, Latest puts map t ∧
    disk.node? (here ++ [fileName map (idAt i)]) =
      some (.file (MapFile.encode ⟨map, idAt i, t.toList⟩))

/-- An empty directory is stocked with nothing. -/
theorem stocked_nil (houses : disk.Houses dir here) (listed : disk.list dir = .ok []) :
    Stocked disk dir here [] where
  houses
  countable := Nat.zero_le _
  valid _ mem := nomatch mem
  files file there := by
    obtain ⟨files, listed', inside⟩ := Disk.list_of_houses houses
    rw [listed] at listed'
    cases listed'
    exact absurd ((inside file).2 there) List.not_mem_nil
  stored i map there := by simp [Put.maps] at there

/-- The ids say which maps were put to, in which order. -/
structure Counts (puts : List Put) (ids : MapIds) : Prop where
  ordered : ids.Ordered
  assigned : ∀ map id, ids.get? map = some id ↔ ∃ i, (Put.maps puts)[i]? = some map ∧ id = idAt i
  lastId : ids.lastId.toNat = (Put.maps puts).length

namespace Stocked

/-- There is a number for every place. -/
theorem lt (h : Stocked disk dir here puts) (there : (Put.maps puts)[i]? = some map) :
    i < MapIds.maxId.toNat :=
  Nat.lt_of_lt_of_le (List.getElem?_eq_some_iff.1 there).1 h.countable

theorem valid_of_maps (h : Stocked disk dir here puts) (there : (Put.maps puts)[i]? = some map) :
    isValidName map = true := by
  obtain ⟨p, mem, rfl⟩ := Put.mem_maps.1 (List.mem_of_getElem? there)
  exact h.valid p mem

/-- What the name of a file in the directory says. -/
theorem parses (h : Stocked disk dir here puts) {file : String}
    (there : (disk.node? (here ++ [file])).isSome) :
    ∃ i map, (Put.maps puts)[i]? = some map ∧ file = fileName map (idAt i) ∧
      Artifact.parse file = .ok (some (map, idAt i)) := by
  obtain ⟨i, map, known, rfl⟩ := h.files file there
  exact ⟨i, map, known, rfl, Artifact.parse_fileName (h.valid_of_maps known) _⟩

/-- Ids that were recovered from all names are those of the artifacts, -/
theorem assigned (h : Stocked disk dir here puts) {files : List String} {ids : MapIds}
    (inside : ∀ file, file ∈ files ↔ (disk.node? (here ++ [file])).isSome)
    (recovers : MapIds.Recovers .empty files ids) (map : String) (id : MapId) :
    ids.get? map = some id ↔ ∃ i, (Put.maps puts)[i]? = some map ∧ id = idAt i := by
  have found : ∀ map id, ids.get? map = some id →
      ∃ i, (Put.maps puts)[i]? = some map ∧ id = idAt i := by
    intro map id got
    obtain before | ⟨file, mem, parsed⟩ := recovers.found map id got
    · cases before
    · obtain ⟨i, map', there, -, parsed'⟩ := h.parses ((inside file).1 mem)
      rw [parsed] at parsed'
      cases parsed'
      exact ⟨i, there, rfl⟩
  refine ⟨found map id, ?_⟩
  rintro ⟨i, there, rfl⟩
  obtain ⟨t, -, node⟩ := h.stored i map there
  have mem := (inside (fileName map (idAt i))).2 (by rw [node]; rfl)
  have parsed := Artifact.parse_fileName (h.valid_of_maps there) (idAt i)
  obtain ⟨id', got, -⟩ := recovers.known _ mem _ _ parsed
  obtain ⟨j, there', rfl⟩ := found map id' got
  rw [Put.place_unique there there']
  exact got

/-- and the highest is the number of the maps. -/
theorem lastId (h : Stocked disk dir here puts) {policy : RecoveryPolicy}
    {files : List String} {ids : MapIds}
    (inside : ∀ file, file ∈ files ↔ (disk.node? (here ++ [file])).isSome)
    (recovered : MapIds.recover policy files = .ok ids) :
    ids.lastId.toNat = (Put.maps puts).length := by
  have recovers := MapIds.recovers_of_recover recovered
  refine Nat.le_antisymm ?_ ?_
  · obtain none | ⟨file, mem, map, parsed⟩ := MapIds.lastId_of_foldlM recovered
    · rw [none]
      exact Nat.zero_le _
    · obtain ⟨i, map', there, -, parsed'⟩ := h.parses ((inside file).1 mem)
      rw [parsed] at parsed'
      obtain ⟨-, eq⟩ : map = map' ∧ ids.lastId = idAt i := by simpa using parsed'
      rw [eq, Put.toNat_idAt (h.lt there)]
      exact (List.getElem?_eq_some_iff.1 there).1
  · obtain none | some := Nat.eq_zero_or_pos (Put.maps puts).length
    · rw [none]
      exact Nat.zero_le _
    · have there := List.getElem?_eq_getElem (Nat.sub_lt some Nat.one_pos)
      have got := (h.assigned inside recovers _ _).2 ⟨_, there, rfl⟩
      have le := recovers.bounded (fun _ _ none => by cases none) _ _ got
      rw [UInt32.le_iff_toNat_le, Put.toNat_idAt (h.lt there)] at le
      omega

/-- The ids are recovered from the names of the artifacts. -/
theorem recovers (h : Stocked disk dir here puts) (policy : RecoveryPolicy) :
    ∃ files ids, disk.list dir = .ok files ∧ MapIds.recover policy files = .ok ids ∧
      Shelved disk dir here ids ∧ Counts puts ids := by
  obtain ⟨files, listed, inside⟩ := Disk.list_of_houses h.houses
  have kept : ∀ file ∈ files, IsKept file := by
    intro file mem
    obtain ⟨i, map, there, rfl⟩ := h.files file ((inside file).1 mem)
    exact .inl ⟨map, idAt i, h.valid_of_maps there, rfl⟩
  obtain ⟨ids, recovered⟩ := MapIds.recover_kept policy kept
  have recovers := MapIds.recovers_of_recover recovered
  exact ⟨files, ids, listed, recovered, recovers.shelved h.houses listed kept,
    recovers.ordered, h.assigned inside recovers, h.lastId inside recovered⟩

/-- What is loaded of a map, put to or not, are its last values. -/
theorem loads (h : Stocked disk dir here puts) (room : Room dir puts)
    (valid : isValidName map = true) :
    ∃ t, Latest puts map t ∧
      DirectMap.storedEntries
        (DirectMap.settingsIn map (idAt ((Put.maps puts).idxOf map)) dir) disk = .ok t.toList := by
  have path : (DirectMap.settingsIn map (idAt ((Put.maps puts).idxOf map)) dir).artifactPath =
      some (Disk.join dir (fileName map (idAt ((Put.maps puts).idxOf map)))) := rfl
  have plain := Artifact.isPlain_fileName valid (idAt ((Put.maps puts).idxOf map))
  by_cases known : map ∈ Put.maps puts
  · have there := List.getElem?_idxOf known
    obtain ⟨t, latest, node⟩ := h.stored _ map there
    have accepted := (room.accepted _ map there).1
    have found := ((Disk.at?_join h.houses plain).trans (if_pos accepted)).trans node
    exact ⟨t, latest, DirectMap.storedEntries_encode path found rfl rfl
      (room.small puts List.prefix_rfl map known t latest)⟩
  · refine ⟨_, .empty known, DirectMap.storedEntries_absent path ?_⟩
    have gone : disk.node? (here ++ [fileName map (idAt ((Put.maps puts).idxOf map))]) = none := by
      rw [← Option.not_isSome_iff_eq_none]
      intro some
      obtain ⟨i, other, there, same⟩ := h.files _ some
      obtain ⟨rfl, -⟩ := Artifact.fileName_inj same
      exact known (List.mem_of_getElem? there)
    rw [Disk.at?_join h.houses plain, gone]
    split <;> rfl

/-- Saving the map of one more put. -/
theorem put (h : Stocked disk dir here puts) (room : Room dir (puts ++ [p]))
    (numbered : Put.Numbered puts p.map) (valid : isValidName p.map = true)
    (latest : Latest (puts ++ [p]) p.map t) :
    ∃ disk', MapFile.save ⟨p.map, idAt ((Put.maps puts).idxOf p.map), t.toList⟩
        (Disk.join dir (fileName p.map (idAt ((Put.maps puts).idxOf p.map)))) disk =
          (.ok (), disk') ∧ Stocked disk' dir here (puts ++ [p]) := by
  have there := Put.place_put puts p
  generalize (Put.maps puts).idxOf p.map = i at *
  have plain := Artifact.isPlain_fileName valid (idAt i)
  obtain ⟨accepts, accepts'⟩ := room.accepted i p.map there
  -- what is in the directory is an artifact, so no directory is in the way
  have noDirectory : ∀ file, disk.node? (here ++ [file]) ≠ some .directory := by
    intro file node
    obtain ⟨j, map, there', rfl⟩ := h.files file (by rw [node]; rfl)
    obtain ⟨t', -, node'⟩ := h.stored j map there'
    rw [node] at node'
    cases node'
  obtain ⟨disk', saved, houses, nodes⟩ := Disk.save_accepted h.houses plain accepts accepts'
    (noDirectory _) (noDirectory _) ⟨p.map, idAt i, t.toList⟩
  refine ⟨disk', saved, houses, numbered.countable h.countable, fun q mem => ?_,
    fun file some => ?_, fun j map there' => ?_⟩
  · obtain old | new := List.mem_append.1 mem
    · exact h.valid q old
    · rw [List.mem_singleton.1 new]
      exact valid
  · rw [nodes] at some
    split at some
    · rename_i own
      exact ⟨i, p.map, there, own⟩
    · split at some
      · cases some
      · obtain ⟨j, map, there', rfl⟩ := h.files file some
        exact ⟨j, map, Put.place_append there' [p], rfl⟩
  · by_cases same : map = p.map
    · subst same
      rw [Put.place_unique there' there, nodes, if_pos rfl]
      exact ⟨t, latest, rfl⟩
    · have old := Put.place_other there' same
      have valid' := h.valid_of_maps old
      obtain ⟨t', latest', node⟩ := h.stored j map old
      have ne : fileName map (idAt j) ≠ fileName p.map (idAt i) := fun eq =>
        same (Artifact.fileName_inj eq).1
      rw [nodes, if_neg ne, if_neg (Artifact.fileName_ne_temporaryPath _ _ _)]
      exact ⟨t', latest'.other (Ne.symm same), node⟩

end Stocked

namespace Counts

theorem lt (h : Counts puts ids) (there : (Put.maps puts)[i]? = some map) :
    i < MapIds.maxId.toNat := by
  have last := MapIds.toNat_le_maxId ids.lastId
  rw [h.lastId] at last
  exact Nat.lt_of_lt_of_le (List.getElem?_eq_some_iff.1 there).1 last

/-- The maps put to are listed by name, each with its number. -/
theorem numbers (h : Counts puts ids) :
    (∀ name n, (name, n) ∈ ids.assignments.map (fun a => (a.1, a.2.toNat)) ↔
      ∃ i, (Put.maps puts)[i]? = some name ∧ n = i + 1) ∧
    (ids.assignments.map fun a => (a.1, a.2.toNat)).Pairwise fun a b =>
      compare a.1 b.1 = .lt := by
  have order : ids.assigned.order = compare := h.ordered
  have lawful : Std.TransCmp ids.assigned.order ∧ Std.LawfulEqCmp ids.assigned.order := by
    rw [order]
    exact ⟨inferInstance, inferInstance⟩
  obtain ⟨trans, lawful⟩ := lawful
  have inside : ∀ name id, (name, id) ∈ ids.assignments ↔
      ∃ i, (Put.maps puts)[i]? = some name ∧ id = idAt i := fun name id =>
    ids.assigned.mem_toList_iff.trans (h.assigned name id)
  refine ⟨fun name n => ?_, List.pairwise_map.2 ?_⟩
  · rw [List.mem_map]
    constructor
    · rintro ⟨⟨name, id⟩, mem, eq⟩
      cases eq
      obtain ⟨i, there, rfl⟩ := (inside name id).1 mem
      exact ⟨i, there, Put.toNat_idAt (h.lt there)⟩
    · rintro ⟨i, there, rfl⟩
      exact ⟨(name, idAt i), (inside name _).2 ⟨i, there, rfl⟩,
        Prod.ext rfl (Put.toNat_idAt (h.lt there))⟩
  · have ascending := ids.assigned.pairwise_toList
    rwa [order] at ascending

/-- No map was put to without getting a number. -/
theorem unknown_of_none (h : Counts puts ids) (got : ids.get? map = none) :
    map ∉ Put.maps puts := fun known => by
  rw [(h.assigned map _).2 ⟨_, List.getElem?_idxOf known, rfl⟩] at got
  cases got

/-- A name has its number, and a new name gets the next one if there is one left. -/
theorem idFor (h : Counts puts ids) (numbered : Put.Numbered puts map) :
    ∃ ids', ids.idFor map = .ok (idAt ((Put.maps puts).idxOf map), ids') := by
  cases got : ids.get? map with
  | some id =>
    obtain ⟨i, there, rfl⟩ := (h.assigned map id).1 got
    have known := List.mem_of_getElem? there
    rw [← Put.place_unique there (List.getElem?_idxOf known)]
    exact ⟨ids, MapIds.idFor_of_some got⟩
  | none =>
    have new := h.unknown_of_none got
    have last : ids.lastId ≠ MapIds.maxId := fun eq => by
      have left := numbered.resolve_left new
      rw [← h.lastId, eq] at left
      exact Nat.lt_irrefl _ left
    have next : ids.lastId + 1 = idAt ((Put.maps puts).idxOf map) := by
      rw [List.idxOf_eq_length new, ← h.lastId, idAt, UInt32.ofNat_add, UInt32.ofNat_toNat]
      rfl
    exact ⟨_, next ▸ MapIds.idFor_of_none got last⟩

/-- A name without a number has none, and the last number is given. -/
theorem exhausted (h : Counts puts ids) (full : ¬ Put.Numbered puts map) :
    ids.get? map = none ∧ ids.lastId = MapIds.maxId := by
  obtain ⟨new, last⟩ := not_or.1 full
  constructor
  · refine Option.eq_none_iff_forall_ne_some.2 fun id got => new ?_
    obtain ⟨i, there, -⟩ := (h.assigned map id).1 got
    exact List.mem_of_getElem? there
  · refine UInt32.toNat_inj.1 (Nat.le_antisymm (MapIds.toNat_le_maxId _) ?_)
    rw [h.lastId]
    exact Nat.le_of_not_lt last

end Counts

end MapStore
