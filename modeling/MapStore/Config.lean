/-
MapStore.Config — how an engine is set up.

A configuration is written field by field, or read from options, that is from
key and value texts (`ofOptions`). Options are read from left to right, so the
last value of a key counts and the first one that cannot be read is the one
reported. Numbers may stand between blanks. The presence of `inMemory` is what
counts, not its value. Options with other keys are kept for the maps.
-/
import MapStore.Error
import MapStore.ModePolicy
import MapStore.SortedTable
import MapStore.Text.Blank

namespace MapStore

/-- What to do at start with a file whose name has a malformed map id. -/
inductive RecoveryPolicy where
  /-- Refuse to start. -/
  | abort
  /-- Pass over the file. -/
  | skip
  deriving DecidableEq, Repr

/-- The set-up of an engine. -/
structure Config where
  /-- Keep every map in memory, whatever `storageName` says. -/
  inMemory : Bool
  /-- The directory for the maps' files. -/
  storageName : Option String
  recoveryPolicy : RecoveryPolicy
  /-- The wait between two background ticks, in milliseconds. -/
  backgroundInterval : Nat
  /-- The share in percent above which an adaptive map changes its mode. -/
  adaptiveThreshold : Nat
  /-- The worker threads for merges; 0 for as many as the machine runs. -/
  mergeWorkers : Nat
  /-- Options for the maps, by key. -/
  options : SortedTable String String

namespace Config

/-- The set-up unless something else is said. -/
def default : Config where
  inMemory := false
  storageName := none
  recoveryPolicy := .abort
  backgroundInterval := 1000
  adaptiveThreshold := ModePolicy.defaultThreshold
  mergeWorkers := 0
  options := .empty compare

/-- The directory that maps are kept in, if they are kept at all. -/
def storageDir (c : Config) : Option String := if c.inMemory then none else c.storageName

/-- Adds an option for the maps; a later one with the same key replaces it. -/
def withOption (c : Config) (key value : String) : Config :=
  { c with options := (c.options.insert key value).2 }

/-! ## Options -/

/-- A number from 0 to `limit` between blanks. -/
def readNumber (limit : Nat) (key value : String) : Except StoreError Nat :=
  (Text.Numeral.parseNat limit (Text.trim value)).mapError fun cause =>
    .config ("option " ++ key ++ "=" ++ Text.quote value ++ ": " ++ cause.message)

/-- A recovery policy, in letters of any case. -/
def readPolicy (value : String) : Except StoreError RecoveryPolicy :=
  match Text.asciiLower value with
  | "abort" => .ok .abort
  | "skip" => .ok .skip
  | other =>
    .error (.config
      ("unknown recovery policy " ++ Text.quote other ++ " (expected abort or skip)"))

/-- The set-up with one more option. -/
def withPair (c : Config) : String × String → Except StoreError Config
  | ("inMemory", _) => .ok { c with inMemory := true }
  | ("storageName", value) => .ok { c with storageName := some value }
  | ("backgroundInterval", value) =>
    (readNumber Text.Numeral.maxU64 "backgroundInterval" value).map
      ({ c with backgroundInterval := · })
  | ("adaptiveThreshold", value) =>
    (readNumber Text.Numeral.maxU32 "adaptiveThreshold" value).map
      ({ c with adaptiveThreshold := · })
  | ("mergeWorkers", value) =>
    (readNumber Text.Numeral.maxU64 "mergeWorkers" value).map ({ c with mergeWorkers := · })
  | ("recoveryPolicy", value) => (readPolicy value).map ({ c with recoveryPolicy := · })
  | (key, value) => .ok (c.withOption key value)

/-- The set-up that options describe. -/
def ofOptions (pairs : List (String × String)) : Except StoreError Config :=
  pairs.foldlM withPair default

end Config

end MapStore
