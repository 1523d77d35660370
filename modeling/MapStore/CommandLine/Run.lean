/-
MapStore.CommandLine.Run — carrying out what the command line asks.

Each request opens an engine of its own on the storage directory, does one
thing and closes the engine, so what one request puts the next one finds. A
request answers the text it prints; a request that is refused prints nothing
and ends with code 1, a misuse of the arguments with code 2. The lines of the
log are left out.

The text is answered when the engine is closed. `get` and `dump` print before
that, with nothing left for the close to save; if the close were refused they
would have printed what they found, and here they answer nothing.

`workload` keeps an adaptive map in memory through three bursts (new writes,
the same keys rewritten, reads), each followed by a tick, and prints what the
ticks did.
-/
import MapStore.CommandLine.Arguments
import MapStore.Engine

namespace MapStore.CommandLine

/-! ## Text of the answers -/

/-- The report in words. -/
def reportText (r : TickReport) : String :=
  let fields := [("switched_to_direct", r.switchedToDirect),
    ("switched_to_buffered", r.switchedToBuffered), ("switch_failures", r.switchFailures),
    ("merged", r.merged), ("merge_failures", r.mergeFailures),
    ("flushed", r.flushed), ("flush_failures", r.flushFailures)]
  "TickReport \x7b " ++
    ", ".intercalate (fields.map fun f => f.1 ++ ": " ++ toString f.2) ++ " \x7d"

/-- The mode in a word. -/
def modeText : MapMode → String
  | .direct => "Direct"
  | .buffered => "Buffered"

/-! ## Requests -/

/-- Opens an engine on the directory. -/
def openStorage (storage : String) (policy : RecoveryPolicy) : Action EngineHandle :=
  EngineHandle.openWith { Config.default with
    storageName := some storage, recoveryPolicy := policy }

/-- Opens a map of texts. -/
def openTextMap (e : EngineHandle) (map : String) (kind : Option String) : Action MapHandle :=
  e.openMap map (MapKind.ofTag kind) .string .string none

/-- Lists the maps that the directory holds. -/
def listMaps (storage : String) (policy : RecoveryPolicy) : Action String := do
  let disk ← Action.disk
  if !disk.isPresent storage then return Help.lines ["(no storage at " ++ storage ++ ")"]
  let ids ← Action.lift (disk.list storage >>= MapIds.recover policy)
  return Help.lines (ids.assignments.map (fun (name, id) => toString id.toNat ++ "  " ++ name) ++
    ["last id: " ++ toString ids.lastId.toNat])

/-- Puts a value. -/
def putValue (storage : String) (policy : RecoveryPolicy) (map key value : String)
    (kind : Option String) : Action String := do
  let e ← openStorage storage policy
  let m ← openTextMap e map kind
  let previous ← m.put (Text.Utf8.encode key) (Text.Utf8.encode value)
  e.close
  return Help.lines [match previous with
    | some old => "OK (replaced " ++ Text.quote (Text.Utf8.decodeLossy old) ++ ")"
    | none => "OK"]

/-- Prints a value. -/
def printValue (storage : String) (policy : RecoveryPolicy) (map key : String)
    (kind : Option String) : Action String := do
  let e ← openStorage storage policy
  let m ← openTextMap e map kind
  let value ← m.get (Text.Utf8.encode key)
  e.close
  return Help.lines [value.elim "(nil)" Text.Utf8.decodeLossy]

/-- Prints all entries of a map. -/
def printEntries (storage : String) (policy : RecoveryPolicy) (map : String)
    (kind : Option String) : Action String := do
  let e ← openStorage storage policy
  let m ← openTextMap e map kind
  let entries ← m.entries
  e.close
  return Help.lines (entries.map fun (key, value) =>
    Text.Utf8.decodeLossy key ++ "\t" ++ Text.Utf8.decodeLossy value)

/-- A key of the trial run: `key` and the number in eight digits or more. -/
def trialKey (n : Nat) : Bytes :=
  let digits := toString n
  Text.Utf8.encode ("key" ++ String.ofList (List.replicate (8 - digits.length) '0') ++ digits)

/-- Drives an adaptive map through bursts of writes and reads. -/
def runWorkload (ops : Nat) : Action String := do
  let e ← EngineHandle.openWith { Config.default with inMemory := true }
  let m ← e.openTyped "workload" (.adaptive .string .string none)
  (List.range ops).forM fun n => discard (m.put (trialKey n) (Text.Utf8.encode "value"))
  let afterWrites ← e.tick
  let modeAfterWrites ← m.mode
  (List.range ops).forM fun n => discard (m.put (trialKey n) (Text.Utf8.encode "rewritten"))
  let (pendingBefore, _) ← m.pending
  let afterRewrites ← e.tick
  let (pendingAfter, _) ← m.pending
  (List.range ops).forM fun n => discard (m.get (trialKey n))
  let afterReads ← e.tick
  let modeAfterReads ← m.mode
  let entries ← m.size
  e.close
  return Help.lines [
    "after writes: " ++ reportText afterWrites,
    "mode: " ++ modeText modeAfterWrites,
    "pending before merge: " ++ toString pendingBefore,
    "after rewrites: " ++ reportText afterRewrites,
    "pending after merge: " ++ toString pendingAfter,
    "after reads: " ++ reportText afterReads,
    "mode: " ++ modeText modeAfterReads,
    "entries: " ++ toString entries]

/-- Carries out a request; answers what it prints. -/
def carryOut (r : Request) : Action String :=
  let policy : RecoveryPolicy := if r.skipMalformed then .skip else .abort
  match r.command with
  | .maps => listMaps r.storage policy
  | .put map key value kind => putValue r.storage policy map key value kind
  | .get map key kind => printValue r.storage policy map key kind
  | .dump map kind => printEntries r.storage policy map kind
  | .workload ops => runWorkload ops

/-! ## Runs -/

/-- How a run of the program ends. -/
structure Outcome where
  code : Nat
  output : String
  deriving DecidableEq, Repr

/-- Runs the program once; answers how it ends and the disk afterwards. -/
def run (args : List String) (disk : Disk) : Outcome × Disk :=
  match Reading.ofArguments args with
  | .inform text => (⟨0, text⟩, disk)
  | .misuse => (⟨2, ""⟩, disk)
  | .run request =>
    match carryOut request (.onDisk disk) with
    | .ok output s => (⟨0, output⟩, s.disk)
    | .error _ s => (⟨1, ""⟩, s.disk)

end MapStore.CommandLine
