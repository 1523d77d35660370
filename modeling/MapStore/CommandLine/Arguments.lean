/-
MapStore.CommandLine.Arguments — what the arguments of the command line ask.

Arguments are read from left to right. An option is written `--name` or, if it
has a letter, `-x`; letters without a value can be run together. The value of
an option is the next argument, or follows the name after `=`, or follows the
letter with or without `=`. An option is given at most once, and a value that
starts with a hyphen has to be attached. After `--` every argument is an
operand. The first operand of the program is the name of a command, which has
options and operands of its own.

`--help` and `--version` answer at once if nothing before them was wrong; all
else that is wrong, missing or too much is a misuse. The value of an option
that is an argument of its own is looked at when the next option or operand
comes; if a command comes instead, only when the arguments of the command are
read, so its `--help` answers even after such a value that is wrong.
-/
import MapStore.CommandLine.Help
import MapStore.Text.Numeral

namespace MapStore.CommandLine

/-! ## What can be asked -/

/-- A command and its operands. -/
inductive Command where
  | maps
  | put (map key value : String) (kind : Option String)
  | get (map key : String) (kind : Option String)
  | dump (map : String) (kind : Option String)
  | workload (ops : Nat)
  deriving DecidableEq, Repr

/-- A command and where to carry it out. -/
structure Request where
  storage : String
  skipMalformed : Bool
  command : Command
  deriving DecidableEq, Repr

/-- What the arguments come to. -/
inductive Reading where
  | run (request : Request)
  /-- A text is to be shown, and nothing else. -/
  | inform (text : String)
  /-- The arguments make no sense. -/
  | misuse
  deriving DecidableEq, Repr

/-! ## Options and levels -/

/-- An option of a level. -/
structure Flag where
  name : String
  letter : Option Char
  takesValue : Bool
  deriving DecidableEq, Repr

/-- What may be said at one level: of the program, or of a command. -/
structure Level where
  flags : List Flag
  /-- The commands that an operand may name. -/
  commands : List String
  /-- How many operands there are. -/
  operands : Nat
  help : String
  /-- The text of `--version`, if the level has one. -/
  version : Option String

/-- How the reading of a level ends. -/
inductive Halt where
  | misuse
  | inform (text : String)
  deriving DecidableEq, Repr

/-- A value that an option cannot have. -/
def admits (flag : Flag) (value : String) : Bool :=
  match flag.name with
  | "storage" => value != ""
  | "ops" => (Text.Numeral.parseNat Text.Numeral.maxU64 value).isOk
  | _ => true

/-- The arguments of a level read so far. -/
structure Said where
  /-- The options with their values, latest first. -/
  given : List (String × String)
  /-- The option said last, and its value once that is read. -/
  open? : Option (Flag × Option String)
  /-- The operands, latest first. -/
  operands : List String
  /-- Whether `--` was read. -/
  literal : Bool
  deriving DecidableEq, Repr

namespace Said

/-- Nothing read yet. -/
def nothing : Said := ⟨[], none, [], false⟩

/-- Whether the next argument is the value of an option. -/
def awaitsValue (s : Said) : Bool :=
  match s.open? with
  | some (_, none) => true
  | _ => false

/-- Notes an option with its value. -/
def note (s : Said) (flag : Flag) (value : String) : Except Halt Said :=
  if s.given.any (·.1 == flag.name) || !admits flag value then .error .misuse
  else .ok { s with given := (flag.name, value) :: s.given }

/-- Notes the option said last, which must have its value by now. -/
def settle (s : Said) : Except Halt Said :=
  match s.open? with
  | none => .ok s
  | some (_, none) => .error .misuse
  | some (flag, some value) => { s with open? := none }.note flag value

/-- Takes in an option: one without a value at once, one whose value is
attached with it, and else waits for the value. -/
def take (s : Said) (flag : Flag) (attached : Option String) : Except Halt Said := do
  let s ← s.settle
  if !flag.takesValue then s.note flag ""
  else match attached with
    | some value => s.note flag value
    | none => return { s with open? := some (flag, none) }

/-- The value of an option. -/
def value? (s : Said) (name : String) : Option String :=
  (s.given.find? (·.1 == name)).map (·.2)

end Said

/-! ## Reading a level -/

/-- Reads `--name` or `--name=value`. -/
def readName (level : Level) (s : Said) (name : String) (attached : Option String) :
    Except Halt Said := do
  if name == "help" && attached.isNone then
    let _ ← s.settle
    throw (.inform level.help)
  else if name == "version" && attached.isNone && level.version.isSome then
    let _ ← s.settle
    throw (.inform (level.version.getD ""))
  else match level.flags.find? (·.name == name) with
    | some flag =>
      if attached.isSome && !flag.takesValue then throw .misuse else s.take flag attached
    | none => throw .misuse

/-- Reads the letters after one hyphen. -/
def readLetters (level : Level) (s : Said) : List Char → Except Halt Said
  | [] => .ok s
  | letter :: rest => do
    if letter == 'h' then
      let _ ← s.settle
      throw (.inform level.help)
    else if letter == 'V' && level.version.isSome then
      let _ ← s.settle
      throw (.inform (level.version.getD ""))
    else match level.flags.find? (·.letter == some letter) with
      | none => throw .misuse
      | some flag =>
        if flag.takesValue then
          match rest with
          | [] => s.take flag none
          | '=' :: value => s.take flag (some (String.ofList value))
          | value => s.take flag (some (String.ofList value))
        else readLetters level (← s.take flag none) rest

/-- What stands before and after the first `=`. -/
def cutAtEquals : List Char → List Char × Option (List Char)
  | [] => ([], none)
  | '=' :: rest => ([], some rest)
  | c :: rest => let (before, after) := cutAtEquals rest; (c :: before, after)

/-- Reads an operand. -/
def readOperand (level : Level) (s : Said) (text : String) : Except Halt Said := do
  if s.operands.length < level.operands then
    let s ← s.settle
    return { s with operands := text :: s.operands }
  else throw .misuse

/-- Reads the arguments of a level, up to the command if it has commands;
answers what was said, and the command with the arguments left for it. Before
a command the option said last is not settled: the command's arguments are
read first. -/
def readLevel (level : Level) (s : Said) :
    List String → Except Halt (Said × Option (String × List String))
  | [] => return (← s.settle, none)
  | text :: rest => do
    if s.literal then readLevel level (← readOperand level s text) rest
    else if !s.awaitsValue && level.commands.contains text then
      if text == "help" then throw (helpTopic rest) else return (s, some (text, rest))
    else match text.toList with
      | ['-', '-'] => readLevel level { s with literal := true } rest
      | '-' :: '-' :: name =>
        let (name, attached) := cutAtEquals name
        readLevel level
          (← readName level s (String.ofList name) (attached.map String.ofList)) rest
      | '-' :: letter :: letters =>
        readLevel level (← readLetters level s (letter :: letters)) rest
      | _ =>
        match s.open? with
        | some (flag, none) => readLevel level { s with open? := some (flag, some text) } rest
        | _ => readLevel level (← readOperand level s text) rest
where
  /-- What `help` and the names after it show. -/
  helpTopic : List String → Halt
    | [] => .inform Help.program
    | ["maps"] => .inform Help.maps
    | ["put"] => .inform Help.put
    | ["get"] => .inform Help.get
    | ["dump"] => .inform Help.dump
    | ["workload"] => .inform Help.workload
    | ["help"] => .inform Help.help
    | _ => .misuse

/-! ## The program's levels -/

/-- The level of the program. -/
def programLevel : Level where
  flags := [⟨"storage", some 's', true⟩, ⟨"skip-malformed", none, false⟩]
  commands := ["maps", "put", "get", "dump", "workload", "help"]
  operands := 0
  help := Help.program
  version := some Help.version

/-- The option that names a map's kind. -/
def kindFlag : Flag := ⟨"kind", some 'k', true⟩

/-- The option for the number of operations. -/
def opsFlag : Flag := ⟨"ops", some 'o', true⟩

/-- The level of a command. -/
def commandLevel (flags : List Flag) (operands : Nat) (help : String) : Level :=
  { flags, commands := [], operands, help, version := none }

/-- Reads the arguments of a command. -/
def readCommand (name : String) (args : List String) : Except Halt Command := do
  match name with
  | "maps" =>
    let _ ← readLevel (commandLevel [] 0 Help.maps) .nothing args
    return .maps
  | "put" =>
    let (said, _) ← readLevel (commandLevel [kindFlag] 3 Help.put) .nothing args
    match said.operands with
    | [value, key, map] => return .put map key value (said.value? "kind")
    | _ => throw .misuse
  | "get" =>
    let (said, _) ← readLevel (commandLevel [kindFlag] 2 Help.get) .nothing args
    match said.operands with
    | [key, map] => return .get map key (said.value? "kind")
    | _ => throw .misuse
  | "dump" =>
    let (said, _) ← readLevel (commandLevel [kindFlag] 1 Help.dump) .nothing args
    match said.operands with
    | [map] => return .dump map (said.value? "kind")
    | _ => throw .misuse
  | "workload" =>
    let (said, _) ← readLevel (commandLevel [opsFlag] 0 Help.workload) .nothing args
    match (said.value? "ops").map (Text.Numeral.parseNat Text.Numeral.maxU64) with
    | none => return .workload 1000
    | some (.ok ops) => return .workload ops
    | some (.error _) => throw .misuse
  | _ => throw .misuse

/-- The directory for maps unless another is named. -/
def defaultStorage : String := "./aostore_data"

/-- Reads all the arguments. -/
def readRequest (args : List String) : Except Halt Request := do
  let (said, command) ← readLevel programLevel .nothing args
  match command with
  | none => throw .misuse
  | some (name, rest) =>
    let command ← readCommand name rest
    let said ← said.settle
    return {
      storage := (said.value? "storage").getD defaultStorage
      skipMalformed := (said.value? "skip-malformed").isSome
      command }

/-- What the arguments ask. -/
def Reading.ofArguments (args : List String) : Reading :=
  match readRequest args with
  | .ok request => .run request
  | .error (.inform text) => .inform text
  | .error .misuse => .misuse

end MapStore.CommandLine
