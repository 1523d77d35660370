/-
MapStore.CommandLine.Help — the texts that explain the command line.

One text for the program and one for each command, and the version. A
description takes one line, however long, and descriptions stand in one column.
-/
namespace MapStore.CommandLine.Help

/-- The lines, each ended. -/
def lines (texts : List String) : String := String.join (texts.map (· ++ "\n"))

/-- The name and version of the program. -/
def version : String := lines ["aostore-cli 0.1.0"]

/-- What the trial run is for. -/
def workloadPurpose : String :=
  "Drive an in-memory adaptive map through a write burst and a read burst, " ++
    "printing what each background tick did"

/-- How the program is called. -/
def program : String := lines [
  "Inspect and modify aostore map storage",
  "",
  "Usage: aostore-cli [OPTIONS] <COMMAND>",
  "",
  "Commands:",
  "  maps      List the maps recovered from the storage directory",
  "  put       Store a string value under a string key",
  "  get       Print the value stored under a key",
  "  dump      Print every entry of a map in key order",
  "  workload  " ++ workloadPurpose,
  "  help      Print this message or the help of the given subcommand(s)",
  "",
  "Options:",
  "  -s, --storage <STORAGE>  Storage directory [default: ./aostore_data]",
  "      --skip-malformed     Skip artifacts with malformed ids instead of failing",
  "  -h, --help               Print help",
  "  -V, --version            Print version"]

/-- How maps are listed. -/
def maps : String := lines [
  "List the maps recovered from the storage directory",
  "",
  "Usage: aostore-cli maps",
  "",
  "Options:",
  "  -h, --help  Print help"]

/-- How a value is put. -/
def put : String := lines [
  "Store a string value under a string key",
  "",
  "Usage: aostore-cli put [OPTIONS] <MAP> <KEY> <VALUE>",
  "",
  "Arguments:",
  "  <MAP>    ",
  "  <KEY>    ",
  "  <VALUE>  ",
  "",
  "Options:",
  "  -k, --kind <KIND>  Map kind (adaptive, direct, buffered, inmemory)",
  "  -h, --help         Print help"]

/-- How a value is looked up. -/
def get : String := lines [
  "Print the value stored under a key",
  "",
  "Usage: aostore-cli get [OPTIONS] <MAP> <KEY>",
  "",
  "Arguments:",
  "  <MAP>  ",
  "  <KEY>  ",
  "",
  "Options:",
  "  -k, --kind <KIND>  ",
  "  -h, --help         Print help"]

/-- How a map is listed. -/
def dump : String := lines [
  "Print every entry of a map in key order",
  "",
  "Usage: aostore-cli dump [OPTIONS] <MAP>",
  "",
  "Arguments:",
  "  <MAP>  ",
  "",
  "Options:",
  "  -k, --kind <KIND>  ",
  "  -h, --help         Print help"]

/-- How the trial run is made. -/
def workload : String := lines [
  workloadPurpose,
  "",
  "Usage: aostore-cli workload [OPTIONS]",
  "",
  "Options:",
  "  -o, --ops <OPS>  Operations per burst [default: 1000]",
  "  -h, --help       Print help"]

/-- How help is asked for. -/
def help : String := lines [
  "Print this message or the help of the given subcommand(s)",
  "",
  "Usage: aostore-cli help [COMMAND]...",
  "",
  "Arguments:",
  "  [COMMAND]...  Print help for the subcommand(s)"]

end MapStore.CommandLine.Help
