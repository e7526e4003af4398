import Rekey.CommandLine.Argument
import Rekey.CommandLine.Layout
/-! # Commands

The two commands and their options, the help pages made from these tables, and what a list of
arguments comes to: a page to show, a misuse, or a command with its options. -/
namespace Rekey.CommandLine

inductive Action where
  | migrate
  | createTables
  deriving DecidableEq, Repr

structure Command where
  name : String
  action : Action
  about : String
  switches : List Switch
  deriving DecidableEq, Repr

def program : String := "zae-migrator"

def version : String := "0.1.0"

def about : String := "zae-migrator registration recovery password migration CLI."

def helpSwitch : Switch := ⟨"--help", .showHelp, "Show this message and exit."⟩

def rootSwitches : List Switch :=
  [⟨"--version", .showVersion, "Show the version and exit."⟩, helpSwitch]

def addressSwitches : List Switch :=
  [⟨"--source-table", .text,
      "Table holding legacy records (default: registration-recovery-passwords)"⟩,
    ⟨"--destination-table", .text,
      "Table receiving migrated records (default: registration-recovery-passwords-v2)"⟩,
    ⟨"--region", .text, "AWS region (default: use boto3 defaults)"⟩,
    ⟨"--endpoint-url", .text,
      "AWS endpoint URL (e.g., http://localhost:4566 for LocalStack, or other " ++
        "AWS-compatible services)"⟩]

def runSwitches : List Switch :=
  [⟨"--dry-run", .yesNo,
      "Inspect records without writing anything (pass --dry-run false to migrate)  " ++
        "[default: True]"⟩,
    ⟨"--max-concurrency", .size,
      "Max concurrency for DynamoDB operations (default: 16)  [x>=1]"⟩,
    ⟨"--segments", .size,
      "The total number of segments for a DynamoDB scan (default: 1)  [x>=1]"⟩,
    ⟨"--buffer", .size,
      "Records to buffer and shuffle per window (default: 16384)  [x>=1]"⟩,
    ⟨"--log-level", .level, "Logging level (default: INFO)"⟩]

def commands : List Command :=
  [⟨"create-tables", .createTables,
      "Create the source and destination tables (for local development).", addressSwitches⟩,
    ⟨"migrate", .migrate,
      "Migrate phone-number-keyed recovery passwords to the new table.",
      addressSwitches ++ runSwitches⟩]

def Command.allSwitches (c : Command) : List Switch := c.switches ++ [helpSwitch]

def Purpose.valueName : Purpose → String
  | .showHelp | .showVersion => ""
  | .text => " TEXT"
  | .yesNo => " BOOLEAN"
  | .size => " INTEGER RANGE"
  | .level => " [debug|info|warning|error]"

def rootUsage : String := "Usage: " ++ program ++ " [OPTIONS] COMMAND [ARGS]..."

def Command.usage (c : Command) : String := "Usage: " ++ program ++ " " ++ c.name ++ " [OPTIONS]"

def lines (ls : List String) : String := String.join (ls.map (· ++ "\n"))

def optionLines (switches : List Switch) : List String :=
  "Options:" :: definitions (switches.map fun s => (s.name ++ s.purpose.valueName, s.about))

def rootHelp : String :=
  let widest := (commands.map (·.name.length)).foldl max 0
  lines ([rootUsage, "", "  " ++ about, ""] ++ optionLines rootSwitches ++ ["", "Commands:"] ++
    definitions (commands.map fun c => (c.name, abridge (pageWidth - 6 - widest) c.about)))

def Command.help (c : Command) : String :=
  lines ([c.usage, "", "  " ++ c.about, ""] ++ optionLines c.allSwitches)

def misuseText (usage path : String) (m : Misuse) : String :=
  let hint := if m.tellsUsage then [usage, "Try '" ++ path ++ " --help' for help.", ""] else []
  lines (hint ++ ["Error: " ++ m.message])

inductive Reading where
  | page (text : String)
  | empty
  | misused (text : String)
  | command (command : Command) (given : List Given)
  deriving Repr

def rootMisuse (m : Misuse) : Reading := .misused (misuseText rootUsage program m)

def shown (help : String) : Purpose → Reading
  | .showVersion => .page (program ++ ", version " ++ version ++ "\n")
  | _ => .page help

def Command.read (c : Command) (arguments : List String) : Reading :=
  let misused (m : Misuse) : Reading := .misused (misuseText c.usage (program ++ " " ++ c.name) m)
  match readArguments c.allSwitches true arguments with
  | .error m => misused m
  | .ok (given, left) =>
    match shows? given, invalid? given, left with
    | some p, _, _ => shown c.help p
    | none, some m, _ => misused m
    | none, none, [] => .command c given
    | none, none, left => misused (.surplus left)

/-- Reads the arguments that begin with the name of a command. A word that names none is
first tried as an option of the program. -/
def readCommand (arguments : List String) : Reading :=
  match arguments with
  | [] => rootMisuse .commandMissing
  | name :: rest =>
    match commands.find? (·.name == name) with
    | some c => c.read rest
    | none =>
      match readArguments rootSwitches false arguments with
      | .error m => rootMisuse m
      | .ok (given, _) => match shows? given with
        | some p => shown rootHelp p
        | none => rootMisuse (.unknownCommand name (Text.closest name (commands.map (·.name))))

def read (arguments : List String) : Reading :=
  if arguments.isEmpty then .empty
  else match readArguments rootSwitches false arguments with
    | .error m => rootMisuse m
    | .ok (given, left) =>
      match shows? given with
      | some p => shown rootHelp p
      | none => readCommand left

end Rekey.CommandLine
