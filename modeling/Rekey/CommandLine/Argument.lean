import Rekey.Notice
import Rekey.Text.Numeral
import Rekey.Text.Quoted
import Rekey.Text.Similarity
/-! # Arguments

What may stand on a command line is a table of options. Reading arguments against the table gives
the options in the order in which they were given and the arguments left over, or the misuse that
was found first. Values are checked afterwards, and the last value of an option counts. -/
namespace Rekey.CommandLine

inductive Purpose where
  | showHelp
  | showVersion
  | text
  | yesNo
  | size
  | level
  deriving DecidableEq, Repr

def Purpose.takesValue : Purpose → Bool
  | showHelp | showVersion => false
  | text | yesNo | size | level => true

structure Switch where
  name : String
  purpose : Purpose
  about : String
  deriving DecidableEq, Repr

inductive Misuse where
  | unknownOption (name : String) (similar : List String)
  | needlessValue (name : String)
  | valueMissing (name : String)
  | unknownCommand (name : String) (similar : List String)
  | commandMissing
  | surplus (arguments : List String)
  | invalidValue (name reason : String)
  deriving DecidableEq, Repr

def suggestion : List String → String
  | [] => ""
  | [name] => " Did you mean " ++ Text.quoted name ++ "?"
  | names => " (Did you mean one of: " ++ ", ".intercalate (names.map Text.quoted) ++ "?)"

def Misuse.message : Misuse → String
  | unknownOption name similar => "No such option " ++ Text.quoted name ++ "." ++ suggestion similar
  | needlessValue name => "Option " ++ Text.quoted name ++ " does not take a value."
  | valueMissing name => "Option " ++ Text.quoted name ++ " requires an argument."
  | unknownCommand name similar =>
    "No such command " ++ Text.quoted name ++ "." ++ suggestion similar
  | commandMissing => "Missing command."
  | surplus [argument] => "Got unexpected extra argument (" ++ argument ++ ")"
  | surplus arguments => "Got unexpected extra arguments (" ++ " ".intercalate arguments ++ ")"
  | invalidValue name reason => "Invalid value for '" ++ name ++ "': " ++ reason

/-- Whether a misuse is told together with how the program is called. An option that is known, and
only lacks its value or has one too many, is told alone. -/
def Misuse.tellsUsage : Misuse → Bool
  | needlessValue _ | valueMissing _ => false
  | unknownOption .. | unknownCommand .. | commandMissing | surplus _ | invalidValue .. => true

structure Given where
  switch : Switch
  value : Option String
  deriving DecidableEq, Repr

def isOption (argument : String) : Bool :=
  match argument.toList with
  | '-' :: _ :: _ => true
  | _ => false

def nameAndValue (argument : String) : String × Option String :=
  let s := argument.toList
  let name := String.ofList (s.takeWhile (· != '='))
  match s.dropWhile (· != '=') with
  | [] => (name, none)
  | _ :: value => (name, some (String.ofList value))

example : nameAndValue "--buffer=a=b" = ("--buffer", some "a=b") := by decide +kernel
example : nameAndValue "--buffer" = ("--buffer", none) := by decide +kernel

/-- The misuse of an option that is not in the table. Behind a single dash, options would be single
letters, and the first of them is not known. -/
def unknown (switches : List Switch) (argument : String) : Misuse :=
  match argument.toList with
  | '-' :: '-' :: _ =>
    let name := (nameAndValue argument).1
    .unknownOption name (Text.closest name (switches.map (·.name)))
  | s => .unknownOption (String.ofList (s.take 2)) []

/-- Reads arguments: the options given and the arguments left over. Two dashes end the options. If
`mixed`, options may follow other arguments. -/
def readArguments (switches : List Switch) (mixed : Bool) :
    List String → Except Misuse (List Given × List String)
  | [] => .ok ([], [])
  | argument :: rest =>
    if argument == "--" then .ok ([], rest)
    else if isOption argument then
      let (name, attached) := nameAndValue argument
      match switches.find? (·.name == name) with
      | none => .error (unknown switches argument)
      | some switch =>
        match switch.purpose.takesValue, attached, rest with
        | false, some _, _ => .error (.needlessValue name)
        | false, none, rest =>
          (readArguments switches mixed rest).map fun (given, left) =>
            (⟨switch, none⟩ :: given, left)
        | true, some value, rest =>
          (readArguments switches mixed rest).map fun (given, left) =>
            (⟨switch, some value⟩ :: given, left)
        | true, none, [] => .error (.valueMissing name)
        | true, none, value :: rest =>
          (readArguments switches mixed rest).map fun (given, left) =>
            (⟨switch, some value⟩ :: given, left)
    else if mixed then
      (readArguments switches mixed rest).map fun (given, left) => (given, argument :: left)
    else .ok ([], argument :: rest)

def shows? (given : List Given) : Option Purpose :=
  (given.map (·.switch.purpose)).find? fun p => p == .showHelp || p == .showVersion

def lastValue? (given : List Given) (name : String) : Option String :=
  ((given.filter (·.switch.name == name)).getLast?).bind (·.value)

def lowered (s : String) : String := s.map fun c =>
  if 'A' ≤ c && c ≤ 'Z' then Char.ofNat (c.toNat + 32) else c

def readYesNo (value : String) : Except String Bool :=
  let word := lowered (String.ofList (Text.trimBlanks value.toList))
  if ["1", "on", "t", "true", "y", "yes"].contains word then .ok true
  else if ["", "0", "f", "false", "n", "no", "off"].contains word then .ok false
  else .error (Text.quoted value ++ " is not a valid boolean. Recognized values: " ++
    ", 0, 1, f, false, n, no, off, on, t, true, y, yes")

def readSize (value : String) : Except String Nat :=
  match Text.readInteger? value with
  | none => .error (Text.quoted value ++ " is not a valid integer range.")
  | some n =>
    if n < 1 then .error (toString n ++ " is not in the range x>=1.") else .ok n.toNat

def readLevel (value : String) : Except String Level :=
  match lowered value with
  | "debug" => .ok .debug
  | "info" => .ok .info
  | "warning" => .ok .warning
  | "error" => .ok .error
  | _ => .error (Text.quoted value ++ " is not one of 'debug', 'info', 'warning', 'error'.")

def refusal? (purpose : Purpose) (value : String) : Option String :=
  let reason {α : Type} : Except String α → Option String
    | .ok _ => none
    | .error reason => some reason
  match purpose with
  | .yesNo => reason (readYesNo value)
  | .size => reason (readSize value)
  | .level => reason (readLevel value)
  | _ => none

/-- The first misuse among the values given, options being taken in the order of their first use. -/
def invalid? (given : List Given) : Option Misuse :=
  given.findSome? fun g =>
    (lastValue? given g.switch.name).bind fun value =>
      (refusal? g.switch.purpose value).map (.invalidValue g.switch.name)

end Rekey.CommandLine
