import Rekey.CommandLine.Command
import Rekey.Run.Turns
import Rekey.Service.Repository
import Rekey.Text.ControlSequence
/-! # The program

What the program does with its arguments: what it prints, what it logs, the status it ends with, and
the table service as it leaves it. Whatever happens after the repository has been made, its client
is closed. What is printed holds no control sequences, wherever its parts came from. -/
namespace Rekey.CommandLine

open Service (Address Client Memory Repository Session)
open TableName (Environment)

/-- The surroundings of the program: environment variables, the wall clock, the readings of the
monotonic clock, and the table service. -/
structure Surroundings (μ : Type := Memory) where
  environment : Environment
  now : Float
  clock : List Float
  service : μ

/-- What comes of the program. `level` is the level at which logging was set up, if it was. -/
structure Outcome (μ : Type := Memory) where
  status : Nat
  output : String
  complaint : String
  level : Option Level
  notices : List Notice
  service : μ

/-- How a migration leaves the program: the lines of its output, each line of complaint, all that
was logged, and the table service. -/
structure Exit (μ : Type := Memory) where
  status : Nat
  output : List String
  complaints : List String
  notices : List Notice
  service : μ

def logForm : String := "%(asctime)s %(levelname)s %(name)s %(message)s"

def tick : String := "✓ "

def cross : String := "✗ "

def addressOf (given : List Given) : Address :=
  ⟨lastValue? given "--source-table", lastValue? given "--destination-table",
    lastValue? given "--region", lastValue? given "--endpoint-url"⟩

def valueOr {α : Type} (given : List Given) (name : String) (read : String → Except String α)
    (standard : α) : α :=
  match lastValue? given name with
  | some value => match read value with
    | .ok a => a
    | .error _ => standard
  | none => standard

def configOf (given : List Given) : Config :=
  { Config.standard with
    dryRun := valueOr given "--dry-run" (fun v => (readYesNo v).map .bool) Config.standard.dryRun
    maxConcurrency := valueOr given "--max-concurrency" readSize Config.standard.maxConcurrency
    segments := valueOr given "--segments" readSize Config.standard.segments
    buffer := valueOr given "--buffer" readSize Config.standard.buffer }

def levelOf (given : List Given) : Level := valueOr given "--log-level" readLevel .info

section Migrating
variable {μ : Type}

def preamble (r : Repository μ) (c : Config) : List String :=
  ["Migrating: " ++ r.source ++ " -> " ++ r.destination,
    "  Dry run: " ++ (if c.isDry then "yes" else "no"),
    "  Segments: " ++ toString c.segments,
    "  Buffer: " ++ toString c.buffer,
    "  Max concurrency: " ++ toString c.maxConcurrency,
    ""]

def completion (dry : Bool) : String :=
  tick ++ "Migration " ++ (if dry then "dry run " else "") ++ "complete"

def report (s : Summary) : List String :=
  [completion s.dryRun.truthy,
    "  Records inspected: " ++ toString s.inspected,
    "  Records migrated: " ++ toString s.migrated] ++
  (if s.abandoned = 0 then [] else ["  Records abandoned: " ++ toString s.abandoned]) ++
  ["  Elapsed: " ++ Decimal.fixed 1 s.elapsed ++ "s"]

def noticesFrom (level : Level) (notices : List Notice) : List Notice :=
  notices.filter fun n => decide (level.rank ≤ n.level.rank)

/-- No repository could be made. -/
def Exit.refused (failure : Failure) (service : μ) : Exit μ :=
  ⟨1, [], [cross ++ failure.message], [], service⟩

def Exit.outcome (x : Exit μ) (level : Level) : Outcome μ :=
  ⟨x.status, lines x.output, lines x.complaints, some level, noticesFrom level x.notices, x.service⟩

variable [Client μ]

/-- A run has ended, or was given up, with `log` and with the repository as it is `left`. -/
def Exit.ofRun (config : Config) (made left : Repository μ) (log : List Notice)
    (ended : Option (Except Failure Summary)) : Exit μ :=
  let closed := left.close
  let head := preamble made config
  let notices := log ++ closed.notices
  match ended with
  | some (.ok summary) => ⟨0, head ++ report summary, [], notices, closed.service⟩
  | some (.error failure) =>
    ⟨1, head, [cross ++ "Migration failed: " ++ failure.message], notices, closed.service⟩
  | none => ⟨1, head, [], notices, closed.service⟩

def exitOf (given : List Given) (around : Surroundings μ) : Exit μ :=
  match Repository.create (addressOf given) around.environment around.now around.service with
  | .error failure => .refused failure around.service
  | .ok repository =>
    let config := configOf given
    let d := Run.Drive.whole config config.dryRun .zero Session.store (.new repository) .standard
      around.clock
    .ofRun config repository d.world.repository d.run.log d.outcome?

def migrate (given : List Given) (around : Surroundings μ) : Outcome μ :=
  (exitOf given around).outcome (levelOf given)

end Migrating

def createTables (given : List Given) (around : Surroundings) : Outcome :=
  match Repository.create (addressOf given) around.environment around.now around.service with
  | .error failure => ⟨1, "", lines [cross ++ failure.message], none, [], around.service⟩
  | .ok repository =>
    let (outcome, repository) := repository.createTables
    let service := repository.close.service
    match outcome with
    | .ok () =>
      ⟨0, lines [tick ++ "Tables ready: " ++ repository.source ++ ", " ++ repository.destination],
        "", none, [], service⟩
    | .error failure =>
      ⟨1, "", lines [cross ++ "Table creation failed: " ++ failure.message], none, [], service⟩

def Outcome.shown (o : Outcome) : Outcome :=
  { o with output := Text.uncontrolled o.output, complaint := Text.uncontrolled o.complaint }

def Reading.outcome (reading : Reading) (around : Surroundings) : Outcome :=
  match reading with
  | .page text => ⟨0, text, "", none, [], around.service⟩
  | .empty => ⟨2, "", rootHelp, none, [], around.service⟩
  | .misused text => ⟨2, "", text, none, [], around.service⟩
  | .command c given =>
    match c.action with
    | .migrate => migrate given around
    | .createTables => createTables given around

def perform (arguments : List String) (around : Surroundings) : Outcome :=
  ((read arguments).outcome around).shown

end Rekey.CommandLine
