import Rekey.Decimal.Places
import Rekey.Failure
/-! # Log lines

Each thing worth a log line is a constructor; its level and its wording are functions of it. No
notice holds a secret. -/
namespace Rekey

inductive Level where
  | debug
  | info
  | warning
  | error
  deriving DecidableEq, Repr

def Level.rank : Level → Nat
  | debug => 10
  | info => 20
  | warning => 30
  | error => 40

structure Summary where
  dryRun : Value
  inspected : Int
  migrated : Int
  abandoned : Int
  elapsed : Float
  deriving Repr

/-- The elapsed time of a summary as it is reported, in whole milliseconds. -/
def Summary.reportedElapsed (s : Summary) : Float := Decimal.roundTo 3 s.elapsed

inductive Notice where
  | runStarted (dryRun : Value) (segments buffer maxConcurrency : Nat)
  | runCompleted (summary : Summary)
  | segmentExhausted (segment total count : Nat)
  | segmentFailed (segment total : Nat)
  | retrying (description : String) (attempt limit : Nat) (delay : Float) (cause : Failure)
  | recordAbandoned (key : String) (cause : Failure)
  | recordSkipped (partitionKey : String)
  deriving Repr

namespace Notice

def level : Notice → Level
  | runStarted .. | runCompleted _ | retrying .. => .info
  | segmentExhausted .. => .debug
  | segmentFailed .. => .error
  | recordAbandoned .. | recordSkipped _ => .warning

def message : Notice → String
  | runStarted dryRun segments buffer maxConcurrency =>
    "Starting migration (dry_run=" ++ dryRun.plain ++ ", segments=" ++ toString segments ++
      ", buffer=" ++ toString buffer ++ ", max_concurrency=" ++ toString maxConcurrency ++ ")"
  | runCompleted s =>
    "Migration complete (dry_run=" ++ s.dryRun.plain ++ "): inspected " ++ toString s.inspected ++
      ", migrated " ++ toString s.migrated ++ ", abandoned " ++ toString s.abandoned ++ " in " ++
      Decimal.fixed 1 s.elapsed ++ "s"
  | segmentExhausted segment total count =>
    "Segment " ++ toString segment ++ "/" ++ toString total ++ " exhausted after " ++
      toString count ++ " records"
  | segmentFailed segment total =>
    "Scan of segment " ++ toString segment ++ "/" ++ toString total ++ " failed"
  | retrying description attempt limit delay cause =>
    "Retrying " ++ description ++ " (attempt " ++ toString attempt ++ "/" ++ toString limit ++
      ") in " ++ Decimal.fixed 2 delay ++ "s after: " ++ cause.message
  | recordAbandoned key cause =>
    "Failed to migrate record for " ++ key ++ ": " ++ cause.message
  | recordSkipped partitionKey => "Skipping malformed legacy record " ++ partitionKey

end Notice
end Rekey
