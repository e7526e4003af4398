import Rekey.CommandLine.Program
/-! # The command line

Runs the program over tables in memory, which are empty at the start and gone at the end. Log lines
go to the standard error stream. -/
namespace Rekey.CommandLine

def environment : IO TableName.Environment := do
  let names := [TableName.sourceVariable, TableName.destinationVariable]
  let values ← names.mapM fun name => do return (← IO.getEnv name).map fun value => (name, value)
  return values.filterMap id

end Rekey.CommandLine

open Rekey

def main (arguments : List String) : IO UInt32 := do
  let environment ← CommandLine.environment
  let outcome := CommandLine.perform arguments ⟨environment, 0, [], Service.Memory.empty⟩
  (← IO.getStdout).putStr outcome.output
  let errors ← IO.getStderr
  outcome.notices.reverse.forM fun notice => errors.putStrLn notice.message
  errors.putStr outcome.complaint
  return UInt32.ofNat outcome.status
