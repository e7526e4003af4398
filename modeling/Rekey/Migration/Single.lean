import Rekey.Migration.Basic
import Rekey.Retry.Attempts
import Rekey.Store
/-! # Migrating one record

The migration of a record on its own, from the first attempt to its end. -/
namespace Rekey.Migration

open Counter (Tally)
open Retry (Policy)

variable {σ : Type}

/-- What came of the migration of one record. Only a cancellation comes out as a failure. -/
structure Single (σ : Type) where
  outcome : Except Failure Bool
  tally : Tally
  delays : List Float
  draws : Nat
  notices : List Notice
  world : σ

def migrate (dryRun : Bool) (policy : Policy Float) (store : Store σ) (fraction : Nat → Float)
    (world : σ) (record : Record) : Single σ :=
  if dryRun then ⟨.ok false, .zero, [], 0, [], world⟩
  else
    let t := Retry.run policy Failure.isTransient (fun world => store.migrate world record)
      (fun world _ => world) fraction world
    let notices := t.notices policy (State.describe record)
    match t.outcome with
    | .ok written =>
      ⟨.ok written, ⟨0, if written then 1 else 0, 0⟩, t.delays, t.draws, notices, t.world⟩
    | .error failure =>
      if failure.isOrdinary then
        ⟨.ok false, ⟨0, 0, 1⟩, t.delays, t.draws,
          notices ++ [.recordAbandoned record.key failure], t.world⟩
      else ⟨.error failure, .zero, t.delays, t.draws, notices, t.world⟩

end Rekey.Migration
