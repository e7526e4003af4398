import Rekey.Record
import Rekey.Stream
/-! # Stores

A store is what a run works on: it reads segments of the source record by record and migrates single
records. Its state of type `σ` is whatever it needs to answer. A store asked for what comes next in
a segment may have no answer yet; it is then asked again. Asked to migrate a record, it tells whether
the record was written. -/
namespace Rekey

structure Store (σ : Type) where
  read : σ → (segment total : Nat) → Option (Answer Record) × σ
  migrate : σ → Record → Except Failure Bool × σ

end Rekey
