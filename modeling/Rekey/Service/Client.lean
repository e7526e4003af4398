import Rekey.Service.Request
/-! # Clients

What a repository asks of the table service, whatever stands behind it. -/
namespace Rekey.Service

/-- The operations of a client on a service with states in `μ`: the answer to each, and the service
after it. There is none to `note`, which marks a step in the life of the client. A page is one of a
scan of a segment, or of the whole table. -/
class Client (μ : Type) where
  note : μ → Request → μ
  createTable : μ → (definition : KeySpace.Definition) → Except Failure Unit × μ
  waitFor : μ → (name : String) → Except Failure Unit × μ
  deleteTable : μ → (name : String) → Except Failure Unit × μ
  putItem : μ → (name : String) → (item : Item) → (onlyIfAbsent : Bool) → Except Failure Unit × μ
  getItem : μ → (name : String) → (key : Item) → Except Failure (Option Item) × μ
  scan : μ → (name : String) → (part : Option (Int × Int)) → (startKey : Option Value) →
    Except Failure Page × μ

end Rekey.Service
