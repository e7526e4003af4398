import Rekey.Service.Response
/-! # Failures

Everything that can go wrong, as causes. `Failure.message` holds the wording, `Failure.kind` the
class, and `Kind.isA` the order of the classes: a rule that handles a class handles the classes
below it. A cancellation is below no other class, so nothing that handles ordinary failures
handles it. -/
namespace Rekey

inductive LinkFault where
  | unreachable
  | closed
  | connectTimeout
  | readTimeout
  | proxy
  | handshake
  | broken
  deriving DecidableEq, Repr

/-- Faults after which the request may be sent again. -/
def LinkFault.isDropped : LinkFault → Bool
  | unreachable | closed | connectTimeout | readTimeout => true
  | proxy | handshake | broken => false

def LinkFault.message (url : String) : LinkFault → String
  | unreachable => "Could not connect to the endpoint URL: \"" ++ url ++ "\""
  | closed =>
    "Connection was closed before we received a valid response from endpoint URL: \"" ++ url ++
      "\"."
  | connectTimeout => "Connect timeout on endpoint URL: \"" ++ url ++ "\""
  | readTimeout => "Read timeout on endpoint URL: \"" ++ url ++ "\""
  | proxy => "Failed to connect to proxy URL: \"" ++ url ++ "\""
  | handshake => "SSL validation failed for " ++ url ++ " bad certificate"
  | broken => "An HTTP Client raised an unhandled exception: broken pipe"

inductive Kind where
  | ordinary
  | migration
  | store
  | transient
  | invalid
  | scan
  | value
  | runtime
  | system
  | connection
  | cancelled
  | service
  | waiter
  | link (fault : LinkFault)
  | missingEntry
  | mismatch
  | overflow
  deriving DecidableEq, Repr

def Kind.above : Kind → List Kind
  | ordinary | cancelled => []
  | migration | value | runtime | system | service | waiter | link _ | missingEntry | mismatch
  | overflow => [ordinary]
  | store | invalid | scan => [migration, ordinary]
  | transient => [store, migration, ordinary]
  | connection => [system, ordinary]

def Kind.isA (k other : Kind) : Bool := k == other || k.above.contains other

/-- A failure, told by its cause. -/
inductive Failure where
  | plain (kind : Kind) (message : String)
  | transient (message : String) (code : Option String)
  | invalid (field : String) (value : Value) (reason : String)
  | scan (segment total : Int) (cause : Failure)
  | service (response : Service.Response) (operation : String)
  | notReady (reason : String)
  | link (fault : LinkFault) (url : String)
  | missingEntry (name : String)
  | unhashable (called : String)
  | tagReserved (name : String)
  | powerTooLarge
  | integerTooLarge
  | because (failure cause : Failure)
  deriving Repr

namespace Failure

def kind : Failure → Kind
  | plain kind _ => kind
  | transient .. => .transient
  | invalid .. => .invalid
  | scan .. => .scan
  | service .. => .service
  | notReady _ => .waiter
  | link fault _ => .link fault
  | missingEntry _ => .missingEntry
  | unhashable _ | tagReserved _ => .mismatch
  | powerTooLarge | integerTooLarge => .overflow
  | because failure _ => failure.kind

def message : Failure → String
  | plain _ message => message
  | transient message _ => message
  | invalid field value reason => "Invalid " ++ field ++ " " ++ value.literal ++ ": " ++ reason
  | scan segment total cause =>
    "Scan of segment " ++ toString segment ++ "/" ++ toString total ++ " failed: " ++ cause.message
  | service response operation => response.text operation
  | notReady reason => "Waiter TableExists failed: " ++ reason
  | link fault url => fault.message url
  | missingEntry name => Text.quoted name
  | unhashable called => "unhashable type: " ++ Text.quoted called
  | tagReserved name =>
    "CounterRegistry.counter() got multiple values for argument " ++ Text.quoted name
  | powerTooLarge => "(34, 'Numerical result out of range')"
  | integerTooLarge => "int too large to convert to float"
  | because failure _ => failure.message

def cause? : Failure → Option Failure
  | because _ cause => some cause
  | _ => none

def bare : Failure → Failure
  | because failure _ => failure.bare
  | failure => failure

/-- Whether the failure is of one of the classes, or of one below them. -/
def isOneOf (kinds : List Kind) (f : Failure) : Bool := kinds.any f.kind.isA

/-- Whether the failure may be recorded and passed over; only a cancellation may not. -/
def isOrdinary (f : Failure) : Bool := f.kind.isA .ordinary

/-- Whether the failure may go away when the operation is tried again. -/
def isTransient (f : Failure) : Bool := f.kind.isA .transient

end Failure
end Rekey
