import Rekey.Value
/-! # Error responses of the table service

What the service sends back when it refuses a request. Every part may be missing, so each is an
option, and the accessors say what stands in for it. -/
namespace Rekey.Service

structure ErrorEntry where
  code : Option Value
  message : Option Value
  deriving Repr

structure Metadata where
  maxAttemptsReached : Option Value
  retryAttempts : Option Value
  httpStatus : Option Int
  deriving Repr

structure Response where
  error : Option ErrorEntry
  metadata : Option Metadata
  deriving Repr

namespace Response

def ofCode (code message : String) : Response :=
  ⟨some ⟨some (.text code), some (.text message)⟩, none⟩

def code? (r : Response) : Option Value := r.error.bind (·.code)

def message? (r : Response) : Option Value := r.error.bind (·.message)

/-- The remark about exhausted attempts that follows the operation's name. -/
def attemptsRemark (r : Response) : String :=
  match r.metadata with
  | some ⟨some reached, some attempts, _⟩ =>
    if reached.truthy then " (reached max retries: " ++ attempts.plain ++ ")" else ""
  | _ => ""

def text (r : Response) (operation : String) : String :=
  let part (v : Option Value) : String := (v.map Value.plain).getD "Unknown"
  "An error occurred (" ++ part r.code? ++ ") when calling the " ++ operation ++ " operation" ++
    r.attemptsRemark ++ ": " ++ part r.message?

/-- The error codes that stand for throttling or a failure on the server's side. -/
def transientCodes : List String :=
  ["ProvisionedThroughputExceededException", "ThrottlingException", "RequestLimitExceeded",
    "InternalServerError", "ServiceUnavailable", "TransactionConflictException"]

/-- Whether the same request may succeed later. -/
def isTransient (r : Response) : Bool :=
  match r.code? with
  | some (.text code) => transientCodes.contains code
  | _ => false

end Response
end Rekey.Service
