import Rekey.Service.Item
/-! # Requests to the table service

Each request has the name of its operation and its parameters, which are what is sent. -/
namespace Rekey.Service

inductive Request where
  | openClient (region endpoint : Option String)
  | closeClient
  | createTable (definition : KeySpace.Definition)
  | getWaiter
  | wait (table : String)
  | deleteTable (table : String)
  | putItem (table : String) (item : Item) (onlyIfAbsent : Bool)
  | getItem (table : String) (key : Item)
  | scan (table : String) (part : Option (Int × Int)) (startKey : Option Value)
  deriving Repr

namespace Request

def operation : Request → String
  | openClient .. => "client"
  | closeClient => "close"
  | createTable _ => "create_table"
  | getWaiter => "get_waiter"
  | wait _ => "wait"
  | deleteTable _ => "delete_table"
  | putItem .. => "put_item"
  | getItem .. => "get_item"
  | scan .. => "scan"

def title : Request → String
  | createTable _ => "CreateTable"
  | deleteTable _ => "DeleteTable"
  | putItem .. => "PutItem"
  | getItem .. => "GetItem"
  | scan .. => "Scan"
  | r => r.operation

def optional (s : Option String) : Value := (s.map Value.text).getD .null

/-- The condition under which an item is written only if there is none. -/
def absence : List (String × Value) :=
  [("ConditionExpression", .text "attribute_not_exists(#pk)"),
    ("ExpressionAttributeNames", .map [("#pk", .text "PK")])]

def parameters : Request → Value
  | openClient region endpoint =>
    .map [("service", .text "dynamodb"), ("region_name", optional region),
      ("endpoint_url", optional endpoint)]
  | closeClient => .map []
  | createTable definition => .map definition.parameters
  | getWaiter => .map [("name", .text "table_exists")]
  | wait table => .map [("TableName", .text table)]
  | deleteTable table => .map [("TableName", .text table)]
  | putItem table item onlyIfAbsent =>
    .map ([("TableName", .text table), ("Item", item.toValue)] ++
      if onlyIfAbsent then absence else [])
  | getItem table key =>
    .map [("TableName", .text table), ("Key", key.toValue), ("ConsistentRead", .bool true)]
  | scan table part startKey =>
    .map ([("TableName", .text table),
        ("FilterExpression", .text "begins_with(#pk, :legacy)"),
        ("ExpressionAttributeNames", .map [("#pk", .text "PK")]),
        ("ExpressionAttributeValues",
          .map [(":legacy", (Attribute.ofText KeySpace.legacyPrefix).toValue)])] ++
      (match part with
        | some (segment, total) => [("Segment", .int segment), ("TotalSegments", .int total)]
        | none => []) ++
      (match startKey with
        | some key => [("ExclusiveStartKey", key)]
        | none => []))

end Request

structure Page where
  items : List Item
  lastKey : Option Value
  deriving Repr

/-- The key after which the scan goes on, if the page is not the last. -/
def Page.next? (p : Page) : Option Value := p.lastKey.filter Value.truthy

end Rekey.Service
