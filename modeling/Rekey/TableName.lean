import Rekey.Failure
/-! # Table names

A name is taken from the first non-empty one of an explicit name, an environment variable and a
default, and is then checked. The checks run in a fixed order and the first that fails is the
reason given. -/
namespace Rekey.TableName

def allowed (c : Char) : Bool :=
  ('A' ≤ c && c ≤ 'Z') || ('a' ≤ c && c ≤ 'z') || ('0' ≤ c && c ≤ '9') ||
    c == '_' || c == '.' || c == '-'

/-- A line of allowed characters, not empty. One line break after it does not count. -/
def isAllowedLine (s : List Char) : Bool :=
  match s.dropWhile allowed with
  | [] => !s.isEmpty
  | ['\n'] => 1 < s.length
  | _ => false

def refusal? (name : String) : Option String :=
  let s := name.toList
  if s.isEmpty then some "Name cannot be empty"
  else if s.contains ' ' then
    some "Contains spaces. Use hyphens instead (e.g., 'my-table' not 'my table')"
  else if !isAllowedLine s then
    some "Only alphanumeric characters, underscores, hyphens and periods are allowed."
  else if s.length < 3 || 255 < s.length then some "Must be between 3 and 255 characters."
  else none

def validate (name : String) : Except Failure Unit :=
  match refusal? name with
  | some reason => .error (.invalid "table_name" (.text name) reason)
  | none => .ok ()

/-- The first text that is not empty. -/
def firstNonempty (default : String) : List (Option String) → String
  | [] => default
  | some s :: rest => if s.isEmpty then firstNonempty default rest else s
  | none :: rest => firstNonempty default rest

def resolve (explicit environment : Option String) (default : String) : Except Failure String :=
  let name := firstNonempty default [explicit, environment]
  (validate name).map fun _ => name

def sourceVariable : String := "ZAEM_SOURCE_TABLE"

def destinationVariable : String := "ZAEM_DESTINATION_TABLE"

def defaultSource : String := "registration-recovery-passwords"

def defaultDestination : String := "registration-recovery-passwords-v2"

abbrev Environment := List (String × String)

def resolveSource (explicit : Option String) (env : Environment) : Except Failure String :=
  resolve explicit (env.lookup sourceVariable) defaultSource

def resolveDestination (explicit : Option String) (env : Environment) : Except Failure String :=
  resolve explicit (env.lookup destinationVariable) defaultDestination

theorem resolve_eq_ok_iff {explicit environment : Option String} {default name : String} :
    resolve explicit environment default = .ok name ↔
      firstNonempty default [explicit, environment] = name ∧ refusal? name = none := by
  simp only [resolve, validate]
  split
  · next reason h => simp only [Except.map, reduceCtorEq, false_iff]; rintro ⟨rfl, h'⟩; simp_all
  · next h => simp only [Except.map, Except.ok.injEq]
              constructor
              · rintro rfl; exact ⟨rfl, h⟩
              · exact fun h' => h'.1

end Rekey.TableName
