/-! # Control sequences

A text may hold sequences that control a terminal: an escape character and an opening bracket, then
parameters, then intermediate characters, then one final character. Where there is no terminal they
are left out. One that breaks off before its final character is text like any other. -/
namespace Rekey.Text

def isParameter (c : Char) : Bool := '0' ≤ c && c ≤ '?'

def isIntermediate (c : Char) : Bool := ' ' ≤ c && c ≤ '/'

def isFinal (c : Char) : Bool := '@' ≤ c && c ≤ '~'

/-- What stands behind a control sequence whose opening bracket has just been read; nothing when the
sequence breaks off. -/
def afterSequence? (s : List Char) : Option (List Char) :=
  match (s.dropWhile isParameter).dropWhile isIntermediate with
  | [] => none
  | c :: rest => if isFinal c then some rest else none

theorem length_lt_of_afterSequence? {s rest : List Char} (h : afterSequence? s = some rest) :
    rest.length < s.length := by
  unfold afterSequence? at h
  have outer := (List.dropWhile_sublist isIntermediate (l := s.dropWhile isParameter)).length_le
  have inner := (List.dropWhile_sublist isParameter (l := s)).length_le
  split at h
  · cases h
  · next c tail eq =>
    rw [eq, List.length_cons] at outer
    split at h
    · cases h
      omega
    · cases h

def uncontrolledChars : List Char → List Char
  | [] => []
  | '\x1b' :: '[' :: s =>
    match h : afterSequence? s with
    | some rest =>
      have := length_lt_of_afterSequence? h
      uncontrolledChars rest
    | none => '\x1b' :: '[' :: uncontrolledChars s
  | c :: s => c :: uncontrolledChars s
termination_by s => s.length

def uncontrolled (s : String) : String := String.ofList (uncontrolledChars s.toList)

example : uncontrolled "\x1b[31mred\x1b[0m" = "red" := by decide +kernel
example : uncontrolled "\x1b[\x1b[31mm" = "\x1b[m" := by decide +kernel
example : uncontrolled "cut \x1b[3" = "cut \x1b[3" := by decide +kernel

end Rekey.Text
