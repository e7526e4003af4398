/-! # Layout of help pages

Lines are filled word by word and no word is broken. A list of terms has two columns: a term that is
too long for its column stands on a line of its own. -/
namespace Rekey.CommandLine

def pageWidth : Nat := 78

def spacedWords (spaces : Nat) (word : List Char) : List Char → List (Nat × List Char)
  | [] => if word.isEmpty then [] else [(spaces, word.reverse)]
  | ' ' :: rest =>
    if word.isEmpty then spacedWords (spaces + 1) [] rest
    else (spaces, word.reverse) :: spacedWords 1 [] rest
  | c :: rest => spacedWords spaces (c :: word) rest

/-- Fills lines of a width with words. Spaces at the end of a line are dropped. -/
def fill (width : Nat) (line : List Char) : List (Nat × List Char) → List (List Char)
  | [] => if line.isEmpty then [] else [line]
  | (spaces, word) :: rest =>
    if line.isEmpty then fill width word rest
    else if line.length + spaces + word.length ≤ width then
      fill width (line ++ List.replicate spaces ' ' ++ word) rest
    else line :: fill width word rest

def wrap (width : Nat) (text : String) : List String :=
  (fill width [] (spacedWords 0 [] text.toList)).map String.ofList

example : wrap 7 "one two  three" = ["one two", "three"] := by decide +kernel
example : wrap 9 "a  [b] long-word" = ["a  [b]", "long-word"] := by decide +kernel

def blanks (n : Nat) : String := String.ofList (List.replicate n ' ')

def termWidth : Nat := 30

def definitions (entries : List (String × String)) : List String :=
  let widest := (entries.map (·.1.length)).foldl max 0
  let column := min widest termWidth + 2
  entries.flatMap fun (term, text) =>
    let lines := wrap (pageWidth - column - 2) text
    let margin := blanks (column + 2)
    if term.length + 2 ≤ column then
      match lines with
      | [] => ["  " ++ term]
      | first :: rest =>
        ("  " ++ term ++ blanks (column - term.length) ++ first) :: rest.map (margin ++ ·)
    else ("  " ++ term) :: lines.map (margin ++ ·)

def keptWords (limit : Nat) (words : List (List Char)) : List (List Char) :=
  let fits (kept : List (List Char)) : Bool :=
    kept.flatten.length + (kept.length - 1) + 3 ≤ limit
  ((List.range (words.length + 1)).reverse.map words.take |>.find? fits).getD []

def abridge (limit : Nat) (sentence : String) : String :=
  if sentence.length ≤ limit then sentence
  else
    let words := (spacedWords 0 [] sentence.toList).map (·.2)
    String.ofList ([' '].intercalate (keptWords limit words)) ++ "..."

example : abridge 12 "Make the tables." = "Make the..." := by decide +kernel

end Rekey.CommandLine
