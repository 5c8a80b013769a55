import WidgetFlow.Data.Datum
import WidgetFlow.Text.Numeral
import WidgetFlow.Text.Pieces

/-!
# Printing data

Data is printed as JSON text with one item or member to a line, each level two blanks further in
than the one around it. An empty list or record is printed on one line.
-/

namespace WidgetFlow.Datum

open Text

def controlEscape (c : Char) : List Char :=
  let digits := hexDigits c.toNat
  '\\' :: 'u' :: List.replicate (4 - digits.length) '0' ++ digits

/-- One character of a string as it is printed between quotes. -/
def printChar (c : Char) : List Char :=
  if c = '"' then ['\\', '"']
  else if c = '\\' then ['\\', '\\']
  else if c = '\n' then ['\\', 'n']
  else if c = '\r' then ['\\', 'r']
  else if c = '\t' then ['\\', 't']
  else if c = '\x08' then ['\\', 'b']
  else if c = '\x0c' then ['\\', 'f']
  else if c.toNat < 32 then controlEscape c
  else [c]

def printString (text : String) : String :=
  String.ofList ('"' :: text.toList.flatMap printChar ++ ['"'])

def lineAt (depth : Nat) : String := "\n" ++ String.ofList (List.replicate (2 * depth) ' ')

def bracketed (opening closing : String) (depth : Nat) (parts : List String) : String :=
  if parts.isEmpty then opening ++ closing
  else opening ++ lineAt (depth + 1) ++ joinWith ("," ++ lineAt (depth + 1)) parts ++
    lineAt depth ++ closing

mutual

def printAt (depth : Nat) : Datum → String
  | null => "null"
  | bool value => if value then "true" else "false"
  | int value => decimal value
  | str text => printString text
  | word text => text
  | list items => bracketed "[" "]" depth (printItems (depth + 1) items)
  | record members => bracketed "\x7b" "\x7d" depth (printMembers (depth + 1) members)
  | shapeless => "null"

def printItems (depth : Nat) : List Datum → List String
  | [] => []
  | item :: rest => printAt depth item :: printItems depth rest

def printMembers (depth : Nat) : List (String × Datum) → List String
  | [] => []
  | (name, value) :: rest =>
    (printString name ++ ": " ++ printAt depth value) :: printMembers depth rest

end

def print (value : Datum) : String := printAt 0 value

end WidgetFlow.Datum
