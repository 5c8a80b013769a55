import WidgetFlow.Data.Datum
import WidgetFlow.Text.Pieces
import WidgetFlow.Text.Numeral

/-!
# Reading data

Data is read from JSON text. Each function takes the text that is left and gives what it read and
what follows; the reader of values is bounded by the length of the text, which every value, item
and member shortens. Scalars and names of members are leaves, so that a notation that writes lists
and records alike can have leaves of its own.
-/

namespace WidgetFlow.Datum

open Text

/-- A blank between the parts of a JSON text. -/
def isGap (c : Char) : Bool := c == ' ' || c == '\t' || c == '\n' || c == '\r'

def skipGap (text : List Char) : List Char := text.dropWhile isGap

/-- The number that exactly `count` hexadecimal digits stand for, continued from `value`. -/
def hexCode? : Nat → Nat → List Char → Option (Nat × List Char)
  | 0, value, text => some (value, text)
  | count + 1, value, c :: text =>
    match digitValue? c with
    | some digit => hexCode? count (value * 16 + digit) text
    | none => none
  | _ + 1, _, [] => none

/-- The character with a code of exactly `count` hexadecimal digits. -/
def codeEscape? (count : Nat) (text : List Char) : Option (Char × List Char) := do
  let (code, rest) ← hexCode? count 0 text
  if code.isValidChar then some (Char.ofNat code, rest) else none

/-- The second half of a surrogate pair, written as an escape. -/
def lowHalf? (text : List Char) : Option (Nat × List Char) := do
  let (code, rest) ← (after? "\\u" text).bind (hexCode? 4 0)
  if 0xdc00 ≤ code ∧ code < 0xe000 then some (code, rest) else none

/-- The character that a `\u` escape stands for, from the text after its `u`. Two escapes make one
character if they are the two halves of a surrogate pair; a half alone stands for none. -/
def unicodeEscape? (text : List Char) : Option (Option Char × List Char) := do
  let (code, rest) ← hexCode? 4 0 text
  if 0xd800 ≤ code ∧ code < 0xdc00 then
    match lowHalf? rest with
    | some (low, rest) =>
      some (some (Char.ofNat (0x10000 + (code - 0xd800) * 0x400 + (low - 0xdc00))), rest)
    | none => some (none, rest)
  else if 0xdc00 ≤ code ∧ code < 0xe000 then some (none, rest)
  else some (some (Char.ofNat code), rest)

/-- The character that an escape other than `\u` stands for. -/
def simpleEscape? : Char → Option Char
  | '"' => some '"'
  | '\\' => some '\\'
  | '/' => some '/'
  | 'b' => some '\x08'
  | 'f' => some '\x0c'
  | 'n' => some '\n'
  | 'r' => some '\r'
  | 't' => some '\t'
  | _ => none

/-- Reads the rest of a string; `done` holds its characters so far, last first, and is `none` once an
escape stood for no character. -/
def stringFrom? : Nat → Option (List Char) → List Char → Option (Option String × List Char)
  | 0, _, _ => none
  | _ + 1, _, [] => none
  | _ + 1, done, '"' :: rest => some (done.map fun done => String.ofList done.reverse, rest)
  | bound + 1, done, '\\' :: 'u' :: rest => do
    let (found, rest) ← unicodeEscape? rest
    stringFrom? bound (found.bind fun c => done.map (c :: ·)) rest
  | bound + 1, done, '\\' :: escape :: rest => do
    let c ← simpleEscape? escape
    stringFrom? bound (done.map (c :: ·)) rest
  | bound + 1, done, c :: rest =>
    if c.toNat < 32 || c == '\\' then none else stringFrom? bound (done.map (c :: ·)) rest

/-- Reads a string after its opening quote; one in which an escape stands for no character is no
text. -/
def string? (text : List Char) : Option (Option String × List Char) :=
  stringFrom? (text.length + 1) (some []) text

/-- The digits of the whole part of a number: zero alone, or digits that do not begin with it. -/
def wholeDigits? (text : List Char) : Option (List Char × List Char) := do
  let (digits, rest) ← run1? isAsciiDigit text
  if digits.head? = some '0' ∧ digits.length ≠ 1 then none else some (digits, rest)

def skipFraction? : List Char → Option (Bool × List Char)
  | '.' :: rest => (run1? isAsciiDigit rest).map fun found => (true, found.2)
  | rest => some (false, rest)

def skipExponent? : List Char → Option (Bool × List Char)
  | c :: rest =>
    if c == 'e' || c == 'E' then
      let digits := match rest with
        | '+' :: digits => digits
        | '-' :: digits => digits
        | digits => digits
      (run1? isAsciiDigit digits).map fun found => (true, found.2)
    else some (false, c :: rest)
  | [] => some (false, [])

/-- Reads a number without its sign. Zero with a sign is no integer. -/
def number? (negative : Bool) (text : List Char) : Option (Datum × List Char) := do
  let (digits, rest) ← wholeDigits? text
  let (fraction, rest) ← skipFraction? rest
  let (exponent, rest) ← skipExponent? rest
  let value ← nat? 10 digits
  if fraction || exponent || (negative && value == 0) then some (.shapeless, rest)
  else some (.int (if negative then -(value : Int) else value), rest)

/-! ## Lists and records -/

/-- How the parts of a text are written that are neither lists nor records. -/
structure Leaves where
  scalar? : List Char → Option (Datum × List Char)
  /-- Reads the name of a member and the colon after it; a name that is no text is `none`. -/
  name? : List Char → Option (Option String × List Char)

/-- The record with the given members; it has no shape if one of their names is no text. -/
def recordOf (members : List (Option String × Datum)) : Datum :=
  match members.mapM fun member => member.1.map (·, member.2) with
  | some members => .record members
  | none => .shapeless

mutual

def value? (leaves : Leaves) : Nat → List Char → Option (Datum × List Char)
  | 0, _ => none
  | bound + 1, text =>
    match skipGap text with
    | '[' :: rest =>
      match skipGap rest with
      | ']' :: rest => some (.list [], rest)
      | rest => (items? leaves bound rest).map fun found => (.list found.1, found.2)
    | '\x7b' :: rest =>
      match skipGap rest with
      | '\x7d' :: rest => some (.record [], rest)
      | rest => (members? leaves bound rest).map fun found => (recordOf found.1, found.2)
    | rest => leaves.scalar? rest

/-- Reads the items of a list that is not empty, up to its closing bracket. -/
def items? (leaves : Leaves) : Nat → List Char → Option (List Datum × List Char)
  | 0, _ => none
  | bound + 1, text =>
    match value? leaves bound text with
    | none => none
    | some (item, rest) =>
      match skipGap rest with
      | ',' :: rest => (items? leaves bound rest).map fun found => (item :: found.1, found.2)
      | ']' :: rest => some ([item], rest)
      | _ => none

/-- Reads the members of a record that is not empty, up to its closing brace. -/
def members? (leaves : Leaves) :
    Nat → List Char → Option (List (Option String × Datum) × List Char)
  | 0, _ => none
  | bound + 1, text =>
    match leaves.name? (skipGap text) with
    | none => none
    | some (name, rest) =>
      match value? leaves bound rest with
      | none => none
      | some (value, rest) =>
        match skipGap rest with
        | ',' :: rest =>
          (members? leaves bound rest).map fun found => ((name, value) :: found.1, found.2)
        | '\x7d' :: rest => some ([(name, value)], rest)
        | _ => none

end

/-! ## JSON -/

def scalar? : List Char → Option (Datum × List Char)
  | 'n' :: 'u' :: 'l' :: 'l' :: rest => some (.null, rest)
  | 't' :: 'r' :: 'u' :: 'e' :: rest => some (.bool true, rest)
  | 'f' :: 'a' :: 'l' :: 's' :: 'e' :: rest => some (.bool false, rest)
  | '"' :: rest => (string? rest).map fun found => (found.1.elim .shapeless .str, found.2)
  | '-' :: rest => number? true rest
  | rest => number? false rest

/-- Reads the name of a member of JSON. -/
def name? : List Char → Option (Option String × List Char)
  | '"' :: text => do
    let (name, rest) ← string? text
    let rest ← after? ":" (skipGap rest)
    some (name, rest)
  | _ => none

/-- Reads a JSON text that holds one value and nothing else. -/
def parse? (text : String) : Option Datum :=
  let text := text.toList
  match value? { scalar?, name? } (text.length + 1) text with
  | some (value, rest) => if (skipGap rest).isEmpty then some value else none
  | none => none

end WidgetFlow.Datum
