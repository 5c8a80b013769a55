import WidgetFlow.Data.Reader

/-!
# Tables of settings

The part of TOML in which settings are written: headers of tables, and keys with a text, an
integer or a truth value. No table and no key stands twice.
-/

namespace WidgetFlow.Toml

open Text

/-- A line of a text. -/
inductive Line where
  | blank
  | header (name : String)
  | member (name : String) (value : Datum)
  deriving Repr, Inhabited

/-- A blank within a line. -/
def isGap (c : Char) : Bool := c == ' ' || c == '\t'

def skipGap (text : List Char) : List Char := text.dropWhile isGap

/-- A character that may stand in a comment or between quotes: no control but the tab. -/
def isAllowed (c : Char) : Bool := c == '\t' || (32 ≤ c.toNat && c.toNat != 127)

/-- Whether the rest of a line holds nothing but a comment. -/
def isLineEnd (text : List Char) : Bool :=
  match skipGap text with
  | [] => true
  | c :: rest => c == '#' && rest.all isAllowed

/-! ## Texts and keys -/

def escape? : Char → Option Char
  | '"' => some '"'
  | '\\' => some '\\'
  | 'b' => some '\x08'
  | 'f' => some '\x0c'
  | 'n' => some '\n'
  | 'r' => some '\r'
  | 't' => some '\t'
  | _ => none

/-- Reads the rest of a text; `done` holds its characters so far, last first. -/
def stringFrom? : Nat → List Char → List Char → Option (String × List Char)
  | 0, _, _ => none
  | _ + 1, _, [] => none
  | _ + 1, done, '"' :: rest => some (String.ofList done.reverse, rest)
  | bound + 1, done, '\\' :: 'u' :: rest => do
    let (c, rest) ← Datum.codeEscape? 4 rest
    stringFrom? bound (c :: done) rest
  | bound + 1, done, '\\' :: 'U' :: rest => do
    let (c, rest) ← Datum.codeEscape? 8 rest
    stringFrom? bound (c :: done) rest
  | bound + 1, done, '\\' :: escape :: rest => do
    let c ← escape? escape
    stringFrom? bound (c :: done) rest
  | bound + 1, done, c :: rest =>
    if !isAllowed c || c == '\\' then none else stringFrom? bound (c :: done) rest

/-- Reads a text in double quotes, or one in single quotes, which has no escapes. -/
def string? : List Char → Option (String × List Char)
  | '"' :: rest => stringFrom? (rest.length + 1) [] rest
  | '\x27' :: rest => do
    let content := rest.takeWhile (· != '\x27')
    let rest ← after? "\x27" (rest.dropWhile (· != '\x27'))
    if content.all isAllowed then some (String.ofList content, rest) else none
  | _ => none

def isKeyChar (c : Char) : Bool := isAsciiLetter c || isAsciiDigit c || c == '_' || c == '-'

def key? (text : List Char) : Option (String × List Char) :=
  match run1? isKeyChar text with
  | some (name, rest) => some (String.ofList name, rest)
  | none => string? text

/-! ## Integers -/

/-- Reads more digits in a base; one underscore may stand between two of them. -/
def moreDigits? (base : Nat) : List Char → Option (List Char × List Char)
  | [] => some ([], [])
  | c :: rest =>
    if (digitValue? c).any (· < base) then
      (moreDigits? base rest).map fun found => (c :: found.1, found.2)
    else if c == '_' && (rest.head?.bind digitValue?).any (· < base) then moreDigits? base rest
    else if c == '_' then none
    else some ([], c :: rest)

def digits? (base : Nat) (text : List Char) : Option (List Char × List Char) :=
  if (text.head?.bind digitValue?).any (· < base) then moreDigits? base text else none

/-- The integer with the given digits, if it fits in 64 bits. -/
def integer? (base : Nat) (negative : Bool) (found : List Char × List Char) :
    Option (Datum × List Char) :=
  (intWithin? 64 base (if negative then '-' :: found.1 else found.1)).map fun value =>
    (.int value, found.2)

/-- Reads a decimal integer without its sign; no other digit follows a zero at its beginning. -/
def decimal? (negative : Bool) : List Char → Option (Datum × List Char)
  | '0' :: rest => some (.int 0, rest)
  | text => (digits? 10 text).bind (integer? 10 negative)

/-- Reads an integer. One in another base has no sign. -/
def number? : List Char → Option (Datum × List Char)
  | '0' :: 'x' :: rest => (digits? 16 rest).bind (integer? 16 false)
  | '0' :: 'o' :: rest => (digits? 8 rest).bind (integer? 8 false)
  | '0' :: 'b' :: rest => (digits? 2 rest).bind (integer? 2 false)
  | '-' :: rest => decimal? true rest
  | '+' :: rest => decimal? false rest
  | rest => decimal? false rest

/-! ## Lines -/

def value? (text : List Char) : Option (Datum × List Char) :=
  match text with
  | 't' :: 'r' :: 'u' :: 'e' :: rest => some (.bool true, rest)
  | 'f' :: 'a' :: 'l' :: 's' :: 'e' :: rest => some (.bool false, rest)
  | c :: _ =>
    if c == '"' || c == '\x27' then (string? text).map fun found => (.str found.1, found.2)
    else number? text
  | [] => none

def line? (text : List Char) : Option Line :=
  if isLineEnd text then some .blank
  else match skipGap text with
    | '[' :: rest => do
      let (name, rest) ← key? (skipGap rest)
      let rest ← after? "]" (skipGap rest)
      if isLineEnd rest then some (.header name) else none
    | text => do
      let (name, rest) ← key? text
      let rest ← after? "=" (skipGap rest)
      let (value, rest) ← value? (skipGap rest)
      if isLineEnd rest then some (.member name value) else none

/-- Lines without the carriage returns before their ends; the last line has no end. -/
def withoutReturns : List (List Char) → List (List Char)
  | line :: next :: rest => (beforeLast? '\r' line).getD line :: withoutReturns (next :: rest)
  | lines => lines

/-! ## Documents -/

/-- A table with its name and its members. -/
abbrev Table := String × List (String × Datum)

/-- A document: the members before the first header, and the tables, the one that is being read
first. -/
structure Document where
  top : List (String × Datum) := []
  tables : List Table := []
  deriving Repr, Inhabited

def addMember? (members : List (String × Datum)) (name : String) (value : Datum) :
    Option (List (String × Datum)) :=
  if members.any (·.1 = name) then none else some (members ++ [(name, value)])

def Document.add? (document : Document) : Line → Option Document
  | .blank => some document
  | .header name =>
    if document.top.any (·.1 = name) || document.tables.any (·.1 = name) then none
    else some { document with tables := (name, []) :: document.tables }
  | .member name value =>
    match document.tables with
    | [] => (addMember? document.top name value).map fun top => { document with top }
    | (table, members) :: rest =>
      (addMember? members name value).map fun members =>
        { document with tables := (table, members) :: rest }

def Document.datum (document : Document) : Datum :=
  .record (document.top ++ document.tables.reverse.map fun table => (table.1, .record table.2))

/-- Reads a text. A byte order mark before it is passed over. -/
def parse? (source : String) : Option Datum := do
  let text := (after? "\ufeff" source.toList).getD source.toList
  let lines ← (withoutReturns (splitOn '\n' text)).mapM line?
  let document ← lines.foldlM Document.add? {}
  some document.datum

end WidgetFlow.Toml
