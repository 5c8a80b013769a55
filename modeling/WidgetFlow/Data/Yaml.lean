import WidgetFlow.Data.Reader

/-!
# JSON text as YAML

Data may also be given as YAML, of which only JSON text is read, and a text without any content,
which stands for a record without members. Not every JSON text is YAML, and not every one means the
same there: a scalar without quotes is whatever its place asks for, an escape has to stand for a
character by itself, and line ends inside strings are folded.
-/

namespace WidgetFlow.Yaml

open Text

/-- A character that may stand in a text. -/
def isAllowed (c : Char) : Bool :=
  c == '\t' || c == '\n' || c == '\r' || (' ' ≤ c && c ≤ '~') || c == '\x85' ||
    ('\xa0' ≤ c && c != '\ufffe' && c != '\uffff')

/-- A character that ends a line. -/
def isBreak (c : Char) : Bool :=
  c == '\n' || c == '\r' || c == '\x85' || c == '\u2028' || c == '\u2029'

/-- A blank within a line. -/
def isGap (c : Char) : Bool := c == ' ' || c == '\t'

/-! ## Strings -/

/-- The line ends in a text. The separators of lines and paragraphs stay what they are, and all
others are alike. -/
def breaks : List Char → List Char
  | '\r' :: '\n' :: rest => '\n' :: breaks rest
  | c :: rest =>
    if c == '\u2028' || c == '\u2029' then c :: breaks rest
    else if isBreak c then '\n' :: breaks rest
    else breaks rest
  | [] => []

/-- What blanks and line ends stand for inside a string. Blanks around line ends count for nothing.
One line end is a blank, and more are one less, unless the first is a separator. -/
def fold (blanks : List Char) : List Char :=
  match breaks blanks with
  | [] => blanks
  | ['\n'] => [' ']
  | '\n' :: more => more
  | found => found

/-- Reads the rest of a string; `done` holds its characters so far, last first. -/
def stringFrom? : Nat → List Char → List Char → Option (String × List Char)
  | 0, _, _ => none
  | _ + 1, _, [] => none
  | _ + 1, done, '"' :: rest => some (String.ofList done.reverse, rest)
  | bound + 1, done, '\\' :: 'u' :: rest => do
    let (c, rest) ← Datum.codeEscape? 4 rest
    stringFrom? bound (c :: done) rest
  | bound + 1, done, '\\' :: escape :: rest => do
    let c ← Datum.simpleEscape? escape
    stringFrom? bound (c :: done) rest
  | bound + 1, done, c :: rest =>
    if c == '\\' then none
    else if isGap c || isBreak c then
      let isBlank := fun c => isGap c || isBreak c
      stringFrom? bound ((fold (c :: rest.takeWhile isBlank)).reverse ++ done)
        (rest.dropWhile isBlank)
    else stringFrom? bound (c :: done) rest

/-- Reads a string after its opening quote. -/
def string? (text : List Char) : Option (String × List Char) := stringFrom? (text.length + 1) [] text

/-! ## Documents -/

def scalar? : List Char → Option (Datum × List Char)
  | '"' :: text => (string? text).map fun found => (.str found.1, found.2)
  | text => (Datum.scalar? text).map fun found =>
    (.word (String.ofList (text.take (text.length - found.2.length))), found.2)

/-- The largest distance from the beginning of a name to its colon. -/
def nameLimit : Nat := 1024

/-- Reads the name of a member, which is short and stands on one line with its colon. -/
def name? (text : List Char) : Option (Option String × List Char) := do
  let quoted ← after? "\"" text
  let (name, rest) ← string? quoted
  let rest := rest.dropWhile isGap
  let written := text.take (text.length - rest.length)
  let rest ← after? ":" rest
  if written.length ≤ nameLimit && !written.any isBreak then some (some name, rest) else none

def lines (text : List Char) : List (List Char) :=
  splitOn '\n' (text.map fun c => if isBreak c then '\n' else c)

/-- Whether a line holds nothing but a comment. Nothing but spaces may stand before it. -/
def isBlankLine (line : List Char) : Bool :=
  match line.dropWhile (· == ' ') with
  | [] => true
  | c :: _ => c == '#'

/-- Whether nothing follows the value of a document. -/
def isEnd (text : List Char) : Bool :=
  match lines text with
  | [] => true
  | line :: rest => line.all isGap && rest.all isBlankLine

/-- Reads a text that has content. No tab may stand before it. -/
def content? (text : List Char) : Option Datum :=
  let text := text.dropWhile fun c => c == ' ' || isBreak c
  if text.head? = some '\t' then none
  else
    match Datum.value? { scalar?, name? } (text.length + 1) text with
    | some (value, rest) => if isEnd rest then some value else none
    | none => none

/-- Reads a text. A byte order mark before it is passed over. -/
def parse? (source : String) : Option Datum :=
  let text := (after? "\ufeff" source.toList).getD source.toList
  if !text.all isAllowed then none
  else if (lines text).all isBlankLine then some (.record [])
  else content? text

end WidgetFlow.Yaml
