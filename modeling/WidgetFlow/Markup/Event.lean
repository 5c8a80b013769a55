import WidgetFlow.Markup.Attributes
import WidgetFlow.Text.Blank
import WidgetFlow.Text.Pieces

/-!
# Markup events

A markup text is read as a list of events: elements begin and end, and texts stand between them.
Comments, declarations, character data and processing instructions give no event. An end that does
not fit and a part without an end make a fault, which is the last event. Elements that are still
open at the end of the text are no fault.
-/

namespace WidgetFlow.Markup

open Text

/-- A piece of markup. -/
inductive Event where
  /-- An element begins; if it is empty it ends at once, without an event of its own. -/
  | start (name : String) (attrs : Attributes) (empty : Bool)
  | stop (name : String)
  | text (content : String)
  /-- The text cannot be read any further. -/
  | fault
  deriving DecidableEq, Repr, Inhabited

/-- The text of a tag up to its closing bracket, which does not stand in quotes, and what follows.
At the end of the text the bracket may be missing. -/
def splitTag (quote : Option Char) : List Char → List Char × List Char
  | [] => ([], [])
  | c :: rest =>
    let quote' := match quote with
      | none => if c == '"' || c == '\x27' then some c else none
      | some open' => if c == open' then none else quote
    if quote.isNone && c == '>' then ([], rest)
    else
      let (tag, after) := splitTag quote' rest
      (c :: tag, after)

def startTag (body : List Char) : Event :=
  if body.getLast? = some '/' then
    let name := if body.any isSpace then body.takeWhile fun c => !isSpace c else body.dropLast
    .start (String.ofList name) (attributes (body.dropLast.drop name.length)) true
  else
    let name := body.takeWhile fun c => !isSpace c
    .start (String.ofList name) (attributes (body.drop name.length)) false

/-- The first bracket whose text before it satisfies a condition: that text and what follows. The
text so far is kept last first. -/
def cutAt (ends : List Char → Bool) (before : List Char) : List Char → Option (List Char × List Char)
  | [] => none
  | c :: rest =>
    if c == '>' && ends before then some (before.reverse, rest) else cutAt ends (c :: before) rest

/-- Whether a text, given last first, has as many opening as closing brackets. -/
def isBalanced (text : List Char) : Bool := text.count '<' == text.count '>'

/-- Whether a text begins with a word, whatever the case of its letters. -/
def beginsWith (word : String) (text : List Char) : Bool :=
  (text.take word.length).map Char.toUpper == word.toList

/-- What follows a comment, a declaration or character data, from the text after its exclamation
mark. -/
def skipBang? (text : List Char) : Option (List Char) :=
  match text with
  | '[' :: _ =>
    match cutAt (fun before => before.take 2 == [']', ']']) [] text with
    | some (body, rest) => if beginsWith "[CDATA[" body then some rest else none
    | none => none
  | '-' :: _ =>
    match cutAt (fun before => 4 ≤ before.length && before.take 2 == ['-', '-']) [] text with
    | some (body, rest) => if body.take 2 == ['-', '-'] then some rest else none
    | none => none
  | c :: _ =>
    if c == 'D' || c == 'd' then
      match cutAt isBalanced [] text with
      | some (body, rest) =>
        if beginsWith "DOCTYPE" body && (body.drop 7).any fun c => !isSpace c then some rest else none
      | none => none
    else none
  | [] => none

/-- Whether a processing instruction, given from its first question mark to its bracket, ends in
another question mark. -/
def isInstruction (body : List Char) : Bool := 2 < body.length && body.getLast? == some '?'

/-- The name in an end tag. Blanks after it are dropped; blanks alone are a name of their own, which
no start tag has. -/
def endName (body : List Char) : List Char :=
  if body.all isSpace then body else dropEndWhile isSpace body

/-- The events of a text; `opened` holds the names of the open elements, innermost first. -/
def eventsFrom : Nat → List String → List Char → List Event
  | 0, _, _ => []
  | bound + 1, opened, text =>
    match text.dropWhile isSpace with
    | [] => []
    | '<' :: '!' :: rest =>
      match skipBang? rest with
      | some rest => eventsFrom bound opened rest
      | none => [.fault]
    | '<' :: '?' :: rest =>
      if isInstruction ('?' :: rest.takeWhile (· != '>')) then
        eventsFrom bound opened ((rest.dropWhile (· != '>')).drop 1)
      else [.fault]
    | '<' :: '/' :: rest =>
      let name := String.ofList (endName (rest.takeWhile (· != '>')))
      match opened with
      | innermost :: outer =>
        if innermost = name then
          .stop name :: eventsFrom bound outer ((rest.dropWhile (· != '>')).drop 1)
        else [.fault]
      | [] => [.fault]
    | ['<'] => []
    | '<' :: rest =>
      let (tag, after) := splitTag none rest
      match startTag tag with
      | .start name attrs false =>
        .start name attrs false :: eventsFrom bound (name :: opened) after
      | event => event :: eventsFrom bound opened after
    | rest =>
      let content := dropEndWhile isSpace (rest.takeWhile (· != '<'))
      .text (String.ofList ((unescape? content).getD [])) ::
        eventsFrom bound opened (rest.dropWhile (· != '<'))

/-- The events of a text. A byte order mark before it is passed over. -/
def events (text : String) : List Event :=
  match text.toList with
  | '\ufeff' :: rest => eventsFrom (rest.length + 1) [] rest
  | rest => eventsFrom (rest.length + 1) [] rest

end WidgetFlow.Markup
