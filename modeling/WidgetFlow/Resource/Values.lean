import WidgetFlow.Markup.Event
import WidgetFlow.Policy

/-!
# Values

A values file declares the identifiers of resources and the texts of strings.
-/

namespace WidgetFlow.Values

open Markup

/-- A declared identifier; the kind may be one that means nothing here. -/
structure PublicEntry where
  kind : String
  name : String
  id : ResId
  deriving DecidableEq, Repr, Inhabited

/-- What a values file declares, in order; `pending` is the name of a string whose text has not come
yet. -/
structure Content where
  entries : List PublicEntry := []
  strings : List (String × String) := []
  pending : Option String := none
  deriving Repr, Inhabited

/-- The identifier that a numeral stands for: hexadecimal digits keep their low 32 bits, and a
decimal number has to fit. -/
def parseId? (source : String) : Option ResId :=
  let text := Text.trim source.toList
  match Text.after? "0x" text <|> Text.after? "0X" text with
  | some digits => (Text.intWithin? 64 16 digits).map Int32.ofInt
  | none => (Text.intWithin? 32 10 text).map Int32.ofInt

/-- A text without blanks around it and without one pair of quotes around the rest. -/
def withoutQuotes (source : String) : String :=
  let text := Text.trim source.toList
  match text with
  | '"' :: rest => String.ofList ((Text.beforeLast? '"' rest).getD text)
  | _ => String.ofList text

def declared? (attrs : Attributes) : Option PublicEntry := do
  let kind ← attrs.get? "type"
  let name ← attrs.get? "name"
  let id ← (attrs.get? "id").bind parseId?
  some { kind, name, id }

/-- The content after one more event. The first text after the tag of a string is its text, if no
element ends before it. -/
def step (content : Content) : Event → Content
  | .start tag attrs _ =>
    if tag = "public" then
      { content with entries := content.entries ++ (declared? attrs).toList }
    else if tag = "string" then { content with pending := attrs.get? "name" }
    else content
  | .text text =>
    match content.pending with
    | some name =>
      { content with strings := content.strings ++ [(name, withoutQuotes text)], pending := none }
    | none => content
  | .stop _ => { content with pending := none }
  | .fault => content

def read (origin : String) (events : List Event) : Except AnalysisError Content :=
  if events.contains .fault then .error (.resource origin) else .ok (events.foldl step {})

end WidgetFlow.Values
