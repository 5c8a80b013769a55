import WidgetFlow.Markup.Event
import WidgetFlow.Platform.Classes
import WidgetFlow.Platform.Listeners
import WidgetFlow.Policy
import WidgetFlow.Resource.Element

/-!
# Layouts

A layout file as a tree of elements. The tag of an element gives its class; an element that only
asks for the focus is left out, and a screen of preferences is no layout at all.
-/

namespace WidgetFlow.Layout

open Markup

/-- The class of the views that a tag stands for. -/
def guiName (tag : String) : String :=
  if tag = "merge" ∨ tag = "fragment" then "android.widget.LinearLayout"
  else if tag = "View" then "android.view.View"
  else if tag = "WebView" then "android.webkit.WebView"
  else if tag = "MenuItemView" then "android.view.MenuItem"
  else if tag = "android.widget.NumberPicker$CustomEditText" then "android.widget.EditText"
  else if tag.toList.contains '.' then tag
  else
    let widget := "android.widget." ++ tag
    if (Platform.class? widget).isSome || (Platform.listenerInterface? widget).isSome then widget
    else "android.view." ++ tag

/-- The layout that the attribute of an inclusion names. -/
def includeTarget? (source : String) : Option IncludeTarget :=
  let text := source.toList
  match Text.after? "@layout/" text with
  | some name => some (.named (String.ofList name) false)
  | none =>
  match Text.after? "@android:layout/" text <|> Text.after? "@*android:layout/" text with
  | some name => some (.named (String.ofList name) true)
  | none => (Text.intWithin? 32 10 text).map fun value => .numbered (Int32.ofInt value)

def inclusion (resolve : String → Option ResId) (origin : String) (attrs : Attributes) : Element where
  origin := some origin
  inclusion := ((attrs.get? "layout").bind includeTarget?).map fun target =>
    { target, id := (attrs.android? "id").bind resolve }

/-- The element of a view. A tag that leaves the class to an attribute has none without it. -/
def view (resolve : String → Option ResId) (origin tag : String) (attrs : Attributes) : Element where
  owner := if tag = "view" then (attrs.get? "class").map guiName else some (guiName tag)
  id := (attrs.android? "id").bind resolve
  attrs := attrs
  origin := some origin

/-- What a tag begins; none if it is left out. -/
def element (resolve : String → Option ResId) (origin tag : String) (attrs : Attributes) :
    Option Element :=
  if tag = "requestFocus" then none
  else if tag = "include" then some (inclusion resolve origin attrs)
  else some (view resolve origin tag attrs)

def readFrom (resolve : String → Option ResId) (origin : String) :
    Element.Assembly → List Event → Except AnalysisError (Option Element)
  | assembly, [] => .ok assembly.root
  | assembly, .start tag attrs empty :: rest =>
    if assembly.stack.isEmpty && assembly.root.isNone && tag == "PreferenceScreen" then .ok none
    else readFrom resolve origin (assembly.enter (element resolve origin tag attrs) empty) rest
  | assembly, .stop _ :: rest => readFrom resolve origin assembly.pop rest
  | assembly, .text _ :: rest => readFrom resolve origin assembly rest
  | _, .fault :: _ => .error (.resource origin)

/-- Reads a layout: its last complete tree, if there is one. `resolve` finds the identifiers that
references name. -/
def read (resolve : String → Option ResId) (origin : String) (events : List Event) :
    Except AnalysisError (Option Element) :=
  readFrom resolve origin {} events

end WidgetFlow.Layout
