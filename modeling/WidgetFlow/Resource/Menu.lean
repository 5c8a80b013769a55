import WidgetFlow.Markup.Event
import WidgetFlow.Platform.Names
import WidgetFlow.Policy
import WidgetFlow.Resource.Element

/-!
# Menus

A menu file as a tree of elements. An element without attributes below the root is left out, with
all that it holds. Every reference gets an identifier; how is left to a state that the reading
passes through.
-/

namespace WidgetFlow.MenuFile

open Markup

def owner (tag : String) : String :=
  if tag = "menu" then Platform.ClassName.menu
  else if tag = "item" then Platform.ClassName.menuItem
  else if tag = "group" then Platform.ClassName.viewGroup
  else tag

/-- The identifier that an element's attributes refer to. -/
def resolveId {σ : Type} (resolve : String → StateM σ ResId) (attrs : Attributes) :
    StateM σ (Option ResId) :=
  match attrs.android? "id" with
  | some reference => some <$> resolve reference
  | none => pure none

/-- Whether a tag inside the given open elements is left out. -/
def isLeftOut (stack : List (Option Element)) (attrs : Attributes) : Bool :=
  match stack with
  | [] => false
  | none :: _ => true
  | some _ :: _ => attrs.isEmpty

/-- What a tag begins; none if it is left out. The root keeps no attributes. -/
def element {σ : Type} (resolve : String → StateM σ ResId) (origin tag : String)
    (attrs : Attributes) (stack : List (Option Element)) : StateM σ (Option Element) :=
  if isLeftOut stack attrs then pure none
  else do
    let id ← resolveId resolve attrs
    pure (some { owner := some (owner tag), id, attrs := if stack.isEmpty then [] else attrs,
                 origin := some origin })

def readFrom {σ : Type} (resolve : String → StateM σ ResId) (origin : String) :
    Element.Assembly → List Event → StateM σ (Except AnalysisError (Option Element))
  | assembly, [] => pure (.ok assembly.root)
  | assembly, .start tag attrs empty :: rest => do
    let found ← element resolve origin tag attrs assembly.stack
    readFrom resolve origin (assembly.enter found empty) rest
  | assembly, .stop _ :: rest => readFrom resolve origin assembly.pop rest
  | assembly, .text _ :: rest => readFrom resolve origin assembly rest
  | _, .fault :: _ => pure (.error (.resource origin))

/-- Reads a menu: its last complete tree, if there is one. -/
def read {σ : Type} (resolve : String → StateM σ ResId) (origin : String) (events : List Event) :
    StateM σ (Except AnalysisError (Option Element)) :=
  readFrom resolve origin {} events

end WidgetFlow.MenuFile
