import WidgetFlow.Markup.Event
import WidgetFlow.Policy

/-!
# Manifests

A manifest names the package, its activities and the activity that starts the application.
-/

namespace WidgetFlow

open Markup

/-- What a manifest tells. -/
structure Manifest where
  package : Option String := none
  /-- The classes of the declared activities, in order. -/
  activities : List String := []
  mainActivity : Option String := none
  deriving DecidableEq, Repr, Inhabited

namespace Manifest

/-- A manifest in the making: the activity whose element is open, whether a filter is open, and what
the filter has asked for. -/
structure Reading where
  manifest : Manifest := {}
  activity : Option String := none
  inFilter : Bool := false
  mainAction : Bool := false
  launcher : Bool := false

/-- The full name of a class in a package. A name that begins with a dot, or has none, is relative
to the package. -/
def className (package : Option String) (name : String) : String :=
  if name.toList.head? = some '.' then
    match package with
    | some package => package ++ name
    | none => String.ofList (name.toList.drop 1)
  else if name.toList.contains '.' then name
  else
    match package with
    | some package => package ++ "." ++ name
    | none => name

/-- The reading after the beginning of an activity or, if it is none itself, of an alias of one. -/
def startActivity (reading : Reading) (declared : Bool) (name : Option String) (empty : Bool) :
    Reading :=
  match name with
  | none => reading
  | some name =>
    let owner := className reading.manifest.package name
    let manifest := if declared then
        { reading.manifest with activities := reading.manifest.activities ++ [owner] }
      else reading.manifest
    { reading with manifest, activity := if empty then reading.activity else some owner }

def start (reading : Reading) (tag : String) (attrs : Attributes) (empty : Bool) : Reading :=
  if tag = "manifest" then
    { reading with manifest := { reading.manifest with package := attrs.get? "package" } }
  else if tag = "activity" then startActivity reading true (attrs.android? "name") empty
  else if tag = "activity-alias" then
    startActivity reading false (attrs.android? "targetActivity") empty
  else if tag = "intent-filter" ∧ reading.activity.isSome then
    { reading with inFilter := !empty, mainAction := false, launcher := false }
  else if tag = "action" ∧ reading.inFilter then
    { reading with mainAction :=
        reading.mainAction || attrs.android? "name" == some "android.intent.action.MAIN" }
  else if tag = "category" ∧ reading.inFilter then
    { reading with launcher :=
        reading.launcher || attrs.android? "name" == some "android.intent.category.LAUNCHER" }
  else reading

/-- The reading after the end of an element. The first filter that asks for both starts the
application. -/
def stop (reading : Reading) (tag : String) : Reading :=
  if tag = "intent-filter" ∧ reading.inFilter then
    let mainActivity :=
      if reading.mainAction && reading.launcher && reading.manifest.mainActivity.isNone then
        reading.activity
      else reading.manifest.mainActivity
    { reading with manifest := { reading.manifest with mainActivity }, inFilter := false }
  else if tag = "activity" ∨ tag = "activity-alias" then { reading with activity := none }
  else reading

def step (reading : Reading) : Event → Reading
  | .start tag attrs empty => start reading tag attrs empty
  | .stop tag => stop reading tag
  | _ => reading

def read (origin : String) (events : List Event) : Except AnalysisError Manifest :=
  if events.contains .fault then .error (.resource origin)
  else .ok (events.foldl step {}).manifest

end Manifest

end WidgetFlow
