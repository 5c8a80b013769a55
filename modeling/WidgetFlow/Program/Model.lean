import WidgetFlow.Data.Shape
import WidgetFlow.Ordered
import Std.Data.TreeMap

/-!
# Program models

The analysed program as it is declared: classes with their supertypes, and methods with the texts
of their statements. Nothing is checked here beyond the shape of the data.
-/

namespace WidgetFlow

open Datum

/-- The types of the locals of a method. -/
abbrev Locals := Std.TreeMap String Ty

/-- A declared method. -/
structure MethodDecl where
  name : String
  params : List Ty := []
  result : Ty := .void
  isStatic : Bool := false
  isAbstract : Bool := false
  /-- Declared types of locals; the others are inferred. -/
  locals : Locals := {}
  /-- The texts of the statements. -/
  body : List String := []

/-- A declared class or interface. -/
structure ClassDecl where
  name : String
  superclass : Option String := none
  interfaces : List String := []
  isInterface : Bool := false
  isAbstract : Bool := false
  /-- Whether the class belongs to the application, or is a library that is only called. -/
  application : Bool := true
  methods : List MethodDecl := []

/-- A program model. -/
structure Program where
  classes : List ClassDecl := []

def MethodDecl.ofDatum? (format : DataFormat) (value : Datum) : Option MethodDecl := do
  let fields ← value.fields? format
    ["name", "params", "ret", "is_static", "is_abstract", "locals", "body"]
  let name ← (field fields 0).bind str?
  let params ← withDefault (field fields 1) [] (list? ty?)
  let result ← withDefault (field fields 2) .void ty?
  let isStatic ← withDefault (field fields 3) false bool?
  let isAbstract ← withDefault (field fields 4) false bool?
  let locals ← withDefault (field fields 5) [] (entries? ty?)
  let body ← withDefault (field fields 6) [] (list? str?)
  some { name, params, result, isStatic, isAbstract, locals := .ofList locals, body }

def ClassDecl.ofDatum? (format : DataFormat) (value : Datum) : Option ClassDecl := do
  let fields ← value.fields? format
    ["name", "superclass", "interfaces", "is_interface", "is_abstract", "application", "methods"]
  let name ← (field fields 0).bind str?
  let superclass ← withDefault (field fields 1) none (optional? str?)
  let interfaces ← withDefault (field fields 2) [] (list? str?)
  let isInterface ← withDefault (field fields 3) false bool?
  let isAbstract ← withDefault (field fields 4) false bool?
  let application ← withDefault (field fields 5) true bool?
  let methods ← withDefault (field fields 6) []
    (list? (MethodDecl.ofDatum? format))
  some { name, superclass, interfaces, isInterface, isAbstract, application, methods }

def Program.ofDatum? (format : DataFormat) (value : Datum) : Option Program := do
  let fields ← value.fields? format ["classes"]
  let classes ← withDefault (field fields 0) [] (list? (ClassDecl.ofDatum? format))
  some { classes }

def Program.parse? (format : DataFormat) (text : String) : Option Program :=
  (format.parse? text).bind (Program.ofDatum? format)

end WidgetFlow
