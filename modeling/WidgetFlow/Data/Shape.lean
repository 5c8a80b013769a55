import WidgetFlow.Data.Reader
import WidgetFlow.Data.Toml
import WidgetFlow.Data.Yaml
import WidgetFlow.Program.Ty

/-!
# Shapes of data

What a program model or a configuration expects of the data it is read from. A field that is
absent takes its default; a field that is present has to have the right shape, and null has no
shape but that of an optional field. A word takes the shape that is asked of it. Fields that are not expected are passed over, and a field
that is expected may stand only once.
-/

namespace WidgetFlow

/-- The notation that data was written in. They differ in what they take for a record. -/
inductive DataFormat where
  | json
  | yaml
  | toml
  deriving DecidableEq, Repr, Inhabited

def DataFormat.parse? (format : DataFormat) (text : String) : Option Datum :=
  match format with
  | .json => Datum.parse? text
  | .yaml => Yaml.parse? text
  | .toml => Toml.parse? text

namespace Datum

/-- The fields of a record in the given order, each present or not. In JSON a list gives the fields
by their position. -/
def fields? (format : DataFormat) (names : List String) : Datum → Option (List (Option Datum))
  | .record members =>
    names.mapM fun name =>
      match membersNamed name members with
      | [] => some none
      | [value] => some (some value)
      | _ => none
  | .list items =>
    if format = .json ∧ items.length ≤ names.length then
      some ((List.range names.length).map fun index => items[index]?)
    else none
  | _ => none

def field (fields : List (Option Datum)) (index : Nat) : Option Datum := (fields[index]?).join

def bool? : Datum → Option Bool
  | .bool value => some value
  | .word "true" => some true
  | .word "false" => some false
  | _ => none

def str? : Datum → Option String
  | .str text => some text
  | .word text => some text
  | _ => none

def list? {α : Type} (item : Datum → Option α) : Datum → Option (List α)
  | .list items => items.mapM item
  | _ => none

def optional? {α : Type} (shape : Datum → Option α) : Datum → Option (Option α)
  | .null => some none
  | .word "null" => some none
  | value => (shape value).map some

/-- The members of a record of any names, whose values all have the given shape. -/
def entries? {α : Type} (shape : Datum → Option α) : Datum → Option (List (String × α))
  | .record members => members.mapM fun member => (shape member.2).map (member.1, ·)
  | _ => none

def ty? (value : Datum) : Option Ty := value.str?.bind Ty.parse?

def natBelow? (bound : Nat) : Datum → Option Nat
  | .int value => if 0 ≤ value ∧ value < bound then some value.toNat else none
  | .word text => (Text.nat? 10 text.toList).filter (· < bound)
  | _ => none

/-- A field that takes a default if it is absent. -/
def withDefault {α : Type} (value : Option Datum) (default : α) (shape : Datum → Option α) :
    Option α :=
  match value with
  | some value => shape value
  | none => some default

end Datum

end WidgetFlow
