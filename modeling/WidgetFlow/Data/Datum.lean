/-!
# Data

The values in which program models and configurations are written, and in which the JSON report
is printed: null, truth values, numbers, texts, lists and records. The members of a record keep
their order and may repeat.
-/

namespace WidgetFlow

/-- A value of the data format. -/
inductive Datum where
  | null
  | bool (value : Bool)
  | int (value : Int)
  | str (text : String)
  /-- A scalar without quotes, in a notation that leaves it to the reader what it is. -/
  | word (text : String)
  | list (items : List Datum)
  | record (members : List (String × Datum))
  /-- A value that can only be passed over: a number that is no integer, or a string or a record in
  which an escape stands for no character. -/
  | shapeless
  deriving Repr, Inhabited

/-- The values of the members of a record that have the given name. -/
def membersNamed (name : String) (members : List (String × Datum)) : List Datum :=
  (members.filter fun member => member.1 = name).map (·.2)

end WidgetFlow
