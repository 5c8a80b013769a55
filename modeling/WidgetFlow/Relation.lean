import Std.Data.TreeMap
import Std.Data.TreeSet

/-!
# Finite relations

A relation between keys and values, kept row by row. Rows and the values in a row are listed in
ascending order, and a row without values is the same as no row.
-/

namespace WidgetFlow

/-- A finite relation. -/
structure Relation (α β : Type) [Ord α] [Ord β] where
  table : Std.TreeMap α (Std.TreeSet β) := {}

namespace Relation

variable {α β : Type} [Ord α] [Ord β]

instance : Inhabited (Relation α β) := ⟨{}⟩

def row (relation : Relation α β) (key : α) : Std.TreeSet β := relation.table.getD key {}

def image (relation : Relation α β) (key : α) : List β := (relation.row key).toList

def holds (relation : Relation α β) (key : α) (value : β) : Bool := (relation.row key).contains value

def add (relation : Relation α β) (key : α) (value : β) : Relation α β where
  table := relation.table.insert key ((relation.row key).insert value)

def addAll (relation : Relation α β) (key : α) (values : List β) : Relation α β :=
  values.foldl (fun relation value => relation.add key value) relation

/-- The rows that have values, ascending by key. -/
def rows (relation : Relation α β) : List (α × List β) :=
  (relation.table.toList.map fun entry => (entry.1, entry.2.toList)).filter fun entry =>
    !entry.2.isEmpty

def pairs (relation : Relation α β) : List (α × β) :=
  relation.rows.flatMap fun entry => entry.2.map (entry.1, ·)

def ofPairs (pairs : List (α × β)) : Relation α β :=
  pairs.foldl (fun relation pair => relation.add pair.1 pair.2) {}

def union (first second : Relation α β) : Relation α β :=
  second.pairs.foldl (fun relation pair => relation.add pair.1 pair.2) first

def isEmpty (relation : Relation α β) : Bool := relation.rows.isEmpty

end Relation

end WidgetFlow
