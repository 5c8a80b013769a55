/-!
# Ordered lists

Short lists in ascending order of a key. Elements with equal keys keep the order in which they
were.
-/

namespace WidgetFlow

/-- Texts are ordered by their bytes, which is the order of their code points too. -/
instance bytewiseOrd : Ord String := ⟨compareOn fun text => text.toByteArray.data.toList⟩

instance bytewiseTransOrd : Std.TransOrd String :=
  inferInstanceAs (Std.TransCmp (compareOn fun text : String => text.toByteArray.data.toList))

instance bytewiseLawfulEqOrd : Std.LawfulEqOrd String where
  eq_of_compare h :=
    String.toByteArray_inj.mp (ByteArray.ext (Array.toList_inj.mp (Std.LawfulEqOrd.eq_of_compare h)))

namespace Ordered

variable {α β : Type} [Ord β]

def insert (key : α → β) (element : α) : List α → List α
  | [] => [element]
  | head :: rest =>
    match compare (key element) (key head) with
    | .gt => head :: insert key element rest
    | _ => element :: head :: rest

def sort (key : α → β) (elements : List α) : List α := elements.foldr (insert key) []

end Ordered

end WidgetFlow
