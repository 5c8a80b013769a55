import WidgetFlow.Markup.Attributes

/-!
# Resource trees

Layouts and menus are trees of elements. An element that includes another layout is a place holder
until the included tree is put in its place.
-/

namespace WidgetFlow

/-- The layout that an element includes. -/
inductive IncludeTarget where
  | named (name : String) (system : Bool)
  | numbered (id : ResId)
  deriving DecidableEq, Repr, Inhabited

/-- An inclusion of a layout. -/
structure Inclusion where
  target : IncludeTarget
  /-- The identifier that the included root gets instead of its own. -/
  id : Option ResId
  deriving DecidableEq, Repr, Inhabited

/-- An element of a layout or a menu. -/
structure Element where
  /-- The class of the view; none if the tag does not tell. -/
  owner : Option String := none
  id : Option ResId := none
  attrs : Markup.Attributes := []
  children : List Element := []
  /-- The file that the element comes from. -/
  origin : Option String := none
  /-- The inclusion that the element stands for. -/
  inclusion : Option Inclusion := none
  deriving Repr, Inhabited

namespace Element

mutual

def walk : Element → List Element
  | ⟨owner, id, attrs, children, origin, inclusion⟩ =>
    ⟨owner, id, attrs, children, origin, inclusion⟩ :: walkAll children

/-- The elements of some trees, tree by tree. -/
def walkAll : List Element → List Element
  | [] => []
  | element :: rest => element.walk ++ walkAll rest

end

def count (element : Element) : Nat := element.walk.length

mutual

/-- A tree with every place holder below its root replaced by the tree that `replace` gives for it,
or left out if it gives none. -/
def expand (replace : Inclusion → Option Element) : Element → Element
  | ⟨owner, id, attrs, children, origin, inclusion⟩ =>
    ⟨owner, id, attrs, expandAll replace children, origin, inclusion⟩

def expandAll (replace : Inclusion → Option Element) : List Element → List Element
  | [] => []
  | ⟨owner, id, attrs, children, origin, none⟩ :: rest =>
    expand replace ⟨owner, id, attrs, children, origin, none⟩ :: expandAll replace rest
  | ⟨_, _, _, _, _, some inclusion⟩ :: rest =>
    (replace inclusion).toList ++ expandAll replace rest

end

/-! ## Building trees from events -/

/-- A tree in the making: the open elements, innermost first, with `none` for those that are left
out, and the last complete tree. -/
structure Assembly where
  stack : List (Option Element) := []
  root : Option Element := none

namespace Assembly

/-- Begins an element, or with `none` one that is left out. -/
def push (assembly : Assembly) (element : Option Element) : Assembly :=
  { assembly with stack := element :: assembly.stack }

/-- Ends the innermost element: it becomes the last child of the element around it, is left out if
that one is, and becomes the tree if there is none. -/
def pop (assembly : Assembly) : Assembly :=
  match assembly.stack with
  | [] => assembly
  | none :: rest => { assembly with stack := rest }
  | [some done] => { stack := [], root := some done }
  | some done :: some parent :: rest =>
    { assembly with stack := some { parent with children := parent.children ++ [done] } :: rest }
  | some _ :: none :: rest => { assembly with stack := none :: rest }

def enter (assembly : Assembly) (element : Option Element) (empty : Bool) : Assembly :=
  if empty then (assembly.push element).pop else assembly.push element

end Assembly

end Element

end WidgetFlow
