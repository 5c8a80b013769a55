import WidgetFlow.Proofs.Markup.Documents
import WidgetFlow.Proofs.Resource.Inclusions
import WidgetFlow.Resource.Layout
import WidgetFlow.Resource.Menu

/-!
# Layouts and menus of documents

The readers of layouts and menus keep the open elements on a stack. What they make of a document is
said here by recursion on its tree of elements: `Layout.convert?` leaves out the requests for the
focus, and `MenuFile.convert` leaves out the elements without attributes and asks for the
identifiers of the others as it comes to them. An element whose content has been read has the
converted trees of the content as children (`readFrom_content`), so the readers agree with the
recursion (`readers_convert`).
-/

namespace WidgetFlow

open Markup Element.Assembly
open Item (eventsAll trees content_induction)

variable {items : List Item} {tree : Tree}

namespace Element

/-- An element with further children. -/
def adopt (e : Element) (found : List Element) : Element :=
  { e with children := e.children ++ found }

@[simp] theorem adopt_nil (e : Element) : e.adopt [] = e := by
  cases e
  simp [adopt]

@[simp] theorem adopt_adopt (e : Element) (found others : List Element) :
    (e.adopt found).adopt others = e.adopt (found ++ others) := by
  simp [adopt]

/-- The identifiers of a tree, in the order of its elements. -/
def ids (e : Element) : List ResId := e.walk.filterMap id

def idsAll (elements : List Element) : List ResId := (walkAll elements).filterMap id

theorem ids_eq (e : Element) :
    e.ids = e.id.toList ++ idsAll e.children := by
  rw [ids, walk_eq, idsAll, List.filterMap_cons]
  cases e.id <;> rfl

theorem idsAll_cons (e : Element) (rest : List Element) :
    idsAll (e :: rest) = e.ids ++ idsAll rest := by
  rw [idsAll, walkAll, List.filterMap_append]
  rfl

namespace Assembly

variable {root : Option Element} {stack : List (Option Element)}

theorem enter_open (e : Option Element) :
    enter ⟨stack, root⟩ e false = ⟨e :: stack, root⟩ := rfl

/-- An element that ends goes to the element around it, if both are kept. -/
theorem pop_inner (done top : Option Element) (below : List (Option Element)) :
    pop ⟨done :: top :: below, root⟩ = ⟨top.map (adopt · done.toList) :: below, root⟩ := by
  cases done with
  | none => cases top <;> simp [pop]
  | some done => cases top <;> rfl

theorem pop_outer (done : Option Element) : pop ⟨[done], none⟩ = ⟨[], done⟩ := by
  cases done <;> rfl

end Assembly

end Element

/-! ## Layouts -/

namespace Layout

variable (resolve : String → Option ResId) (origin : String)

mutual

/-- The layout of a tree; none if it is left out. -/
def convert? : Tree → Option Element
  | ⟨tag, attrs, children⟩ =>
    if tag = "requestFocus" then none
    else if tag = "include" then
      some { inclusion resolve origin attrs with children := convertAll children }
    else some { view resolve origin tag attrs with children := convertAll children }

def convertAll : List Tree → List Element
  | [] => []
  | tree :: rest => (convert? tree).toList ++ convertAll rest

end

variable {resolve origin} {root : Option Element}

theorem convert?_eq (tag : String) (attrs : Attributes) (children : List Tree) :
    convert? resolve origin ⟨tag, attrs, children⟩ =
      (element resolve origin tag attrs).map (·.adopt (convertAll resolve origin children)) := by
  rw [convert?, element]
  split
  · rfl
  · split <;> rfl

/-- Inside an open element, a content gives it the converted trees as children; if the element is
left out, so is the content. -/
theorem readFrom_content (items : List Item) (top : Option Element)
    (below : List (Option Element)) (rest : List Event) :
    readFrom resolve origin ⟨top :: below, root⟩ (eventsAll items ++ rest) =
      readFrom resolve origin
        ⟨top.map (·.adopt (convertAll resolve origin (trees items))) :: below, root⟩ rest := by
  induction items using content_induction generalizing top below rest with
  | nil => simp [convertAll]
  | element tag attrs content others hcontent hothers =>
    rw [Item.eventsAll_element, List.cons_append, List.append_assoc, readFrom,
      if_neg (by simp), enter_open, hcontent, List.cons_append, readFrom,
      pop_inner, hothers, ← convert?_eq]
    simp [convertAll, Function.comp_def]
  | empty tag attrs others _ helement => exact helement top below rest
  | text text others hothers => simpa [readFrom] using hothers top below rest

theorem readFrom_texts (h : trees items = []) :
    readFrom resolve origin ⟨[], root⟩ (eventsAll items) = .ok root := by
  induction items using content_induction with
  | nil => rfl
  | element | empty => simp at h
  | text text rest hrest => exact hrest h

/-- A document with one tree is read as this tree, unless it is a screen of preferences. -/
theorem read_document (h : trees items = [tree]) :
    read resolve origin (eventsAll items) =
      .ok (if tree.tag = "PreferenceScreen" then none else convert? resolve origin tree) := by
  rw [read]
  induction items using content_induction with
  | nil => simp at h
  | element tag attrs content rest _ _ =>
    obtain ⟨rfl, hrest⟩ := List.cons.inj h
    rw [Item.eventsAll_element, readFrom]
    by_cases hscreen : tag = "PreferenceScreen"
    · simp [hscreen]
    · rw [if_neg (by simp [hscreen]), if_neg hscreen, enter_open,
        readFrom_content, readFrom, pop_outer, readFrom_texts hrest, convert?_eq]
  | empty tag attrs rest _ helement => exact helement h
  | text text rest hrest => exact hrest h

end Layout

/-! ## Menus -/

namespace MenuFile

variable {σ : Type} (resolve : String → StateM σ ResId) (origin : String)

mutual

/-- The menu of a tree below the root; none if it is left out. -/
def convertInner? : Tree → StateM σ (Option Element)
  | ⟨tag, attrs, children⟩ =>
    if attrs.isEmpty then pure none
    else do
      let id ← resolveId resolve attrs
      let inner ← convertAll children
      pure (some
        { owner := some (owner tag), id, attrs, children := inner, origin := some origin })

def convertAll : List Tree → StateM σ (List Element)
  | [] => pure []
  | tree :: rest => do
    let found ← convertInner? tree
    let others ← convertAll rest
    pure (found.toList ++ others)

end

/-- The menu of a tree. Its root is kept, without its attributes. -/
def convert (tree : Tree) : StateM σ Element := do
  let id ← resolveId resolve tree.attrs
  let inner ← convertAll resolve origin tree.children
  pure { owner := some (owner tree.tag), id, children := inner, origin := some origin }

mutual

/-- The references of the elements that are kept, in the order of the document. -/
def referencesInner : Tree → List String
  | ⟨_, attrs, children⟩ =>
    if attrs.isEmpty then [] else (attrs.android? "id").toList ++ referencesAll children

def referencesAll : List Tree → List String
  | [] => []
  | tree :: rest => referencesInner tree ++ referencesAll rest

end

def references (tree : Tree) : List String :=
  (tree.attrs.android? "id").toList ++ referencesAll tree.children

variable {resolve origin} {root : Option Element}

/-- What stands in an element that is left out is left out, and no identifiers are asked for. -/
theorem readFrom_leftOut (items : List Item) (below : List (Option Element)) (rest : List Event) :
    readFrom resolve origin ⟨none :: below, root⟩ (eventsAll items ++ rest) =
      readFrom resolve origin ⟨none :: below, root⟩ rest := by
  induction items using content_induction generalizing below rest with
  | nil => rfl
  | element tag attrs content others hcontent hothers =>
    have helement : element resolve origin tag attrs (none :: below) = pure none := rfl
    rw [Item.eventsAll_element, List.cons_append, List.append_assoc, readFrom, helement, pure_bind,
      enter_open, hcontent, List.cons_append, readFrom, pop_inner]
    exact hothers below rest
  | empty tag attrs others _ helement => exact helement below rest
  | text text others hothers => exact hothers below rest

/-- Inside an open element that is kept, a content gives it the converted trees as children. -/
theorem readFrom_content (items : List Item) (top : Element) (below : List (Option Element))
    (rest : List Event) :
    readFrom resolve origin ⟨some top :: below, root⟩ (eventsAll items ++ rest) =
      (do
        let found ← convertAll resolve origin (trees items)
        readFrom resolve origin ⟨some (top.adopt found) :: below, root⟩ rest) := by
  induction items using content_induction generalizing top below rest with
  | nil => simp [convertAll]
  | element tag attrs content others hcontent hothers =>
    rw [Item.eventsAll_element, List.cons_append, List.append_assoc, readFrom,
      Item.trees_element, convertAll, convertInner?]
    by_cases hattrs : attrs.isEmpty
    · simp [element, isLeftOut, hattrs, enter_open, readFrom_leftOut, readFrom, pop_inner, hothers]
    · simp [element, isLeftOut, hattrs, enter_open, hcontent, readFrom, pop_inner, hothers,
        Element.adopt]
  | empty tag attrs others _ helement => exact helement top below rest
  | text text others hothers => exact hothers top below rest

theorem readFrom_texts (h : trees items = []) :
    readFrom resolve origin ⟨[], root⟩ (eventsAll items) = pure (.ok root) := by
  induction items using content_induction with
  | nil => rfl
  | element | empty => simp at h
  | text text rest hrest => exact hrest h

theorem read_document (h : trees items = [tree]) :
    read resolve origin (eventsAll items) =
      (fun found => .ok (some found)) <$> convert resolve origin tree := by
  rw [read]
  induction items using content_induction with
  | nil => simp at h
  | element tag attrs content rest _ _ =>
    obtain ⟨rfl, hrest⟩ := List.cons.inj h
    rw [Item.eventsAll_element, readFrom]
    simp [element, isLeftOut, enter_open, readFrom_content, readFrom, pop_outer,
      readFrom_texts hrest, convert, Element.adopt]
  | empty tag attrs rest _ helement => exact helement h
  | text text rest hrest => exact hrest h

/-! ## Identifiers in the order of the document -/

theorem toList_resolveId (attrs : Attributes) :
    Option.toList <$> resolveId resolve attrs = (attrs.android? "id").toList.mapM resolve := by
  unfold resolveId
  cases attrs.android? "id" <;> simp

/-- Every kept element with a reference asks for its identifier, once and before those inside it. -/
theorem ids_convertAll (forest : List Tree) :
    Element.idsAll <$> convertAll resolve origin forest = (referencesAll forest).mapM resolve := by
  induction forest using Tree.forest_induction with
  | nil => rfl
  | cons tag attrs children rest hchildren hrest =>
    rw [referencesAll, referencesInner, List.mapM_append, ← hrest, convertAll, convertInner?]
    by_cases hattrs : attrs.isEmpty
    · simp [hattrs, bind_pure_comp]
    · simp only [if_neg hattrs, List.mapM_append, ← hchildren, ← toList_resolveId]
      simp [Element.idsAll_cons, Element.ids_eq]

theorem ids_convert (tree : Tree) :
    Element.ids <$> convert resolve origin tree = (references tree).mapM resolve := by
  rw [references, List.mapM_append, ← @ids_convertAll _ resolve origin, ← toList_resolveId,
    convert]
  simp [Element.ids_eq]

end MenuFile

/-- Both readers agree with the recursion on every document that has one tree. The reading of a menu
asks for the identifiers of the kept elements once each, in the order of the document. -/
theorem readers_convert {σ : Type} (find : String → Option ResId)
    (resolve : String → StateM σ ResId) (origin : String) {items : List Item} {tree : Tree}
    (h : trees items = [tree]) :
    Layout.read find origin (eventsAll items) =
        .ok (if tree.tag = "PreferenceScreen" then none else Layout.convert? find origin tree) ∧
      MenuFile.read resolve origin (eventsAll items) =
        (fun found => .ok (some found)) <$> MenuFile.convert resolve origin tree ∧
      Element.ids <$> MenuFile.convert resolve origin tree =
        (MenuFile.references tree).mapM resolve :=
  ⟨Layout.read_document h, MenuFile.read_document h, MenuFile.ids_convert tree⟩

namespace Sample

/-- A menu with an entry, an entry in a group without attributes, and a group that keeps nothing. -/
def toolbar : List Item :=
  [.text "tools",
    .element "menu" [("id", "@+id/tools")]
      [.empty "item" [("android:id", "@+id/open")],
        .element "group" [] [.empty "item" [("id", "@+id/lost")]],
        .text "more",
        .element "group" [("id", "@+id/rest")] [.empty "requestFocus" []]]]

def toolbarTree : Tree :=
  ⟨"menu", [("id", "@+id/tools")],
    [⟨"item", [("android:id", "@+id/open")], []⟩,
      ⟨"group", [], [⟨"item", [("id", "@+id/lost")], []⟩]⟩,
      ⟨"group", [("id", "@+id/rest")], [⟨"requestFocus", [], []⟩]⟩]⟩

/-- Identifiers by their number among all references. -/
def count (_ : String) : StateM ResId ResId := fun next => (next, next + 1)

end Sample

theorem readers_convert_toolbar : trees Sample.toolbar = [Sample.toolbarTree] ∧
    MenuFile.references Sample.toolbarTree = ["@+id/tools", "@+id/open", "@+id/rest"] ∧
    Layout.read (fun _ => none) "tools.xml" (eventsAll Sample.toolbar) =
      .ok (Layout.convert? (fun _ => none) "tools.xml" Sample.toolbarTree) ∧
    MenuFile.read Sample.count "tools.xml" (eventsAll Sample.toolbar) =
      (fun found => .ok (some found)) <$>
        MenuFile.convert Sample.count "tools.xml" Sample.toolbarTree ∧
    ((Element.ids <$> MenuFile.convert Sample.count "tools.xml" Sample.toolbarTree).run 1).1 =
      [1, 2, 3] := by
  have htrees : trees Sample.toolbar = [Sample.toolbarTree] := rfl
  obtain ⟨hlayout, hmenu, hids⟩ :=
    readers_convert (fun _ => none) Sample.count "tools.xml" htrees
  refine ⟨htrees, rfl, hlayout, hmenu, ?_⟩
  rw [hids]
  rfl

end WidgetFlow
