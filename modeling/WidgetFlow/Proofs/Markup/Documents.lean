import WidgetFlow.Markup.Event

/-!
# Documents

The events of a text whose elements are all closed are those of a document: a list of items, each an
element with its content, an empty tag or a text. `Place` says where a part of a document stands,
and `trees` forgets the texts and the two ways of writing an element that holds nothing.
-/

namespace WidgetFlow.Markup

/-- A piece of a document. -/
inductive Item where
  | element (tag : String) (attrs : Attributes) (content : List Item)
  /-- An element that is written as an empty tag. -/
  | empty (tag : String) (attrs : Attributes)
  | text (content : String)
  deriving Repr, Inhabited

/-- An element with the elements that it holds. -/
structure Tree where
  tag : String
  attrs : Attributes
  children : List Tree
  deriving Repr, Inhabited

theorem Tree.forest_induction {motive : List Tree → Prop} (nil : motive [])
    (cons : ∀ tag attrs children rest, motive children → motive rest →
      motive (⟨tag, attrs, children⟩ :: rest)) :
    ∀ forest, motive forest
  | [] => nil
  | ⟨tag, attrs, children⟩ :: rest =>
    cons tag attrs children rest (forest_induction nil cons children)
      (forest_induction nil cons rest)

namespace Item

/-- Content by content; the content of the first element comes before what follows it, and an element
that holds nothing comes before its empty tag. -/
theorem content_induction {motive : List Item → Prop} (nil : motive [])
    (element : ∀ tag attrs content rest, motive content → motive rest →
      motive (.element tag attrs content :: rest))
    (empty : ∀ tag attrs rest, motive rest → motive (.element tag attrs [] :: rest) →
      motive (.empty tag attrs :: rest))
    (text : ∀ content rest, motive rest → motive (.text content :: rest)) :
    ∀ items, motive items
  | [] => nil
  | .element tag attrs content :: rest =>
    element tag attrs content rest (content_induction nil element empty text content)
      (content_induction nil element empty text rest)
  | .empty tag attrs :: rest =>
    have hrest := content_induction nil element empty text rest
    empty tag attrs rest hrest (element tag attrs [] rest nil hrest)
  | .text content :: rest => text content rest (content_induction nil element empty text rest)

mutual

def events : Item → List Event
  | .element tag attrs content => .start tag attrs false :: (eventsAll content ++ [.stop tag])
  | .empty tag attrs => [.start tag attrs true]
  | .text content => [.text content]

/-- The events of some items, in the order of the document. -/
def eventsAll : List Item → List Event
  | [] => []
  | item :: rest => item.events ++ eventsAll rest

end

mutual

/-- The element that an item is, with those inside it; a text is none. -/
def tree? : Item → Option Tree
  | .element tag attrs content => some ⟨tag, attrs, trees content⟩
  | .empty tag attrs => some ⟨tag, attrs, []⟩
  | .text _ => none

def trees : List Item → List Tree
  | [] => []
  | item :: rest => item.tree?.toList ++ trees rest

end

section Equations

variable (tag : String) (attrs : Attributes) (content rest : List Item) (text : String)

@[simp] theorem eventsAll_nil : eventsAll [] = [] := rfl

@[simp] theorem eventsAll_element : eventsAll (.element tag attrs content :: rest) =
    .start tag attrs false :: (eventsAll content ++ .stop tag :: eventsAll rest) := by
  simp [eventsAll, events]

@[simp] theorem eventsAll_empty :
    eventsAll (.empty tag attrs :: rest) = .start tag attrs true :: eventsAll rest := rfl

@[simp] theorem eventsAll_text : eventsAll (.text text :: rest) = .text text :: eventsAll rest :=
  rfl

@[simp] theorem trees_nil : trees [] = [] := rfl

@[simp] theorem trees_element :
    trees (.element tag attrs content :: rest) = ⟨tag, attrs, trees content⟩ :: trees rest := rfl

@[simp] theorem trees_empty :
    trees (.empty tag attrs :: rest) = ⟨tag, attrs, []⟩ :: trees rest := rfl

@[simp] theorem trees_text : trees (.text text :: rest) = trees rest := rfl

end Equations

/-- A document is complete, so it has no fault. -/
theorem fault_notMem_eventsAll (items : List Item) : Event.fault ∉ eventsAll items := by
  induction items using content_induction with
  | nil => exact List.not_mem_nil
  | element tag attrs content rest hcontent hrest => simp [hcontent, hrest]
  | empty tag attrs rest hrest => simp [hrest]
  | text content rest hrest => simp [hrest]

/-- Some items of a document, up to the end of the element around them. -/
inductive Place (part : List Item) : List Item → Prop where
  | here : Place part part
  | after (item : Item) {rest : List Item} : Place part rest → Place part (item :: rest)
  | inside (tag : String) (attrs : Attributes) {content : List Item} (rest : List Item) :
      Place part content → Place part (.element tag attrs content :: rest)

section Place

variable {part content rest : List Item} {tag : String} {attrs : Attributes} {text : String}

theorem place_nil : Place part [] ↔ part = [] := by
  constructor
  · rintro ⟨⟩
    rfl
  · rintro rfl
    exact .here

theorem place_element : Place part (.element tag attrs content :: rest) ↔
    part = .element tag attrs content :: rest ∨ Place part content ∨ Place part rest := by
  constructor
  · rintro (_ | ⟨_, h⟩ | ⟨_, _, _, h⟩)
    · exact .inl rfl
    · exact .inr (.inr h)
    · exact .inr (.inl h)
  · rintro (rfl | h | h)
    · exact .here
    · exact .inside tag attrs rest h
    · exact .after _ h

theorem place_cons {item : Item} (h : ∀ tag attrs content, item ≠ .element tag attrs content) :
    Place part (item :: rest) ↔ part = item :: rest ∨ Place part rest := by
  constructor
  · rintro (_ | ⟨_, h⟩ | ⟨_, _, _, _⟩)
    · exact .inl rfl
    · exact .inr h
    · exact absurd rfl (h _ _ _)
  · rintro (rfl | h)
    · exact .here
    · exact .after _ h

theorem place_empty : Place part (.empty tag attrs :: rest) ↔
    part = .empty tag attrs :: rest ∨ Place part rest :=
  place_cons nofun

theorem place_text : Place part (.text text :: rest) ↔
    part = .text text :: rest ∨ Place part rest :=
  place_cons nofun

end Place

end Item

end WidgetFlow.Markup
