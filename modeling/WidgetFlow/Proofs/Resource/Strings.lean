import WidgetFlow.Proofs.Markup.Documents
import WidgetFlow.Resource.Values

/-!
# Texts of strings

The reader of values remembers the name in the last tag of a string until a text comes or an element
ends. In a document the text is then the one that the content of the string begins with, or, after
an empty tag, the one that the following items begin with (`strings_from_documents`). So a string
without content takes a text of other elements (`empty_string_takes_text`).
-/

namespace WidgetFlow.Values

open Markup
open Item (Place eventsAll content_induction)

variable {items : List Item}

mutual

/-- The first text of an item, if no element ends and no string begins before it; `after` is the
first text of what follows. -/
def firstText (after : Option String) : Item → Option String
  | .element tag _ content => if tag = "string" then none else firstTextOf content
  | .empty tag _ => if tag = "string" then none else after
  | .text text => some text

def firstTextOf : List Item → Option String
  | [] => none
  | item :: rest => firstText (firstTextOf rest) item

end

/-- A string that has both a name and a text. -/
def named : Option String → Option String → List (String × String)
  | some name, some text => [(name, withoutQuotes text)]
  | _, _ => []

mutual

/-- The strings of an item that `after` is the first text after. -/
def stringsIn (after : Option String) : Item → List (String × String)
  | .element tag attrs content =>
    (if tag = "string" then named (attrs.get? "name") (firstTextOf content) else []) ++
      stringsOf content
  | .empty tag attrs => if tag = "string" then named (attrs.get? "name") after else []
  | .text _ => []

def stringsOf : List Item → List (String × String)
  | [] => []
  | item :: rest => stringsIn (firstTextOf rest) item ++ stringsOf rest

end

@[simp] theorem named_none_left (text : Option String) : named none text = [] := rfl

@[simp] theorem named_none_right (name : Option String) : named name none = [] := by
  cases name <;> rfl

theorem mem_named {name text : Option String} {entry : String × String} :
    entry ∈ named name text ↔
      ∃ found, name = some entry.1 ∧ text = some found ∧ entry.2 = withoutQuotes found := by
  obtain ⟨key, v⟩ := entry
  cases name <;> cases text <;> simp [named, eq_comm]

theorem strings_step_start (content : Content) (tag : String) (attrs : Attributes) (empty : Bool) :
    (step content (.start tag attrs empty)).strings = content.strings := by
  rw [step]
  split
  · rfl
  · split <;> rfl

theorem pending_step_start (content : Content) (tag : String) (attrs : Attributes) (empty : Bool) :
    (step content (.start tag attrs empty)).pending =
      if tag = "string" then attrs.get? "name" else content.pending := by
  by_cases hpublic : tag = "public"
  · simp [step, hpublic]
  · by_cases hstring : tag = "string" <;> simp [step, hpublic, hstring]

/-- What a document adds to the strings: its own, after the one that was waiting for a text. -/
theorem strings_foldl (items : List Item) (content : Content) :
    ((eventsAll items).foldl step content).strings =
      content.strings ++ named content.pending (firstTextOf items) ++ stringsOf items := by
  induction items using content_induction generalizing content with
  | nil => simp [firstTextOf, stringsOf]
  | element tag attrs inner rest hinner hrest =>
    -- the end of the element leaves no name waiting for the rest
    rw [Item.eventsAll_element, List.foldl_cons, List.foldl_append, List.foldl_cons, hrest]
    simp only [step.eq_3, hinner, strings_step_start, pending_step_start]
    by_cases hstring : tag = "string" <;>
      simp [firstTextOf, firstText, stringsOf, stringsIn, hstring]
  | empty tag attrs rest hrest =>
    rw [Item.eventsAll_empty, List.foldl_cons, hrest, strings_step_start, pending_step_start]
    by_cases hstring : tag = "string" <;>
      simp [firstTextOf, firstText, stringsOf, stringsIn, hstring]
  | text text rest hrest =>
    rw [Item.eventsAll_text, List.foldl_cons, hrest]
    cases hpending : content.pending <;>
      simp [step, hpending, named, firstTextOf, firstText, stringsOf, stringsIn]

/-! ## Where strings come from -/

/-- A string element has the name, and its content begins with the text. -/
def Held (items : List Item) (name text : String) : Prop :=
  ∃ attrs content rest, Place (.element "string" attrs content :: rest) items ∧
    attrs.get? "name" = some name ∧ firstTextOf content = some text

/-- An empty tag of a string has the name, and what follows it begins with the text. -/
def Stray (items : List Item) (name text : String) : Prop :=
  ∃ attrs rest, Place (.empty "string" attrs :: rest) items ∧
    attrs.get? "name" = some name ∧ firstTextOf rest = some text

/-- A string element has the name, and the value is made of a text in its content. -/
def Stems (items : List Item) (name v : String) : Prop :=
  ∃ attrs content rest text others, Place (.element "string" attrs content :: rest) items ∧
    attrs.get? "name" = some name ∧ Place (.text text :: others) content ∧
    v = withoutQuotes text

theorem exists_place_of_firstTextOf {text : String}
    (h : firstTextOf items = some text) : ∃ others, Place (.text text :: others) items := by
  induction items using content_induction with
  | nil => cases h
  | element tag attrs content rest hcontent hrest =>
    simp only [firstTextOf, firstText, Option.ite_none_left_eq_some] at h
    obtain ⟨others, hplace⟩ := hcontent h.2
    exact ⟨others, .inside tag attrs rest hplace⟩
  | empty tag attrs rest hrest =>
    simp only [firstTextOf, firstText, Option.ite_none_left_eq_some] at h
    obtain ⟨others, hplace⟩ := hrest h.2
    exact ⟨others, .after _ hplace⟩
  | text found rest hrest =>
    obtain rfl := Option.some.inj h
    exact ⟨rest, .here⟩

theorem Held.stems {name text : String} (h : Held items name text) :
    Stems items name (withoutQuotes text) := by
  obtain ⟨attrs, content, rest, hplace, hname, htext⟩ := h
  obtain ⟨others, hothers⟩ := exists_place_of_firstTextOf htext
  exact ⟨attrs, content, rest, text, others, hplace, hname, hothers, rfl⟩

section Held

variable {tag name text : String} {attrs : Attributes} {content rest : List Item}

theorem held_element : Held (.element tag attrs content :: rest) name text ↔
    (tag = "string" ∧ attrs.get? "name" = some name ∧ firstTextOf content = some text) ∨
      Held content name text ∨ Held rest name text := by
  constructor
  · rintro ⟨_, inner, _, hplace, hname, htext⟩
    rcases Item.place_element.mp hplace with heq | hcontent | hrest
    · cases heq
      exact .inl ⟨rfl, hname, htext⟩
    · exact .inr (.inl ⟨_, inner, _, hcontent, hname, htext⟩)
    · exact .inr (.inr ⟨_, inner, _, hrest, hname, htext⟩)
  · rintro (⟨rfl, hname, htext⟩ | ⟨_, inner, _, hplace, hname, htext⟩ |
      ⟨_, inner, _, hplace, hname, htext⟩)
    · exact ⟨attrs, content, rest, .here, hname, htext⟩
    · exact ⟨_, inner, _, .inside tag attrs rest hplace, hname, htext⟩
    · exact ⟨_, inner, _, .after _ hplace, hname, htext⟩

theorem held_empty : Held (.empty tag attrs :: rest) name text ↔ Held rest name text := by
  simp [Held, Item.place_empty]

theorem stray_element : Stray (.element tag attrs content :: rest) name text ↔
    Stray content name text ∨ Stray rest name text := by
  simp [Stray, Item.place_element, or_and_right, exists_or]

theorem stray_empty : Stray (.empty tag attrs :: rest) name text ↔
    (tag = "string" ∧ attrs.get? "name" = some name ∧ firstTextOf rest = some text) ∨
      Stray rest name text := by
  constructor
  · rintro ⟨_, others, hplace, hname, htext⟩
    rcases Item.place_empty.mp hplace with heq | hrest
    · cases heq
      exact .inl ⟨rfl, hname, htext⟩
    · exact .inr ⟨_, others, hrest, hname, htext⟩
  · rintro (⟨rfl, hname, htext⟩ | ⟨_, others, hplace, hname, htext⟩)
    · exact ⟨attrs, rest, .here, hname, htext⟩
    · exact ⟨_, others, .after _ hplace, hname, htext⟩

end Held

theorem mem_stringsOf {name v : String} :
    (name, v) ∈ stringsOf items ↔
      ∃ text, (Held items name text ∨ Stray items name text) ∧ v = withoutQuotes text := by
  induction items using content_induction with
  | nil => simp [stringsOf, Held, Stray, Item.place_nil]
  | element tag attrs content rest hcontent hrest =>
    simp only [stringsOf, stringsIn, List.mem_append, hcontent, hrest, held_element,
      stray_element, List.mem_ite_nil_right, mem_named]
    grind
  | empty tag attrs rest hrest =>
    simp only [stringsOf, stringsIn, List.mem_append, hrest, held_empty,
      stray_empty, List.mem_ite_nil_right, mem_named]
    grind
  | text found rest hrest =>
    simp [stringsOf, stringsIn, hrest, Held, Stray, Item.place_text]

/-! ## Reading documents -/

theorem read_eventsAll (origin : String) (items : List Item) :
    read origin (eventsAll items) = .ok ((eventsAll items).foldl step {}) := by
  rw [read, List.contains_eq_mem, if_neg]
  simpa using Item.fault_notMem_eventsAll items

/-- Every document can be read. Its strings are those of the elements whose content begins with a
text and those of the empty tags that a text follows. So all strings stem from their elements if and
only if those of the empty tags do. -/
theorem strings_from_documents (origin : String) (items : List Item) :
    ∃ content, read origin (eventsAll items) = .ok content ∧
      (∀ name v, (name, v) ∈ content.strings ↔
        ∃ text, (Held items name text ∨ Stray items name text) ∧ v = withoutQuotes text) ∧
      ((∀ name v, (name, v) ∈ content.strings → Stems items name v) ↔
        ∀ name text, Stray items name text → Stems items name (withoutQuotes text)) := by
  have hmem (name v : String) :
      (name, v) ∈ ((eventsAll items).foldl step {}).strings ↔
        ∃ text, (Held items name text ∨ Stray items name text) ∧ v = withoutQuotes text := by
    rw [strings_foldl, ← mem_stringsOf]
    rfl
  refine ⟨_, read_eventsAll origin items, hmem, fun hall name text hstray => ?_,
    fun hstray name v hvalue => ?_⟩
  · exact hall name _ ((hmem name _).mpr ⟨text, .inr hstray, rfl⟩)
  · obtain ⟨text, hheld | hfound, rfl⟩ := (hmem name v).mp hvalue
    · exact hheld.stems
    · exact hstray name text hfound

namespace Sample

/-- A title without a text, and an item with one. -/
def untitled : List Item :=
  [.element "resources" []
    [.empty "string" [("name", "title")], .element "item" [] [.text "Close"]]]

end Sample

/-- The title gets the text of the item, although no element has its name and a content. -/
theorem empty_string_takes_text :
    ∃ content, read "strings.xml" (eventsAll Sample.untitled) = .ok content ∧
      ("title", "Close") ∈ content.strings ∧ ¬ Stems Sample.untitled "title" "Close" := by
  refine ⟨_, read_eventsAll _ _, ?_, ?_⟩
  · exact List.mem_singleton.mpr rfl
  · rintro ⟨attrs, content, rest, text, others, hplace, -, -, -⟩
    simp [Sample.untitled, Item.place_element, Item.place_empty, Item.place_text, Item.place_nil]
      at hplace

end WidgetFlow.Values
