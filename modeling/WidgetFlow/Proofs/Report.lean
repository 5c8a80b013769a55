import Mathlib.Algebra.GroupWithZero.Nat
import Mathlib.Data.List.Infix
import WidgetFlow.Proofs.Statements.Forms
import WidgetFlow.Report.Xml

/-!
# Reading the XML report back

Values of attributes are escaped, so they hold no quotes and no `<`, and it is seen where a value
ends (`attr_inj`). The character behind the next `<` tells what a line begins or ends (`mark`), so
it is seen where a row of elements stops (`rows_inj`) and where an element ends (`element_inj`).

Reports of two applications are equal exactly if the applications are, up to the indices of the
statements that create dialogs, and each view and each handled event has one tag in the report
(`render_faithful`).
-/

namespace WidgetFlow

/-! ## Trees without indices -/

/-- A window, with the statement that creates it at no index. -/
def WindowTree.withoutIndex (tree : WindowTree) : WindowTree :=
  { tree with creation := tree.creation.map fun creation => { creation with index := 0 } }

def AppTree.withoutIndices (tree : AppTree) : AppTree :=
  { tree with
    activities := tree.activities.map WindowTree.withoutIndex
    dialogs := tree.dialogs.map WindowTree.withoutIndex }

/-- What views and handled events count for is added up over some trees. -/
theorem sum_counts (ofView ofEvent : Nat) (views : List ViewTree) :
    (views.map fun tree => ofView * tree.viewCount + ofEvent * tree.handlerCount).sum =
      ofView * ViewTree.viewCountAll views + ofEvent * ViewTree.handlerCountAll views := by
  induction views with
  | nil => rfl
  | cons tree rest ih =>
    rw [List.map_cons, List.sum_cons, ih, ViewTree.viewCountAll, ViewTree.handlerCountAll,
      Nat.mul_add, Nat.mul_add]
    omega

theorem ViewTree.induction {motive : ViewTree → Prop}
    (h : ∀ tree : ViewTree, (∀ inner ∈ tree.views, motive inner) → motive tree) :
    ∀ tree, motive tree
  | ⟨owner, id, idName, views, events⟩ =>
    h ⟨owner, id, idName, views, events⟩ fun inner _ => ViewTree.induction h inner

namespace XmlReport

open Text

variable {rest rest' : List Char}

/-! ## Attributes -/

theorem append_inj_of_stops {inClass : Char → Bool} {run run' : List Char}
    (hrun : ∀ c ∈ run, inClass c) (hrun' : ∀ c ∈ run', inClass c) (hrest : Stops inClass rest)
    (hrest' : Stops inClass rest') (h : run ++ rest = run' ++ rest') :
    run = run' ∧ rest = rest' := by
  have htake := congrArg (List.takeWhile inClass) h
  have hdrop := congrArg (List.dropWhile inClass) h
  rw [hrest.takeWhile_append hrun, hrest'.takeWhile_append hrun'] at htake
  rw [hrest.dropWhile_append hrun, hrest'.dropWhile_append hrun'] at hdrop
  exact ⟨htake, hdrop⟩

theorem escapeChar_inj {c d : Char} (h : escapeChar c ++ rest = escapeChar d ++ rest') :
    c = d ∧ rest = rest' := by
  unfold escapeChar at h
  split_ifs at h <;> simp at h <;> grind

theorem ne_of_mem_escapeChar {c d : Char} (h : c ∈ escapeChar d) : c ≠ '"' ∧ c ≠ '<' := by
  unfold escapeChar at h
  split_ifs at h <;> simp at h <;> grind

theorem escape_inj {value value' : String} (h : escape value = escape value') : value = value' := by
  have hchars : ∀ {text text' : List Char}, text.flatMap escapeChar = text'.flatMap escapeChar →
      text = text' := by
    have hne : ∀ {c : Char}, escapeChar c ≠ [] := by
      intro c
      unfold escapeChar
      split_ifs <;> simp
    intro text
    induction text with
    | nil =>
      rintro (_ | ⟨d, text'⟩) h
      · rfl
      · exact absurd (List.append_eq_nil_iff.mp h.symm).1 hne
    | cons c text ih =>
      rintro (_ | ⟨d, text'⟩) h
      · exact absurd (List.append_eq_nil_iff.mp h).1 hne
      · obtain ⟨rfl, hrest⟩ := escapeChar_inj h
        rw [ih hrest]
  exact String.toList_inj.mp (hchars (String.ofList_injective h))

theorem ne_of_mem_escape {value : String} {c : Char} (h : c ∈ (escape value).toList) :
    c ≠ '"' ∧ c ≠ '<' := by
  rw [escape, String.toList_ofList, List.mem_flatMap] at h
  obtain ⟨d, -, hc⟩ := h
  exact ne_of_mem_escapeChar hc

theorem toList_attr (name value : String) : (attr name value).toList =
    ' ' :: (name.toList ++ '=' :: '"' :: ((escape value).toList ++ ['"'])) := by
  simp [attr]

theorem attr_inj {name value value' : String}
    (h : (attr name value).toList ++ rest = (attr name value').toList ++ rest') :
    value = value' ∧ rest = rest' := by
  have hquoted : ∀ {value : String}, ∀ c ∈ (escape value).toList, (c != '"') = true :=
    fun c hc => bne_iff_ne.mpr (ne_of_mem_escape hc).1
  simp only [toList_attr, List.cons_append, List.append_assoc, List.nil_append, List.cons.injEq,
    true_and, List.append_cancel_left_eq] at h
  obtain ⟨hvalues, hmore⟩ :=
    append_inj_of_stops hquoted hquoted (Stops.cons (by decide)) (Stops.cons (by decide)) h
  exact ⟨escape_inj (String.toList_inj.mp hvalues), (List.cons.inj hmore).2⟩

/-- The next attribute begins with a blank. -/
theorem ne_attr {name value : String} (h : Stops (· == ' ') rest) :
    rest ≠ (attr name value).toList ++ rest' := by
  rintro rfl
  simp [Stops, toList_attr] at h

/-! ## Elements -/

variable {depth : Nat} {tag attributes attributes' content content' : String}

/-- The end of the line that begins an element. -/
def ending (content : String) : List Char :=
  if content.isEmpty then ['/', '>', '\n'] else ['>', '\n']

/-- The last line of an element that is not closed at once. -/
def closing (depth : Nat) (tag : String) : List Char :=
  (indent depth).toList ++ '<' :: '/' :: (tag.toList ++ ['>', '\n'])

theorem toList_element (depth : Nat) (tag attributes content : String) :
    (element depth tag attributes content).toList =
      (indent depth).toList ++ '<' :: (tag.toList ++ (attributes.toList ++ (ending content ++
        if content.isEmpty then [] else content.toList ++ closing depth tag))) := by
  cases hcontent : content.isEmpty <;> simp [element, ending, closing, hcontent]

/-- The content of an element is told from what follows if its attributes are. -/
theorem element_inj {goal : Prop}
    (hattributes : ∀ {rest rest'}, Stops (· == ' ') rest → Stops (· == ' ') rest' →
      attributes.toList ++ rest = attributes'.toList ++ rest' → goal ∧ rest = rest')
    (h : (element depth tag attributes content).toList ++ rest =
      (element depth tag attributes' content').toList ++ rest') :
    goal ∧ content.toList ++ (closing depth tag ++ rest) =
      content'.toList ++ (closing depth tag ++ rest') := by
  have hend : ∀ {content rest}, Stops (· == ' ') (ending content ++ rest) := by
    intro content rest
    unfold ending
    split <;> exact Stops.cons (by decide)
  simp only [toList_element, List.append_assoc, List.cons_append, List.append_cancel_left_eq,
    List.cons.injEq, true_and] at h
  obtain ⟨hgoal, hmore⟩ := hattributes hend hend h
  refine ⟨hgoal, ?_⟩
  cases hempty : content.isEmpty <;> cases hempty' : content'.isEmpty <;>
    simp_all [ending, String.isEmpty_iff]

/-- The character that tells what a line begins or ends, behind the blanks and the first `<`. -/
def mark (text : List Char) : Option Char :=
  (text.dropWhile (· == ' ')).tail.head?

theorem mark_indent (depth : Nat) (c : Char) (rest : List Char) :
    mark ((indent depth).toList ++ '<' :: c :: rest) = some c := by
  have hblanks : ∀ c ∈ (indent depth).toList, (c == ' ') = true := by
    intro c hc
    rw [indent, String.toList_ofList] at hc
    rw [List.eq_of_mem_replicate hc]
    rfl
  rw [mark, Stops.dropWhile_append (Stops.cons (by decide)) hblanks]
  rfl

theorem closing_ne {c : Char} (h : '/' ≠ c) : mark (closing depth tag ++ rest) ≠ some c := by
  rw [closing, List.append_assoc, List.cons_append, List.cons_append, mark_indent]
  exact fun heq => h (Option.some.inj heq)

theorem mark_element {depth : Nat} {tag : String} {c : Char} {more : List Char}
    (htag : tag.toList = c :: more) (attributes content : String) (rest : List Char) :
    mark ((element depth tag attributes content).toList ++ rest) = some c := by
  simp only [element, String.toList_append, htag, List.append_assoc]
  exact mark_indent depth c _

/-- Neither a row of elements nor what follows it begins in a certain way. -/
theorem row_ne {α : Type} {text : α → String} {c d : Char}
    (hmark : ∀ a rest, mark ((text a).toList ++ rest) = some d) (hne : d ≠ c)
    (hrest : mark rest ≠ some c) (row : List α) :
    mark ((String.join (row.map text)).toList ++ rest) ≠ some c := by
  cases row with
  | nil => exact hrest
  | cons a row =>
    rw [List.map_cons, String.join_cons, String.toList_append, List.append_assoc, hmark]
    exact fun heq => hne (Option.some.inj heq)

/-- A row of elements that begin alike is told from what follows if that begins in another way. -/
theorem rows_inj {α β : Type} {text : α → String} {c : Char} (key : α → β)
    (hmark : ∀ a rest, mark ((text a).toList ++ rest) = some c)
    {row row' : List α} {rest rest' : List Char}
    (hinj : ∀ a ∈ row, ∀ b rest rest', (text a).toList ++ rest = (text b).toList ++ rest' →
      key a = key b ∧ rest = rest')
    (hrest : mark rest ≠ some c) (hrest' : mark rest' ≠ some c)
    (h : (String.join (row.map text)).toList ++ rest =
      (String.join (row'.map text)).toList ++ rest') :
    row.map key = row'.map key ∧ rest = rest' := by
  induction row generalizing row' with
  | nil =>
    cases row' with
    | nil => exact ⟨rfl, h⟩
    | cons b row' =>
      rw [List.map_cons, String.join_cons, String.toList_append, List.append_assoc] at h
      exact absurd ((congrArg mark h).trans (hmark b _)) hrest
  | cons a row ih =>
    rw [List.map_cons, String.join_cons, String.toList_append, List.append_assoc] at h
    cases row' with
    | nil => exact absurd ((congrArg mark h).symm.trans (hmark a _)) hrest'
    | cons b row' =>
      rw [List.map_cons, String.join_cons, String.toList_append, List.append_assoc] at h
      obtain ⟨hkey, hmore⟩ := hinj a List.mem_cons_self b _ _ h
      obtain ⟨hkeys, hmore⟩ := ih (fun a ha => hinj a (List.mem_cons_of_mem _ ha)) hmore
      exact ⟨congrArg₂ List.cons hkey hkeys, hmore⟩

/-! ## Reading back -/

theorem event_inj {entry entry' : HandledEvent}
    (h : (event depth entry).toList ++ rest = (event depth entry').toList ++ rest') :
    entry = entry' ∧ rest = rest' := by
  obtain ⟨event, handler, real⟩ := entry
  obtain ⟨event', handler', real'⟩ := entry'
  refine (element_inj (fun {rest rest'} hstops hstops' h => ?_) h).imp_right fun hmore =>
    List.append_cancel_left hmore
  simp only [String.toList_append, List.append_assoc] at h
  obtain ⟨rfl, hhandler⟩ := attr_inj h
  obtain ⟨rfl, hreal⟩ := attr_inj hhandler
  cases real <;> cases real'
  · exact ⟨rfl, hreal⟩
  · exact absurd hreal (ne_attr hstops)
  · exact absurd hreal.symm (ne_attr hstops')
  · obtain ⟨rfl, hrest⟩ := attr_inj hreal
    exact ⟨rfl, hrest⟩

theorem allViews_eq (depth : Nat) (views : List ViewTree) :
    allViews depth views = String.join (views.map (view depth)) := by
  induction views with
  | nil => rfl
  | cons tree rest ih => rw [allViews, ih, List.map_cons, String.join_cons]

theorem mark_event (depth : Nat) (entry : HandledEvent) (rest : List Char) :
    mark ((event depth entry).toList ++ rest) = some 'E' :=
  mark_element rfl _ _ rest

theorem mark_view (depth : Nat) (tree : ViewTree) (rest : List Char) :
    mark ((view depth tree).toList ++ rest) = some 'V' := by
  obtain ⟨owner, id, idName, views, events⟩ := tree
  rw [view]
  exact mark_element rfl _ _ rest

theorem decimal_inj {id id' : ResId} (h : decimal id.toInt = decimal id'.toInt) : id = id' := by
  have hread := (Stmt.readInt?_decimal id).2
  rw [h, (Stmt.readInt?_decimal id').2] at hread
  cases hread
  rfl

theorem view_inj (tree : ViewTree) : ∀ {depth : Nat} {tree' : ViewTree} {rest rest' : List Char},
    (view depth tree).toList ++ rest = (view depth tree').toList ++ rest' →
      tree = tree' ∧ rest = rest' := by
  induction tree using ViewTree.induction with
  | h tree ih =>
    intro depth tree' rest rest' h
    obtain ⟨owner, key, idName, views, events⟩ := tree
    obtain ⟨owner', key', idName', views', events'⟩ := tree'
    rw [view, view, allViews_eq, allViews_eq] at h
    obtain ⟨⟨rfl, rfl, rfl⟩, hmore⟩ : (owner = owner' ∧ key = key' ∧ idName = idName') ∧ _ := by
      refine element_inj (fun {rest rest'} _ _ h => ?_) h
      simp only [String.toList_append, List.append_assoc] at h
      obtain ⟨howner, hmore⟩ := attr_inj h
      obtain ⟨hid, hmore⟩ := attr_inj hmore
      obtain ⟨hname, hrest⟩ := attr_inj hmore
      exact ⟨⟨howner, decimal_inj hid, hname⟩, hrest⟩
    have hstop {rest} : ∀ views : List ViewTree,
        mark ((String.join (views.map (view (depth + 1)))).toList ++
          (closing depth "View" ++ rest)) ≠ some 'E' :=
      row_ne (mark_view (depth + 1)) (by decide) (closing_ne (by decide))
    simp only [String.toList_append, List.append_assoc] at hmore
    obtain ⟨hevents, hmore⟩ := rows_inj id (mark_event (depth + 1))
      (fun _ _ _ _ _ h => event_inj h) (hstop _) (hstop _) hmore
    obtain ⟨hviews, hmore⟩ := rows_inj id (mark_view (depth + 1))
      (fun inner hinner _ _ _ h => ih inner hinner h) (closing_ne (by decide))
      (closing_ne (by decide)) hmore
    simp only [List.map_id] at hevents hviews
    rw [hevents, hviews]
    exact ⟨rfl, List.append_cancel_left hmore⟩

theorem window_inj {tree tree' : WindowTree}
    (h : (window tag tree).toList ++ rest = (window tag tree').toList ++ rest') :
    tree.withoutIndex = tree'.withoutIndex ∧ rest = rest' := by
  obtain ⟨name, creation, views⟩ := tree
  obtain ⟨name', creation', views'⟩ := tree'
  rw [window, window, allViews_eq, allViews_eq] at h
  obtain ⟨⟨rfl, hcreation⟩, hmore⟩ : (name = name' ∧
      creation.map (fun creation => { creation with index := 0 }) =
        creation'.map fun creation => { creation with index := 0 }) ∧ _ := by
    refine element_inj (fun {rest rest'} hstops hstops' h => ?_) h
    simp only [String.toList_append, List.append_assoc] at h
    obtain ⟨rfl, hmore⟩ := attr_inj h
    cases creation <;> cases creation'
    · exact ⟨⟨rfl, rfl⟩, hmore⟩
    · rw [String.toList_append, List.append_assoc] at hmore
      exact absurd hmore (ne_attr hstops)
    · rw [String.toList_append, List.append_assoc] at hmore
      exact absurd hmore.symm (ne_attr hstops')
    · simp only [String.toList_append, List.append_assoc] at hmore
      obtain ⟨hstmt, hmore⟩ := attr_inj hmore
      obtain ⟨hmethod, hrest⟩ := attr_inj hmore
      exact ⟨⟨rfl, by simp [hstmt, hmethod]⟩, hrest⟩
  obtain ⟨hviews, hmore⟩ := rows_inj id (mark_view 2) (fun _ _ _ _ _ h => view_inj _ h)
    (closing_ne (by decide)) (closing_ne (by decide)) hmore
  simp only [List.map_id] at hviews
  rw [WindowTree.withoutIndex, WindowTree.withoutIndex, hviews, hcreation]
  exact ⟨rfl, List.append_cancel_left hmore⟩

theorem mark_window {c : Char} {more : List Char} (htag : tag.toList = c :: more)
    (tree : WindowTree) (rest : List Char) : mark ((window tag tree).toList ++ rest) = some c :=
  mark_element htag _ _ rest

theorem toList_render (tree : AppTree) : (render tree).toList =
    "<GUIHierarchy".toList ++ ((attr "app" tree.app).toList ++ (['>', '\n'] ++
      ((String.join (tree.activities.map (window "Activity"))).toList ++
        ((String.join (tree.dialogs.map (window "Dialog"))).toList ++
          (closing 0 "GUIHierarchy" ++ []))))) := by
  have hclose : "</GUIHierarchy>\n".toList = closing 0 "GUIHierarchy" := by decide +kernel
  have hend : ">\n".toList = ['>', '\n'] := by decide +kernel
  simp only [render, String.toList_append, hclose, hend, List.append_assoc, List.append_nil]

theorem render_inj {tree tree' : AppTree} (h : render tree = render tree') :
    tree.withoutIndices = tree'.withoutIndices := by
  have hactivity := @mark_window "Activity" 'A' _ rfl
  have hdialog := @mark_window "Dialog" 'D' _ rfl
  have hstop : ∀ dialogs : List WindowTree, mark ((String.join (dialogs.map
      (window "Dialog"))).toList ++ (closing 0 "GUIHierarchy" ++ [])) ≠ some 'A' :=
    row_ne hdialog (by decide) (closing_ne (by decide))
  have hchars := congrArg String.toList h
  rw [toList_render, toList_render] at hchars
  obtain ⟨happ, hmore⟩ := attr_inj (List.append_cancel_left hchars)
  obtain ⟨hactivities, hmore⟩ := rows_inj WindowTree.withoutIndex hactivity
    (fun _ _ _ _ _ h => window_inj h) (hstop _) (hstop _) (List.append_cancel_left hmore)
  obtain ⟨hdialogs, -⟩ := rows_inj WindowTree.withoutIndex hdialog
    (fun _ _ _ _ _ h => window_inj h) (closing_ne (by decide)) (closing_ne (by decide)) hmore
  rw [AppTree.withoutIndices, AppTree.withoutIndices, happ, hactivities, hdialogs]

theorem render_withoutIndices (tree : AppTree) : render tree.withoutIndices = render tree := by
  have hwindow : ∀ tag, window tag ∘ WindowTree.withoutIndex = window tag := by
    intro tag
    funext tree
    obtain ⟨name, creation, views⟩ := tree
    cases creation <;> rfl
  simp only [render, AppTree.withoutIndices, List.map_map, hwindow]

/-! ## Counting tags -/

/-- The number of places in a text where a piece stands. -/
def occurrences (piece text : List Char) : Nat := text.tails.countP (piece <+: ·)

/-- The number of places in a text where a tag begins like a name. -/
def tags (name : String) (text : List Char) : Nat := occurrences ('<' :: name.toList) text

section Tags

variable {name : String} {ofView ofEvent : Nat}

theorem tags_cons (c : Char) (rest : List Char) : tags name (c :: rest) =
    (if c = '<' ∧ name.toList <+: rest then 1 else 0) + tags name rest := by
  have hcons : decide ('<' :: name.toList <+: c :: rest) = true ↔
      c = '<' ∧ name.toList <+: rest := by
    rw [decide_eq_true_iff, List.cons_prefix_cons, eq_comm]
  rw [tags, occurrences, List.tails, List.countP_cons, Nat.add_comm]
  exact congrArg (· + tags name rest) (if_congr hcons rfl rfl)

theorem tags_append {run : List Char} (h : '<' ∉ run) (rest : List Char) :
    tags name (run ++ rest) = tags name rest := by
  induction run with
  | nil => rfl
  | cons c run ih =>
    obtain ⟨hc, hrun⟩ := not_or.mp (mt List.mem_cons.mpr h)
    rw [List.cons_append, tags_cons, if_neg fun hand => hc hand.1.symm, Nat.zero_add, ih hrun]

theorem not_mem_attr {key value : String} (h : '<' ∉ key.toList) :
    '<' ∉ (attr key value).toList := by
  have hvalue : '<' ∉ (escape value).toList := fun hmem => (ne_of_mem_escape hmem).2 rfl
  simp [toList_attr, h, hvalue]

/-- The tag at the beginning of an element counts as often as `count` says, and the one at its end
not at all. -/
structure Weighs (name tag : String) (count : Nat) : Prop where
  start : ∀ rest, tags name ('<' :: (tag.toList ++ rest)) = count + tags name rest
  stop : ∀ rest, tags name ('<' :: '/' :: (tag.toList ++ rest)) = tags name rest

theorem tags_closing {count : Nat} (h : Weighs name tag count) (rest : List Char) :
    tags name (closing depth tag ++ rest) = tags name rest := by
  rw [closing, List.append_assoc, tags_append (by simp [indent]), List.cons_append,
    List.cons_append, List.append_assoc, h.stop]
  exact tags_append (by decide) rest

theorem tags_element {own inner : Nat} (h : Weighs name tag own)
    (hattributes : '<' ∉ attributes.toList)
    (hcontent : ∀ rest, tags name (content.toList ++ rest) = inner + tags name rest)
    (rest : List Char) :
    tags name ((element depth tag attributes content).toList ++ rest) =
      own + inner + tags name rest := by
  have hend : '<' ∉ ending content := by
    unfold ending
    split <;> decide
  simp only [toList_element, List.append_assoc, List.cons_append]
  rw [tags_append (by simp [indent]), h.start, tags_append hattributes, tags_append hend,
    Nat.add_assoc, ← hcontent]
  cases hempty : content.isEmpty with
  | true =>
    rw [String.isEmpty_iff.mp hempty]
    rfl
  | false =>
    rw [if_neg Bool.false_ne_true, List.append_assoc, hcontent, hcontent, tags_closing h]

theorem tags_row {α : Type} {text : α → String} {count : α → Nat} {row : List α}
    (h : ∀ a ∈ row, ∀ rest, tags name ((text a).toList ++ rest) = count a + tags name rest)
    (rest : List Char) : tags name ((String.join (row.map text)).toList ++ rest) =
      (row.map count).sum + tags name rest := by
  induction row with
  | nil => simp
  | cons a row ih =>
    rw [List.map_cons, String.join_cons, String.toList_append, List.append_assoc,
      h a List.mem_cons_self, ih fun b hb => h b (List.mem_cons_of_mem _ hb), List.map_cons,
      List.sum_cons, Nat.add_assoc]

theorem tags_event (h : Weighs name "EventAndHandler" ofEvent) (depth : Nat) (entry : HandledEvent)
    (rest : List Char) :
    tags name ((event depth entry).toList ++ rest) = ofEvent + tags name rest := by
  have hempty : ∀ rest, tags name ("".toList ++ rest) = 0 + tags name rest :=
    fun rest => (Nat.zero_add _).symm
  refine tags_element h ?_ hempty rest
  cases entry.realHandler <;> simp [not_mem_attr]

section Trees

variable (hview : Weighs name "View" ofView) (hevent : Weighs name "EventAndHandler" ofEvent)
include hview hevent

theorem tags_view (tree : ViewTree) : ∀ (depth : Nat) (rest : List Char),
    tags name ((view depth tree).toList ++ rest) =
      ofView * tree.viewCount + ofEvent * tree.handlerCount + tags name rest := by
  induction tree using ViewTree.induction with
  | h tree ih =>
    intro depth rest
    have hevents := tags_row fun entry (_ : entry ∈ tree.events) =>
      tags_event hevent (depth + 1) entry
    have hviews := tags_row fun inner hinner => ih inner hinner (depth + 1)
    obtain ⟨owner, id, idName, views, events⟩ := tree
    rw [view, allViews_eq, tags_element hview (by simp [not_mem_attr]) fun rest => by
      rw [String.toList_append, List.append_assoc, hevents, hviews, ← Nat.add_assoc]]
    rw [sum_counts, List.map_const', List.sum_replicate_nat, ViewTree.viewCount,
      ViewTree.handlerCount, Nat.mul_add, Nat.mul_add, Nat.mul_one, Nat.mul_comm events.length]
    dsimp only
    omega

theorem tags_window (htag : Weighs name tag 0) (tree : WindowTree) (rest : List Char) :
    tags name ((window tag tree).toList ++ rest) = ofView * ViewTree.viewCountAll tree.views +
      ofEvent * ViewTree.handlerCountAll tree.views + tags name rest := by
  have hviews := tags_row fun inner (_ : inner ∈ tree.views) => tags_view hview hevent inner 2
  rw [window, allViews_eq, tags_element htag ?_ hviews, sum_counts, Nat.zero_add]
  cases tree.creation <;> simp [not_mem_attr]

theorem tags_render (hactivity : Weighs name "Activity" 0) (hdialog : Weighs name "Dialog" 0)
    (happ : Weighs name "GUIHierarchy" 0) (tree : AppTree) :
    tags name (render tree).toList = ofView * tree.viewCount + ofEvent * tree.handlerCount := by
  have hactivities := tags_row fun window (_ : window ∈ tree.activities) =>
    tags_window hview hevent hactivity window
  have hdialogs := tags_row fun window (_ : window ∈ tree.dialogs) =>
    tags_window hview hevent hdialog window
  have hopen : "<GUIHierarchy".toList = '<' :: "GUIHierarchy".toList := by decide +kernel
  have hnone : tags name [] = 0 := by simp [tags, occurrences]
  rw [toList_render, hopen, List.cons_append, happ.start, tags_append (not_mem_attr (by decide)),
    tags_append (by decide), hactivities, hdialogs, tags_closing happ, hnone, Nat.zero_add,
    Nat.add_zero, ← List.sum_append, ← List.map_append]
  change (tree.windows.map _).sum = _
  unfold AppTree.viewCount AppTree.handlerCount
  induction tree.windows with
  | nil => rfl
  | cons window rest ih =>
    rw [List.map_cons, List.sum_cons, ih, List.foldr_cons, List.foldr_cons, Nat.mul_add,
      Nat.mul_add]
    omega

end Trees

end Tags

/-- The report of an application tells all that its windows hold but the indices of the statements
that create dialogs, and each view and each handled event has one tag in it. -/
theorem render_faithful :
    (∀ tree tree' : AppTree,
      render tree = render tree' ↔ tree.withoutIndices = tree'.withoutIndices) ∧
    ∀ tree : AppTree,
      occurrences "<View".toList (render tree).toList = tree.viewCount ∧
        occurrences "<EventAndHandler".toList (render tree).toList = tree.handlerCount := by
  refine ⟨fun tree tree' => ⟨render_inj, fun h => ?_⟩, fun tree => ⟨?_, ?_⟩⟩
  · rw [← render_withoutIndices, h, render_withoutIndices]
  · have hcount := @tags_render "View" 1 0 ⟨by simp [tags_cons], by simp [tags_cons]⟩
      ⟨by simp [tags_cons], by simp [tags_cons]⟩ ⟨by simp [tags_cons], by simp [tags_cons]⟩
      ⟨by simp [tags_cons], by simp [tags_cons]⟩ ⟨by simp [tags_cons], by simp [tags_cons]⟩ tree
    rwa [Nat.one_mul, Nat.zero_mul, Nat.add_zero] at hcount
  · have hcount := @tags_render "EventAndHandler" 0 1 ⟨by simp [tags_cons], by simp [tags_cons]⟩
      ⟨by simp [tags_cons], by simp [tags_cons]⟩ ⟨by simp [tags_cons], by simp [tags_cons]⟩
      ⟨by simp [tags_cons], by simp [tags_cons]⟩ ⟨by simp [tags_cons], by simp [tags_cons]⟩ tree
    rwa [Nat.one_mul, Nat.zero_mul, Nat.zero_add] at hcount

end XmlReport

end WidgetFlow
