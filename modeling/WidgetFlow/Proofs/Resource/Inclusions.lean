import Mathlib.Data.Finset.Card
import Mathlib.Data.Finset.SDiff
import Mathlib.Logic.Relation
import WidgetFlow.Resource.Table

/-!
# What inclusions become

The place holders of a layout are replaced by copies of the layouts that they name. `Expands` states
the rules: a place holder is left out only if no layout has its name, or if its layout is one of
those around it. `resolveIncludes` follows these rules in every layout (`includes_resolved`), so the
bound on its recursion is never met: the layouts around a place holder are all different. If the
layouts do not include each other in circles, the second reason for leaving a place holder out does
not arise.
-/

namespace WidgetFlow

/-- The root of an included tree; the identifier of the inclusion goes before its own. -/
def Inclusion.rooted (inclusion : Inclusion) (root : Element) : Element :=
  { root with id := inclusion.id.or root.id }

namespace Element

variable {e : Element} {rest : List Element} {replace : Inclusion → Option Element}
variable {inclusion : Inclusion}

theorem forest_induction {motive : List Element → Prop} (nil : motive [])
    (cons : ∀ e rest, motive e.children → motive rest → motive (e :: rest)) :
    ∀ elements, motive elements
  | [] => nil
  | ⟨_, _, _, children, _, _⟩ :: rest =>
    cons _ rest (forest_induction nil cons children) (forest_induction nil cons rest)

mutual

/-- The inclusions below the root of a tree. What stands inside a place holder goes with it and does
not count. -/
def inclusions : Element → List Inclusion
  | ⟨_, _, _, children, _, _⟩ => inclusionsAll children

/-- The inclusions in some trees, their roots among them. -/
def inclusionsAll : List Element → List Inclusion
  | [] => []
  | ⟨_, _, _, children, _, none⟩ :: rest => inclusionsAll children ++ inclusionsAll rest
  | ⟨_, _, _, _, _, some inclusion⟩ :: rest => inclusion :: inclusionsAll rest

end

theorem expand_eq (e : Element) :
    e.expand replace = { e with children := expandAll replace e.children } := by
  cases e
  rw [expand]

theorem walk_eq (e : Element) : e.walk = e :: walkAll e.children := by
  cases e
  rw [walk]

theorem mem_walkAll_cons {other : Element} :
    other ∈ walkAll (e :: rest) ↔
      other = e ∨ other ∈ walkAll e.children ∨ other ∈ walkAll rest := by
  simp [walkAll, walk_eq]

end Element

namespace ResourceTable

open Element

variable {table : ResourceTable} {system : Bool} {dst : IncludeTarget} {id : ResId}
variable {tree : Element}

/-! ## What place holders name -/

/-- A layout of one's own side or of the platform. -/
def IsLayout (table : ResourceTable) (system : Bool) (id : ResId) (tree : Element) : Prop :=
  (table.ownLayouts system)[id]? = some tree ∨ table.sysLayouts[id]? = some tree

def Names (table : ResourceTable) (system : Bool) (id : ResId) (tree : Element) :
    IncludeTarget → Prop
  | .named name true =>
    table.sys.id? .layout name = some id ∧ table.sysLayouts[id]? = some tree
  | .named name false =>
    (table.own system).id? .layout name = some id ∧ (table.ownLayouts system)[id]? = some tree ∨
      table.sys.id? .layout name = some id ∧ table.sysLayouts[id]? = some tree
  | .numbered number => number = id ∧ table.IsLayout system id tree

theorem Names.isLayout (h : table.Names system id tree dst) : table.IsLayout system id tree := by
  cases dst with
  | named name platform =>
    cases platform with
    | true => exact .inr h.2
    | false => exact h.imp And.right And.right
  | numbered number => exact h.2

/-- An inclusion stands for a layout that has its name or number. -/
theorem names_of_includeTarget? (h : table.includeTarget? system dst = some (id, tree)) :
    table.Names system id tree dst := by
  cases dst with
  | named name platform =>
    cases platform with
    | true => simpa [includeTarget?, Names, Option.bind_eq_some_iff] using h
    | false =>
      simp only [includeTarget?, Option.orElse_eq_orElse, Option.orElse_eq_or,
        Option.or_eq_some_iff] at h
      refine h.imp (fun hown => ?_) fun hplatform => ?_
      · simpa [Option.bind_eq_some_iff] using hown
      · simpa [Option.bind_eq_some_iff] using hplatform.2
  | numbered number =>
    simp only [includeTarget?, Option.orElse_eq_orElse, Option.orElse_eq_or,
      Option.or_eq_some_iff, Option.map_eq_some_iff, Prod.mk.injEq] at h
    obtain ⟨_, htree, rfl, rfl⟩ | ⟨_, _, htree, rfl, rfl⟩ := h
    · exact ⟨rfl, .inl htree⟩
    · exact ⟨rfl, .inr htree⟩

/-- An inclusion stands for some layout if one has its name or number. -/
theorem Names.includeTarget?_ne_none (h : table.Names system id tree dst) :
    table.includeTarget? system dst ≠ none := by
  cases dst with
  | named name platform =>
    cases platform with
    | true =>
      obtain ⟨hid, htree⟩ := h
      simp [includeTarget?, hid, htree]
    | false =>
      rcases h with ⟨hid, htree⟩ | ⟨hid, htree⟩
      · simp [includeTarget?, hid, htree]
      · simp [includeTarget?, hid, htree]
  | numbered number =>
    obtain ⟨rfl, htree | htree⟩ := h
    · simp [includeTarget?, htree]
    · simp [includeTarget?, htree]

/-! ## The rules -/

/-- `Expands table system chain elements res` says that `res` is `elements` with their place
holders replaced. `chain` holds the layouts around the elements, which are not included again; with
no chain every layout is included. -/
inductive Expands (table : ResourceTable) (system : Bool) :
    Option (List ResId) → List Element → List Element → Prop where
  | nil {chain} : Expands table system chain [] []
  | view {chain e rest below res} (hview : e.inclusion = none)
      (hbelow : Expands table system chain e.children below)
      (hrest : Expands table system chain rest res) :
      Expands table system chain (e :: rest) ({ e with children := below } :: res)
  | replaced {chain e inclusion id root rest below res}
      (hinclusion : e.inclusion = some inclusion)
      (htarget : table.includeTarget? system inclusion.target = some (id, root))
      (hnew : ∀ around ∈ chain, id ∉ around)
      (hbelow : Expands table system (chain.map (id :: ·)) root.children below)
      (hrest : Expands table system chain rest res) :
      Expands table system chain (e :: rest)
        ({ inclusion.rooted root with children := below } :: res)
  | missing {chain e inclusion rest res}
      (hinclusion : e.inclusion = some inclusion)
      (hmissing : ∀ id root, ¬ table.Names system id root inclusion.target)
      (hrest : Expands table system chain rest res) :
      Expands table system chain (e :: rest) res
  | circular {chain e inclusion id root rest res}
      (hinclusion : e.inclusion = some inclusion)
      (htarget : table.includeTarget? system inclusion.target = some (id, root))
      (haround : ∃ around ∈ chain, id ∈ around)
      (hrest : Expands table system chain rest res) :
      Expands table system chain (e :: rest) res

variable {chain : Option (List ResId)} {elements res : List Element}

theorem Expands.unique (h : Expands table system chain elements res) :
    ∀ {other}, Expands table system chain elements other → res = other := by
  induction h with
  | nil =>
    intro other hother
    cases hother
    rfl
  | view hview hbelow hrest ihbelow ihrest =>
    intro other hother
    cases hother with
    | view _ hbelow' hrest' => rw [ihbelow hbelow', ihrest hrest']
    | _ => simp_all
  | replaced hinclusion htarget hnew hbelow hrest ihbelow ihrest =>
    intro other hother
    cases hother with
    | replaced hinclusion' htarget' hnew' hbelow' hrest' =>
      cases hinclusion.symm.trans hinclusion'
      cases htarget.symm.trans htarget'
      rw [ihbelow hbelow', ihrest hrest']
    | missing hinclusion' hmissing' =>
      cases hinclusion.symm.trans hinclusion'
      exact absurd (names_of_includeTarget? htarget) (hmissing' _ _)
    | circular hinclusion' htarget' haround' =>
      cases hinclusion.symm.trans hinclusion'
      cases htarget.symm.trans htarget'
      obtain ⟨around, haround, hid⟩ := haround'
      exact absurd hid (hnew around haround)
    | view hview' => simp_all
  | missing hinclusion hmissing hrest ihrest =>
    intro other hother
    cases hother with
    | missing _ _ hrest' => exact ihrest hrest'
    | replaced hinclusion' htarget' | circular hinclusion' htarget' =>
      cases hinclusion.symm.trans hinclusion'
      exact absurd (names_of_includeTarget? htarget') (hmissing _ _)
    | view hview' => simp_all
  | circular hinclusion htarget haround hrest ihrest =>
    intro other hother
    cases hother with
    | circular _ _ _ hrest' => exact ihrest hrest'
    | missing _ _ hrest' => exact ihrest hrest'
    | replaced hinclusion' htarget' hnew' =>
      cases hinclusion.symm.trans hinclusion'
      cases htarget.symm.trans htarget'
      obtain ⟨around, haround, hid⟩ := haround
      exact absurd hid (hnew' around haround)
    | view hview' => simp_all

theorem Expands.iff_eq (h : Expands table system chain elements res) {other : List Element} :
    Expands table system chain elements other ↔ other = res :=
  ⟨fun hother => hother.unique h, fun heq => heq ▸ h⟩

/-! ## The recursion -/

section Expand

variable {bound : Nat} {around : List ResId} {inclusion : Inclusion} {root : Element}

/-- What a place holder within some layouts is replaced by. -/
def replacement? (table : ResourceTable) (system : Bool) (bound : Nat) (around : List ResId)
    (inclusion : Inclusion) : Option Element :=
  (table.includeTarget? system inclusion.target).bind fun dst =>
    if dst.1 ∈ around then none
    else some (table.expand system bound (dst.1 :: around) (inclusion.rooted dst.2))

theorem expand_succ (tree : Element) :
    table.expand system (bound + 1) around tree =
      tree.expand (table.replacement? system bound around) := by
  rw [expand]
  congr 1
  funext inclusion
  unfold replacement?
  cases table.includeTarget? system inclusion.target with
  | none => rfl
  | some dst =>
    obtain ⟨_, ⟨⟩⟩ := dst
    cases hid : inclusion.id <;> simp [Inclusion.rooted, hid]

/-- Replacing place holders changes nothing of the root but its children. -/
theorem expand_eq_with_children (tree : Element) :
    table.expand system bound around tree =
      { tree with children := (table.expand system bound around tree).children } := by
  cases bound with
  | zero =>
    rw [expand]
    cases tree
    rfl
  | succ bound => rw [expand_succ, Element.expand_eq]

def remaining (table : ResourceTable) (around : List ResId) : Finset ResId :=
  (table.layouts.keys ++ table.sysLayouts.keys).toFinset \ around.toFinset

theorem IsLayout.mem_keys (h : table.IsLayout system id tree) :
    id ∈ table.layouts.keys ++ table.sysLayouts.keys := by
  have hlayout : table.layouts[id]? = some tree ∨ table.sysLayouts[id]? = some tree := by
    cases system with
    | true => exact .inr (h.elim (fun hown => hown) fun hplatform => hplatform)
    | false => exact h
  have hmem {trees : Trees} (htree : trees[id]? = some tree) : id ∈ trees := by
    rw [Std.TreeMap.mem_iff_isSome_getElem?, htree]
    rfl
  rw [List.mem_append, Std.TreeMap.mem_keys, Std.TreeMap.mem_keys]
  exact hlayout.imp hmem hmem

theorem card_remaining_lt (h : table.IsLayout system id tree) (haround : id ∉ around) :
    (table.remaining (id :: around)).card < (table.remaining around).card := by
  have hmem : id ∈ table.remaining around := by
    simp only [remaining, Finset.mem_sdiff, List.mem_toFinset]
    exact ⟨h.mem_keys, haround⟩
  have herase : table.remaining (id :: around) = (table.remaining around).erase id := by
    rw [remaining, List.toFinset_cons, Finset.sdiff_insert]
    rfl
  rw [herase]
  exact Finset.card_erase_lt_of_mem hmem

/-- Replacing place holders follows the rules as long as the bound exceeds the number of layouts
that are not around. -/
theorem expands_expand (tree : Element) (hbound : (table.remaining around).card < bound) :
    Expands table system (some around) tree.children
      (table.expand system bound around tree).children := by
  -- the bound counts the layouts around, and the elements of one layout are gone through inside
  induction bound generalizing around tree with
  | zero => exact absurd hbound (Nat.not_lt_zero _)
  | succ bound ih =>
    rw [expand_succ, Element.expand_eq]
    show Expands table system (some around) tree.children
      (expandAll (table.replacement? system bound around) tree.children)
    induction tree.children using forest_induction with
    | nil =>
      rw [expandAll]
      exact .nil
    | cons e rest ihbelow ihrest =>
      obtain ⟨_, _, _, _, _, _ | inclusion⟩ := e
      · rw [expandAll, Element.expand]
        exact .view rfl ihbelow ihrest
      · rw [expandAll, replacement?]
        cases htarget : table.includeTarget? system inclusion.target with
        | none =>
          exact .missing rfl (fun id root hnames => hnames.includeTarget?_ne_none htarget) ihrest
        | some dst =>
          obtain ⟨id, root⟩ := dst
          rw [Option.bind_some]
          by_cases haround : id ∈ around
          · rw [if_pos haround]
            exact .circular rfl htarget ⟨around, rfl, haround⟩ ihrest
          · rw [if_neg haround, expand_eq_with_children]
            have hlayout := (names_of_includeTarget? htarget).isLayout
            have hbound' : (table.remaining (id :: around)).card < bound := by
              have := card_remaining_lt hlayout haround
              omega
            exact .replaced rfl htarget (by simpa using haround)
              (ih (inclusion.rooted root) hbound') ihrest

end Expand

/-! ## Layouts that include each other -/

/-- A layout holds a place holder for an inclusion, which stands for the root of another layout. -/
structure Calls (table : ResourceTable) (system : Bool) (outer : ResId) (inclusion : Inclusion)
    (inner : ResId) (root : Element) : Prop where
  held : ∃ tree, table.IsLayout system outer tree ∧ inclusion ∈ tree.inclusions
  target : table.includeTarget? system inclusion.target = some (inner, root)

def Includes (table : ResourceTable) (system : Bool) (outer inner : ResId) : Prop :=
  ∃ inclusion root, table.Calls system outer inclusion inner root

/-- An element is the copy of the root of a layout that another one includes, through others or
directly. -/
def IsCopy (table : ResourceTable) (system : Bool) (s : ResId) (e : Element) : Prop :=
  ∃ outer inclusion inner root, Relation.ReflTransGen (table.Includes system) s outer ∧
    table.Calls system outer inclusion inner root ∧
      e = { inclusion.rooted root with children := e.children }

/-- All inclusions in some trees are held by a layout. -/
def HeldBy (table : ResourceTable) (system : Bool) (outer : ResId) (elements : List Element) :
    Prop :=
  ∀ inclusion ∈ inclusionsAll elements,
    ∃ tree, table.IsLayout system outer tree ∧ inclusion ∈ tree.inclusions

section HeldBy

variable {outer s : ResId} {e : Element} {rest : List Element} {inclusion : Inclusion}

theorem IsLayout.heldBy (h : table.IsLayout system id tree) :
    table.HeldBy system id tree.children := by
  cases tree
  exact fun inclusion hinclusion => ⟨_, h, by rwa [inclusions]⟩

theorem HeldBy.of_view (h : table.HeldBy system outer (e :: rest))
    (hview : e.inclusion = none) :
    table.HeldBy system outer e.children ∧ table.HeldBy system outer rest := by
  cases e
  cases hview
  rw [HeldBy, inclusionsAll] at h
  constructor
  · intro inclusion hinclusion
    exact h inclusion (List.mem_append_left _ hinclusion)
  · intro inclusion hinclusion
    exact h inclusion (List.mem_append_right _ hinclusion)

theorem HeldBy.of_placeHolder (h : table.HeldBy system outer (e :: rest))
    (hinclusion : e.inclusion = some inclusion) :
    (∃ tree, table.IsLayout system outer tree ∧ inclusion ∈ tree.inclusions) ∧
      table.HeldBy system outer rest := by
  cases e
  cases hinclusion
  rw [HeldBy, inclusionsAll] at h
  constructor
  · exact h inclusion List.mem_cons_self
  · intro other hother
    exact h other (List.mem_cons_of_mem _ hother)

/-- Place holders that remain are copies of roots: the others are all replaced or left out. -/
theorem Expands.isCopy (h : Expands table system chain elements res)
    (hs : Relation.ReflTransGen (table.Includes system) s outer)
    (hheld : table.HeldBy system outer elements) :
    ∀ e ∈ walkAll res, e.inclusion ≠ none →
      table.IsCopy system s e := by
  induction h generalizing outer with
  | nil =>
    intro e helement
    simp [walkAll] at helement
  | view hview hbelow hrest ihbelow ihrest =>
    obtain ⟨hheldBelow, hheldRest⟩ := hheld.of_view hview
    intro e helement hplace
    rcases mem_walkAll_cons.mp helement with rfl | helement | helement
    · exact absurd hview hplace
    · exact ihbelow hs hheldBelow e helement hplace
    · exact ihrest hs hheldRest e helement hplace
  | replaced hinclusion htarget hnew hbelow hrest ihbelow ihrest =>
    obtain ⟨hholder, hheldRest⟩ := hheld.of_placeHolder hinclusion
    have hcalls := Calls.mk hholder htarget
    have hinner := hs.tail ⟨_, _, hcalls⟩
    have hheldBelow := (names_of_includeTarget? htarget).isLayout.heldBy
    intro e helement hplace
    rcases mem_walkAll_cons.mp helement with rfl | helement | helement
    · exact ⟨_, _, _, _, hs, hcalls, rfl⟩
    · exact ihbelow hinner hheldBelow e helement hplace
    · exact ihrest hs hheldRest e helement hplace
  | missing hinclusion hmissing hrest ihrest =>
    exact ihrest hs (hheld.of_placeHolder hinclusion).2
  | circular hinclusion htarget haround hrest ihrest =>
    exact ihrest hs (hheld.of_placeHolder hinclusion).2

/-- Nothing is left out for the layouts around it if no layout includes itself. -/
theorem Expands.unchained (h : Expands table system chain elements res)
    (hacyclic : ∀ id, ¬ Relation.TransGen (table.Includes system) id id)
    (haround : ∀ around ∈ chain, ∀ id ∈ around,
      Relation.ReflTransGen (table.Includes system) id outer)
    (hheld : table.HeldBy system outer elements) :
    Expands table system none elements res := by
  induction h generalizing outer with
  | nil => exact .nil
  | view hview hbelow hrest ihbelow ihrest =>
    obtain ⟨hheldBelow, hheldRest⟩ := hheld.of_view hview
    exact .view hview (ihbelow haround hheldBelow) (ihrest haround hheldRest)
  | @replaced chain e inclusion inner root rest below res hinclusion htarget hnew hbelow
      hrest ihbelow ihrest =>
      obtain ⟨hholder, hheldRest⟩ := hheld.of_placeHolder hinclusion
      have hincludes : table.Includes system outer inner := ⟨_, _, hholder, htarget⟩
      have hheldBelow := (names_of_includeTarget? htarget).isLayout.heldBy
      refine .replaced hinclusion htarget nofun (ihbelow ?_ hheldBelow) (ihrest haround hheldRest)
      intro around hchain id hid
      obtain ⟨around', hchain', rfl⟩ := Option.mem_map.mp hchain
      rcases List.mem_cons.mp hid with rfl | hid
      · exact .refl
      · exact (haround around' hchain' id hid).tail hincludes
  | missing hinclusion hmissing hrest ihrest =>
    exact .missing hinclusion hmissing (ihrest haround (hheld.of_placeHolder hinclusion).2)
  | circular hinclusion htarget hcircular hrest ihrest =>
    -- the layout would include itself through the innermost one around it
    obtain ⟨hholder, _⟩ := hheld.of_placeHolder hinclusion
    obtain ⟨around, hchain, hid⟩ := hcircular
    exact absurd (.tail' (haround around hchain _ hid) ⟨_, _, hholder, htarget⟩) (hacyclic _)

end HeldBy

end ResourceTable

/-! ## Sample layouts -/

namespace Sample

def badge : Element where
  owner := some "android.widget.TextView"

def toBadge : Inclusion where
  target := .named "badge" false
  id := none

def footer : Element where
  owner := some "android.widget.LinearLayout"
  id := some 30
  children := [{ inclusion := some toBadge }]

def toFooter : Inclusion where
  target := .numbered 2
  id := some 20

def toBanner : Inclusion where
  target := .named "banner" true
  id := none

def page : Element where
  owner := some "android.widget.LinearLayout"
  children := [
    { owner := some "android.widget.Button", id := some 10 },
    { owner := some "android.widget.FrameLayout", children := [{ inclusion := some toFooter }] },
    { inclusion := some toBanner }]

/-- A page includes a footer under another identifier, which includes a badge of the platform, and a
banner that is not there. -/
def pages : ResourceTable :=
  (ResourceTable.addLayout {
      sys := ({} : IdTable).insert .layout "badge" 3
      sysLayouts := ({} : Trees).insert 3 badge }
    "page" 1 page).addLayout "footer" 2 footer

theorem target_toFooter : pages.includeTarget? false toFooter.target = some (2, footer) := rfl

theorem target_toBadge : pages.includeTarget? false toBadge.target = some (3, badge) := rfl

theorem target_toBanner : pages.includeTarget? false toBanner.target = none := rfl

/-- The layouts of the sample include only layouts with greater identifiers. -/
theorem lt_of_pages_includes {outer inner : ResId} (h : pages.Includes false outer inner) :
    outer < inner := by
  obtain ⟨inclusion, root, ⟨tree, hlayout, hheld⟩, htarget⟩ := h
  have hcases : outer = 2 ∧ tree = footer ∨ outer = 1 ∧ tree = page ∨ outer = 3 ∧ tree = badge := by
    simp only [ResourceTable.IsLayout, ResourceTable.ownLayouts, pages, ResourceTable.addLayout,
      ResourceTable.addId, Std.TreeMap.getElem?_insert] at hlayout
    grind
  rcases hcases with ⟨rfl, rfl⟩ | ⟨rfl, rfl⟩ | ⟨rfl, rfl⟩
  · have hinclusion : inclusion = toBadge := by
      simpa [footer, Element.inclusions, Element.inclusionsAll] using hheld
    subst hinclusion
    cases target_toBadge.symm.trans htarget
    decide
  · have hinclusion : inclusion = toFooter ∨ inclusion = toBanner := by
      simpa [page, Element.inclusions, Element.inclusionsAll] using hheld
    rcases hinclusion with rfl | rfl
    · cases target_toFooter.symm.trans htarget
      decide
    · cases target_toBanner.symm.trans htarget
  · simp [badge, Element.inclusions, Element.inclusionsAll] at hheld

end Sample

/-! ## All layouts -/

namespace ResourceTable

open Element

variable {table : ResourceTable} {system : Bool} {id : ResId} {tree : Element}

/-- The tree of a layout after its place holders have been replaced. -/
theorem resolved_expands (htree : (table.ownLayouts system)[id]? = some tree) :
    ∃ children, ((table.resolveIncludes system).ownLayouts system)[id]? =
        some { tree with children } ∧
      Expands table system (some [id]) tree.children children := by
  have hbound : (table.remaining [id]).card < table.layouts.size + table.sysLayouts.size + 1 := by
    calc (table.remaining [id]).card
        ≤ (table.layouts.keys ++ table.sysLayouts.keys).toFinset.card :=
          Finset.card_le_card Finset.sdiff_subset
      _ ≤ (table.layouts.keys ++ table.sysLayouts.keys).length := List.toFinset_card_le _
      _ = table.layouts.size + table.sysLayouts.size := by
          rw [List.length_append, Std.TreeMap.length_keys, Std.TreeMap.length_keys]
      _ < table.layouts.size + table.sysLayouts.size + 1 := Nat.lt_succ_self _
  have hget : ((table.resolveIncludes system).ownLayouts system)[id]? =
      ((table.ownLayouts system)[id]?).map
        (table.expand system (table.layouts.size + table.sysLayouts.size + 1) [id]) := by
    cases system <;> exact Std.TreeMap.getElem?_map
  refine ⟨_, ?_, expands_expand tree hbound⟩
  rw [hget, htree, Option.map_some, expand_eq_with_children]

theorem IsCopy.inclusion_eq_none {s : ResId} {e : Element}
    (h : table.IsCopy system s e)
    (hroots : ∀ id root, table.IsLayout system id root → root.inclusion = none) :
    e.inclusion = none := by
  obtain ⟨outer, inclusion, inner, root, _, hcalls, heq⟩ := h
  rw [heq]
  exact hroots inner root (names_of_includeTarget? hcalls.target).isLayout

/-- Every layout gets a tree with its place holders replaced by the rules, and only by them. The
place holders that remain are its root and copies of the roots of layouts that it includes; there
are none if no root of a layout is one. If no layout includes itself, every place holder that names
a layout is replaced, whatever is around it. -/
theorem includes_resolved (htree : (table.ownLayouts system)[id]? = some tree) :
    ∃ children, ((table.resolveIncludes system).ownLayouts system)[id]? =
        some { tree with children } ∧
      (∀ res, Expands table system (some [id]) tree.children res ↔ res = children) ∧
      (∀ e ∈ walk { tree with children }, e.inclusion ≠ none →
        e = { tree with children } ∨ table.IsCopy system id e) ∧
      ((∀ id root, table.IsLayout system id root → root.inclusion = none) →
        ∀ e ∈ walk { tree with children }, e.inclusion = none) ∧
      ((∀ id, ¬ Relation.TransGen (table.Includes system) id id) →
        ∀ res, Expands table system none tree.children res ↔ res = children) := by
  obtain ⟨children, hresolved, hexpands⟩ := resolved_expands htree
  have hheld : table.HeldBy system id tree.children := IsLayout.heldBy (.inl htree)
  have hcopies : ∀ e ∈ walk { tree with children }, e.inclusion ≠ none →
      e = { tree with children } ∨ table.IsCopy system id e := by
    intro e helement hplace
    rw [walk_eq, List.mem_cons] at helement
    exact helement.imp_right fun hbelow => hexpands.isCopy .refl hheld e hbelow hplace
  refine ⟨children, hresolved, fun res => hexpands.iff_eq, hcopies, fun hroots => ?_,
    fun hacyclic res => ?_⟩
  · intro e helement
    by_contra hplace
    rcases hcopies e helement hplace with rfl | hcopy
    · exact hplace (hroots id tree (.inl htree))
    · exact hplace (hcopy.inclusion_eq_none hroots)
  · have haround : ∀ around ∈ some [id], ∀ other ∈ around,
        Relation.ReflTransGen (table.Includes system) other id := by
      intro around haround other hother
      cases haround
      rw [List.mem_singleton.mp hother]
    exact (hexpands.unchained hacyclic haround hheld).iff_eq

/-- In the sample, the page holds the footer with its own badge, and no banner. -/
theorem includes_resolved_pages :
    (∀ id, ¬ Relation.TransGen (Sample.pages.Includes false) id id) ∧
      ((Sample.pages.resolveIncludes false).ownLayouts false)[(1 : ResId)]? = some {
        Sample.page with children := [
          { owner := some "android.widget.Button", id := some 10 },
          { owner := some "android.widget.FrameLayout"
            children := [
              { Sample.footer with id := some 20, children := [Sample.badge] }] }] } := by
  have hpage : (Sample.pages.ownLayouts false)[(1 : ResId)]? = some Sample.page := rfl
  have hacyclic : ∀ id, ¬ Relation.TransGen (Sample.pages.Includes false) id id := by
    have hlt {outer inner} (h : Relation.TransGen (Sample.pages.Includes false) outer inner) :
        outer < inner := by
      induction h with
      | single hincludes => exact Sample.lt_of_pages_includes hincludes
      | tail _ hincludes ih => exact Int32.lt_trans ih (Sample.lt_of_pages_includes hincludes)
    exact fun id hcircle => Int32.lt_irrefl (hlt hcircle)
  have hfooter : Expands Sample.pages false none Sample.footer.children [Sample.badge] := by
    show Expands _ _ _ [_] [{ Sample.toBadge.rooted Sample.badge with children := [] }]
    exact .replaced rfl Sample.target_toBadge (by simp) .nil .nil
  have hframe : Expands Sample.pages false none [{ inclusion := some Sample.toFooter }]
      [{ Sample.footer with id := some 20, children := [Sample.badge] }] := by
    show Expands _ _ _ _ [{ Sample.toFooter.rooted Sample.footer with children := [Sample.badge] }]
    exact .replaced rfl Sample.target_toFooter (by simp) hfooter .nil
  have hbanner : ∀ id root, ¬ Sample.pages.Names false id root Sample.toBanner.target :=
    fun id root hnames => hnames.includeTarget?_ne_none Sample.target_toBanner
  obtain ⟨children, hresolved, _, _, _, hplain⟩ := includes_resolved hpage
  refine ⟨hacyclic, ?_⟩
  rw [hresolved, ← (hplain hacyclic _).mp]
  exact .view rfl .nil (.view rfl hframe (.missing rfl hbanner .nil))

end ResourceTable

end WidgetFlow
