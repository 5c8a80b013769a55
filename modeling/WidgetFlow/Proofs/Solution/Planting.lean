import WidgetFlow.Proofs.Solution.Sprouting

/-!
# What inflating some elements makes

An element is shown if it and all elements around it have a class. Inflation takes the pending
elements level by level and makes one node for each shown element among them and below them.

A position says how to get to an element: the number of the pending element, then the number of a
child again and again. `Pending.Planted` says what inflation makes in terms of positions: which nodes
are new, what they stand for, how they are called and what contains them. When the first pending
element is taken and its children are put at the end, positions change (`Pending.before`), and
`Planted.cons` follows that change. `runs_plant` then shows by induction on the bound what a whole
loop makes.
-/

namespace WidgetFlow

variable {path : List Nat}

namespace Element

/-- The shown element at a position in a tree, with its class. -/
def shownAt? : List Nat → Element → Option (String × Element)
  | [], e => e.owner.map (·, e)
  | index :: path, e => e.owner.bind fun _ =>
    e.children[index]?.bind (shownAt? path)

theorem isSome_shownAt?_of_append {e : Element} {index : Nat}
    (h : (e.shownAt? (path ++ [index])).isSome) : (e.shownAt? path).isSome := by
  induction path generalizing e with
  | nil =>
    cases howner : e.owner with
    | none => simp [shownAt?, howner] at h
    | some owner => simp [shownAt?, howner]
  | cons first path ih =>
    cases howner : e.owner with
    | none => simp [shownAt?, howner] at h
    | some owner =>
      cases hchild : e.children[first]? with
      | none => simp [shownAt?, howner, hchild] at h
      | some c =>
        simp only [shownAt?, List.cons_append, howner, hchild, Option.bind_some] at h ⊢
        exact ih h

theorem walkAll_append (first second : List Element) :
    walkAll (first ++ second) = walkAll first ++ walkAll second := by
  induction first with
  | nil => rfl
  | cons e rest ih => simp [walkAll, ih]

end Element

namespace Solving

open Analysis FlowGraph Pending

variable {p : Option NodeId} {pending : Pending}

namespace Pending

/-! ## Positions -/

def at? (pending : Pending) : List Nat → Option (String × Element)
  | [] => none
  | index :: path => pending[index]?.bind fun entry => entry.1.shownAt? path

/-- The node that will contain what stands at a position: a pending element goes where its entry
says, and all others go into the nodes of the elements around them. -/
def around? (pending : Pending) (n : List Nat → NodeId) : List Nat → Option NodeId
  | [] => none
  | [index] => pending[index]?.bind (·.2)
  | index :: path => some (n (index :: path.dropLast))

/-- The position that something had before the first of the pending elements was taken. -/
def before (offset : Nat) : List Nat → List Nat
  | [] => []
  | index :: path => if index < offset then (index + 1) :: path else 0 :: (index - offset) :: path

/-- The position that something gets when the first of the pending elements is taken. -/
def after (offset : Nat) : List Nat → List Nat
  | 0 :: index :: path => (offset + index) :: path
  | (index + 1) :: path => index :: path
  | _ => []

section Before

variable {offset index : Nat} {path : List Nat}

theorem before_rest (h : index < offset) : before offset (index :: path) = (index + 1) :: path :=
  if_pos h

theorem before_child (h : offset ≤ index) :
    before offset (index :: path) = 0 :: (index - offset) :: path :=
  if_neg (Nat.not_lt.mpr h)

theorem after_before : after offset (before offset path) = path := by
  cases path with
  | nil => rfl
  | cons index path =>
    rcases Nat.lt_or_ge index offset with hindex | hindex
    · rw [before_rest hindex]
      rfl
    · rw [before_child hindex, after, Nat.add_sub_cancel' hindex]

theorem before_ne : before offset path ≠ [0] := by
  cases path with
  | nil => simp [before]
  | cons index path =>
    rcases Nat.lt_or_ge index offset with hindex | hindex
    · simp [before_rest hindex]
    · simp [before_child hindex]

end Before

section Entries

variable {e : Element} {rest : Pending} {n : NodeId}

/-- The number of elements that are pending with all that they contain. -/
def count (pending : Pending) : Nat := (Element.walkAll (pending.map Prod.fst)).length

theorem count_cons (entry : Element × Option NodeId) :
    count (entry :: rest) =
      (Element.walkAll entry.1.children).length + 1 + rest.count := by
  simp [count, Element.walkAll, Element.length_walk]

/-- There is one element less to take when one has been taken. -/
theorem count_next_le (e : Element) (rest : Pending) (n : NodeId) :
    (next e rest n).count ≤ (Element.walkAll e.children).length + rest.count := by
  cases howner : e.owner with
  | none => simp [next_of_owner_eq_none howner]
  | some owner =>
    simp [next_of_owner_eq_some howner, count, Element.walkAll_append, Function.comp_def,
      Nat.add_comm]

end Entries

section Next

variable {e : Element} {p : Option NodeId} {rest : Pending} {n : NodeId}
  {nodes : List Nat → NodeId}
variable {path : List Nat} {shown : String × Element}

theorem at?_before (hpath : path ≠ []) :
    at? ((e, p) :: rest) (before rest.length path) =
      (next e rest n).at? path := by
  obtain ⟨index, path, rfl⟩ := List.exists_cons_of_ne_nil hpath
  rcases Nat.lt_or_ge index rest.length with hindex | hindex
  · simp [before_rest hindex, at?, next, List.getElem?_append_left hindex]
  · simp only [before_child hindex, at?, next, List.getElem?_cons_zero, Option.bind_some,
      List.getElem?_append_right hindex, Element.shownAt?]
    cases e.owner with
    | none => simp
    | some owner => cases hchild : e.children[index - rest.length]? <;> simp [hchild]

theorem at?_cons_iff (n : NodeId) :
    at? ((e, p) :: rest) path = some shown ↔
      path = [0] ∧ e.owner = some shown.1 ∧ e = shown.2 ∨
        ∃ path', path = before rest.length path' ∧ (next e rest n).at? path' = some shown := by
  constructor
  · intro h
    -- a position that starts with 0 leads into the first element, any other into the rest
    rcases path with _ | ⟨_ | index, path⟩
    · simp [at?] at h
    · rcases path with _ | ⟨index, path⟩
      · obtain ⟨owner, howner, rfl⟩ := Option.map_eq_some_iff.mp h
        exact .inl ⟨rfl, howner, rfl⟩
      · have hbefore : before rest.length ((rest.length + index) :: path) = 0 :: index :: path := by
          rw [before_child (Nat.le_add_right _ _), Nat.add_sub_cancel_left]
        refine .inr ⟨(rest.length + index) :: path, hbefore.symm, ?_⟩
        rw [← at?_before (by simp), hbefore, h]
    · have hindex : index < rest.length := by
        by_contra hindex
        simp [at?, List.getElem?_eq_none (Nat.not_lt.mp hindex)] at h
      refine .inr ⟨index :: path, (before_rest hindex).symm, ?_⟩
      rw [← at?_before (by simp), before_rest hindex, h]
  · rintro (⟨rfl, howner, rfl⟩ | ⟨path', rfl, h⟩)
    · simp [at?, Element.shownAt?, howner]
    · have hpath : path' ≠ [] := by
        rintro rfl
        simp [at?] at h
      rw [at?_before hpath, h]

theorem around?_before (hfirst : nodes [0] = n)
    (h : (next e rest n).at? path = some shown) :
    around? ((e, p) :: rest) nodes (before rest.length path) =
      (next e rest n).around? (fun path => nodes (before rest.length path)) path := by
  rcases path with _ | ⟨index, path⟩
  · simp [at?] at h
  · rcases Nat.lt_or_ge index rest.length with hindex | hindex
    · cases path with
      | nil => simp [before_rest hindex, around?, next, List.getElem?_append_left hindex]
      | cons second path => simp [around?, before_rest hindex]
    · cases path with
      | nil =>
        simp only [at?, next, List.getElem?_append_right hindex] at h
        simp only [before_child hindex, around?, next, List.getElem?_append_right hindex]
        cases howner : e.owner with
        | none => simp [howner] at h
        | some owner =>
          cases hchild : e.children[index - rest.length]? with
          | none => simp [howner, hchild] at h
          | some c => simp [hchild, hfirst]
      | cons second path => simp [around?, before_child hindex]

/-- In a tree alone, positions below the root stay. -/
theorem at?_next_nil (hpath : path ≠ []) : (next e [] n).at? path = e.shownAt? path := by
  obtain ⟨index, path, rfl⟩ := List.exists_cons_of_ne_nil hpath
  have hbefore : at? [(e, none)] (before 0 (index :: path)) =
      (next e [] n).at? (index :: path) := at?_before hpath
  rw [← hbefore, before_child (Nat.zero_le _)]
  simp [at?]

/-- In a tree alone, what is directly below the root goes into its node. -/
theorem around?_next_nil (h : e.shownAt? path = some shown)
    (hpath : path ≠ []) : (next e [] n).around? nodes path =
      some (if path.dropLast = [] then n else nodes path.dropLast) := by
  rcases path with _ | ⟨index, _ | ⟨second, path⟩⟩
  · exact absurd rfl hpath
  · have h : (next e [] n).at? [index] = some shown := (at?_next_nil hpath).trans h
    cases howner : e.owner with
    | none => simp [at?, next_of_owner_eq_none howner] at h
    | some owner =>
      rw [next_of_owner_eq_some howner] at h ⊢
      cases hchild : e.children[index]? with
      | none => simp [at?, hchild] at h
      | some c => simp [around?, hchild]
  · simp [around?]

end Next

/-! ## What is planted -/

/-- One graph comes from the other by new nodes for the shown elements. They are the only new views
and menu items, each stands for what its element asks for and is named by its identifier, and each is
contained where it belongs and nowhere else. -/
structure Planted (shape : String → Element → NodeKind) (pending : Pending) (old new : FlowGraph)
    (nodes : List Nat → NodeId) : Prop extends Develops old new where
  fresh : ∀ path shown, pending.at? path = some shown →
    old.nodes.size ≤ nodes path ∧ nodes path < new.nodes.size
  injective : ∀ path shown path' shown', pending.at? path = some shown →
    pending.at? path' = some shown' → nodes path = nodes path' → path = path'
  kind_eq : ∀ path shown, pending.at? path = some shown →
    new.kind (nodes path) = shape shown.1 shown.2
  only : ∀ id, old.nodes.size ≤ id → (new.kind id).isShown →
    ∃ path shown, pending.at? path = some shown ∧ nodes path = id
  contains_iff : ∀ outer inner, new.Contains outer inner ↔ old.Contains outer inner ∨
    ∃ path shown, pending.at? path = some shown ∧ pending.around? nodes path = some outer ∧
      nodes path = inner
  name_eq : ∀ path shown, pending.at? path = some shown →
    new.idOf? (nodes path) = old.widget? shown.2.id
  names_eq : ∀ id < old.nodes.size, new.idOf? id = old.idOf? id

section Planted

variable {shape : String → Element → NodeKind} {e : Element} {p : Option NodeId}
  {shown : String × Element}
variable {rest : Pending} {old middle new : FlowGraph} {nodes : List Nat → NodeId}

/-- Where nothing is pending, nothing is planted. -/
theorem planted_nil (nodes : List Nat → NodeId) : Planted shape [] old old nodes := by
  have hnone : ∀ path, at? [] path = none := by
    intro path
    cases path <;> simp [at?]
  exact {
    toDevelops := refl_of Develops old
    fresh := fun path _ h => by simp [hnone] at h
    injective := fun path _ _ _ h => by simp [hnone] at h
    kind_eq := fun path _ h => by simp [hnone] at h
    only := fun id hid hshown => by
      rw [kind_of_size_le hid] at hshown
      exact absurd hshown Bool.false_ne_true
    contains_iff := fun outer inner => by simp [hnone]
    name_eq := fun path _ h => by simp [hnone] at h
    names_eq := fun _ _ => rfl }

theorem Planted.retains (h : pending.Planted shape old new nodes) : Retains old new := by
  refine ⟨h.toDevelops, fun id name hname => ?_⟩
  by_cases hid : id < old.nodes.size
  · rw [h.names_eq id hid, hname]
  · rw [idOf?, node_of_size_le (Nat.not_lt.mp hid)] at hname
    cases hname

/-- What taking the first pending element makes: a node for it, if it has a class. -/
structure Taken (shape : String → Element → NodeKind) (e : Element) (p : Option NodeId)
    (n : NodeId) (old new : FlowGraph) : Prop extends Develops old new where
  fresh : e.owner.isSome → old.nodes.size ≤ n ∧ n < new.nodes.size
  kind_eq : ∀ owner, e.owner = some owner → new.kind n = shape owner e
  only : ∀ id, old.nodes.size ≤ id → (new.kind id).isShown → e.owner.isSome ∧ n = id
  contains_iff : ∀ outer inner, new.Contains outer inner ↔ old.Contains outer inner ∨
    e.owner.isSome ∧ p = some outer ∧ n = inner
  name_eq : e.owner.isSome → new.idOf? n = old.widget? e.id
  names_eq : ∀ id < old.nodes.size, new.idOf? id = old.idOf? id

theorem taken_of_owner_eq_none (howner : e.owner = none) (n : NodeId) :
    Taken shape e p n old old where
  toDevelops := refl_of Develops old
  fresh h := by simp [howner] at h
  kind_eq owner h := by simp [howner] at h
  only id hid hshown := by
    rw [kind_of_size_le hid] at hshown
    exact absurd hshown Bool.false_ne_true
  contains_iff outer inner := by simp [howner]
  name_eq h := by simp [howner] at h
  names_eq _ _ := rfl

theorem taken_of_sprouted {owner : String} (howner : e.owner = some owner)
    (h : Sprouted (shape owner e) e.id p old new) :
    Taken shape e p old.nodes.size old new where
  toDevelops := h.toDevelops
  fresh _ := ⟨Nat.le_refl _, h.size_lt⟩
  kind_eq owner' howner' := by
    rw [howner, Option.some.injEq] at howner'
    rw [h.kind_eq, howner']
  only id hid hshown := by
    refine ⟨by simp [howner], ?_⟩
    rcases Nat.eq_or_lt_of_le hid with heq | hlt
    · exact heq
    · rw [h.fresh_shown id hlt] at hshown
      exact absurd hshown Bool.false_ne_true
  contains_iff outer inner := by
    rw [h.contains_iff, or_comm]
    simp [howner, eq_comm]
  name_eq _ := h.name_eq
  names_eq id hid := h.names_eq id (Nat.ne_of_lt hid)

/-- The nodes of positions, with one more for the first pending element. -/
def grow (offset : Nat) (n : NodeId) (nodes : List Nat → NodeId) (path : List Nat) : NodeId :=
  if path = [0] then n else nodes (after offset path)

theorem grow_zero (offset : Nat) (n : NodeId) (nodes : List Nat → NodeId) :
    grow offset n nodes [0] = n :=
  if_pos rfl

theorem grow_before (offset : Nat) (n : NodeId) (nodes : List Nat → NodeId) (path : List Nat) :
    grow offset n nodes (before offset path) = nodes path := by
  rw [grow, if_neg before_ne, after_before]

theorem around?_grow {n : NodeId} (h : (next e rest n).at? path = some shown) :
    around? ((e, p) :: rest) (grow rest.length n nodes)
      (before rest.length path) = (next e rest n).around? nodes path := by
  rw [around?_before (grow_zero _ _ _) h]
  exact congrArg (around? _ · path) (funext (grow_before rest.length n nodes))

section Cons

variable {n : NodeId} (h : Planted shape (next e rest n) middle new nodes)
variable (hfirst : Taken shape e p n old middle)
include h hfirst

theorem Planted.cons_injective {path' : List Nat} {shown' : String × Element}
    (hfound : at? ((e, p) :: rest) path = some shown)
    (hfound' : at? ((e, p) :: rest) path' = some shown')
    (heq : grow rest.length n nodes path = grow rest.length n nodes path') : path = path' := by
  have hne : ∀ {path shown owner}, e.owner = some owner →
      (next e rest n).at? path = some shown → n ≠ nodes path := by
    intro path shown owner howner hshown
    have hlt := (hfirst.fresh (by simp [howner])).2
    exact Nat.ne_of_lt (Nat.lt_of_lt_of_le hlt (h.fresh _ _ hshown).1)
  rcases (at?_cons_iff n).mp hfound with ⟨rfl, howner, _⟩ | ⟨path, rfl, hshown⟩ <;>
    rcases (at?_cons_iff n).mp hfound' with ⟨rfl, howner', _⟩ | ⟨path', rfl, hshown'⟩
  · rfl
  · rw [grow_zero, grow_before] at heq
    exact absurd heq (hne howner hshown')
  · rw [grow_zero, grow_before] at heq
    exact absurd heq.symm (hne howner' hshown)
  · rw [grow_before, grow_before] at heq
    rw [h.injective path shown path' shown' hshown hshown' heq]

/-- A new view or menu item is the node of the first element, or it is planted then. -/
theorem Planted.cons_only {id : NodeId} (hid : old.nodes.size ≤ id)
    (hkind : (new.kind id).isShown) :
    ∃ path shown, at? ((e, p) :: rest) path = some shown ∧
      grow rest.length n nodes path = id := by
  rcases Nat.lt_or_ge id middle.nodes.size with hmiddle | hmiddle
  · rw [h.keeps _ NodeKind.isShown_core hmiddle] at hkind
    obtain ⟨howner, rfl⟩ := hfirst.only id hid hkind
    obtain ⟨owner, howner⟩ := Option.isSome_iff_exists.mp howner
    exact ⟨[0], (owner, e), (at?_cons_iff n).mpr (.inl ⟨rfl, howner, rfl⟩),
      grow_zero _ _ _⟩
  · obtain ⟨path, shown, hshown, rfl⟩ := h.only id hmiddle hkind
    exact ⟨_, shown, (at?_cons_iff n).mpr (.inr ⟨path, rfl, hshown⟩), grow_before _ _ _ path⟩

theorem Planted.cons_contains_iff (outer inner : NodeId) :
    new.Contains outer inner ↔ old.Contains outer inner ∨
      ∃ path shown, at? ((e, p) :: rest) path = some shown ∧
        around? ((e, p) :: rest) (grow rest.length n nodes) path =
          some outer ∧ grow rest.length n nodes path = inner := by
  rw [h.contains_iff, hfirst.contains_iff, or_assoc]
  refine or_congr_right ⟨?_, ?_⟩
  · rintro (⟨howner, houter, rfl⟩ | ⟨path, shown, hshown, houter, rfl⟩)
    · obtain ⟨owner, howner⟩ := Option.isSome_iff_exists.mp howner
      exact ⟨[0], (owner, e), (at?_cons_iff n).mpr (.inl ⟨rfl, howner, rfl⟩), houter,
        grow_zero _ _ _⟩
    · exact ⟨_, shown, (at?_cons_iff n).mpr (.inr ⟨path, rfl, hshown⟩),
        (around?_grow hshown).trans houter, grow_before _ _ _ path⟩
  · rintro ⟨_, shown, hfound, houter, rfl⟩
    rcases (at?_cons_iff n).mp hfound with ⟨rfl, howner, _⟩ | ⟨path, rfl, hshown⟩
    · exact .inl ⟨by simp [howner], houter, (grow_zero _ _ _).symm⟩
    · exact .inr ⟨path, shown, hshown, (around?_grow hshown).symm.trans houter,
        (grow_before _ _ _ path).symm⟩

theorem Planted.cons (hshape : ∀ owner e, (shape owner e).isInflated) :
    Planted shape ((e, p) :: rest) old new (grow rest.length n nodes) := by
  refine {
    toDevelops := trans_of Develops hfirst.toDevelops h.toDevelops
    injective := fun _ _ _ _ => h.cons_injective hfirst
    only := fun _ => h.cons_only hfirst
    contains_iff := h.cons_contains_iff hfirst
    fresh := ?_, kind_eq := ?_, name_eq := ?_, names_eq := ?_ }
  -- a position is that of the first element, or it is one that the others are planted at
  · intro _ shown hfound
    rcases (at?_cons_iff n).mp hfound with ⟨rfl, howner, _⟩ | ⟨path, rfl, hshown⟩
    · obtain ⟨hle, hlt⟩ := hfirst.fresh (by simp [howner])
      rw [grow_zero]
      exact ⟨hle, Nat.lt_of_lt_of_le hlt h.size_le⟩
    · obtain ⟨hle, hlt⟩ := h.fresh path shown hshown
      rw [grow_before]
      exact ⟨Nat.le_trans hfirst.size_le hle, hlt⟩
  · intro _ shown hfound
    rcases (at?_cons_iff n).mp hfound with ⟨rfl, howner, rfl⟩ | ⟨path, rfl, hshown⟩
    · rw [grow_zero]
      refine NodeKind.eq_of_isInflated (hshape _ _) ?_
      rw [h.core_eq n (hfirst.fresh (by simp [howner])).2, hfirst.kind_eq _ howner]
    · rw [grow_before]
      exact h.kind_eq path shown hshown
  · intro _ shown hfound
    rcases (at?_cons_iff n).mp hfound with ⟨rfl, howner, rfl⟩ | ⟨path, rfl, hshown⟩
    · obtain ⟨_, hlt⟩ := hfirst.fresh (by simp [howner])
      rw [grow_zero, h.names_eq n hlt, hfirst.name_eq (by simp [howner])]
    · rw [grow_before, h.name_eq path shown hshown, hfirst.widget?_eq]
  · intro id hid
    rw [h.names_eq id (Nat.lt_of_lt_of_le hid hfirst.size_le), hfirst.names_eq id hid]

end Cons

/-- What contains something shown below the first level is shown. -/
theorem exists_at?_of_cons {index second : Nat}
    (h : pending.at? (index :: second :: path) = some shown) :
    ∃ shown', pending.at? (index :: (second :: path).dropLast) = some shown' := by
  obtain ⟨entry, hentry, hshown⟩ := Option.bind_eq_some_iff.mp h
  obtain ⟨around, last, hpath⟩ := List.eq_nil_or_concat' (second :: path) |>.resolve_left (by simp)
  rw [hpath] at hshown ⊢
  rw [List.dropLast_concat, at?, hentry, Option.bind_some]
  exact Option.isSome_iff_exists.mp (Element.isSome_shownAt?_of_append (Option.isSome_of_mem hshown))

/-- Old nodes get only pending elements, and only those that are to go into them. -/
theorem Planted.contains_iff_of_lt {outer : NodeId}
    (h : Planted shape pending old new nodes) (houter : outer < old.nodes.size) (inner : NodeId) :
    new.Contains outer inner ↔ old.Contains outer inner ∨
      ∃ index shown, pending.at? [index] = some shown ∧
        pending.around? nodes [index] = some outer ∧ nodes [index] = inner := by
  rw [h.contains_iff]
  refine or_congr_right ⟨?_, ?_⟩
  · rintro ⟨path, shown, hshown, haround, hinner⟩
    rcases path with _ | ⟨index, _ | ⟨second, path⟩⟩
    · simp [at?] at hshown
    · exact ⟨index, shown, hshown, haround, hinner⟩
    · -- what is further down goes into new nodes
      obtain ⟨shown', hshown'⟩ := exists_at?_of_cons hshown
      have hfresh := (h.fresh _ _ hshown').1
      rw [around?, Option.some.injEq] at haround
      · exact absurd houter (Nat.not_lt.mpr (haround ▸ hfresh))
      · simp
  · rintro ⟨index, shown, hshown, haround, hinner⟩
    exact ⟨[index], shown, hshown, haround, hinner⟩

end Planted

end Pending

/-! ## What loops make -/

section Runs

variable {make : Element → String → Option NodeId → Solving NodeId}
variable {shape : String → Element → NodeKind} {s : Progress Notes}

/-- Elements that have a class get their nodes, if they are put into nodes that are there and that
meet a condition. -/
def Shapes (make : Element → String → Option NodeId → Solving NodeId)
    (shape : String → Element → NodeKind) (fits : Option NodeId → Prop) : Prop :=
  ∀ e owner p s, fits p → InGraph? s.graph p →
    Runs (make e owner p) s (Makes (shape owner e) e.id p s)

variable {fits : Option NodeId → Prop}

/-- Taking an element makes a node for it if it has a class. -/
theorem runs_take (hmake : Shapes make shape fits) (e : Element)
    (hfits : fits p) (hparent : InGraph? s.graph p) :
    Runs (take make e p) s fun n t =>
      Pending.Taken shape e p n s.graph t.graph ∧
        s.notes.Collects t.notes := by
  unfold take
  cases howner : e.owner with
  | none => exact .pure ⟨taken_of_owner_eq_none howner 0, refl_of Notes.Collects _⟩
  | some owner =>
    refine (hmake e owner p s hfits hparent).weaken ?_
    rintro _ t ⟨rfl, hsprouted, hnotes⟩
    exact ⟨taken_of_sprouted howner hsprouted, hnotes⟩

theorem Pending.Taken.inGraph? {e : Element} {n : NodeId}
    {old new : FlowGraph} (h : Pending.Taken shape e p n old new)
    (howner : e.owner.isSome) : InGraph? new (some n) := by
  rintro _ ⟨⟩
  exact (h.fresh howner).2

/-- A loop that may take as many elements as there are plants them all. -/
theorem runs_plant (hshape : ∀ owner e, (shape owner e).isInflated)
    (hmake : Shapes make shape fits) (hfits : ∀ n, fits (some n)) (bound : Nat)
    (hbound : pending.count ≤ bound) (hpending : pending.All fits)
    (hinside : pending.All (InGraph? s.graph)) :
    Runs (plant make bound pending) s fun _ t =>
      (∃ nodes, pending.Planted shape s.graph t.graph nodes) ∧
        s.notes.Collects t.notes := by
  induction bound generalizing pending s with
  | zero =>
    cases pending with
    | nil => exact .pure ⟨⟨fun _ => 0, planted_nil _⟩, refl_of Notes.Collects _⟩
    | cons entry rest =>
      rw [count_cons] at hbound
      omega
  | succ bound ih =>
    rcases pending with _ | ⟨⟨e, p⟩, rest⟩
    · exact .pure ⟨⟨fun _ => 0, planted_nil _⟩, refl_of Notes.Collects _⟩
    · obtain ⟨hparent, hrest⟩ := all_cons.mp hpending
      obtain ⟨hparent', hrest'⟩ := all_cons.mp hinside
      refine (runs_take hmake e hparent hparent').bind ?_
      rintro n middle ⟨htaken, hnotes⟩
      have hcount : (next e rest n).count ≤ bound := by
        have hle := count_next_le e rest n
        simp only [count_cons] at hbound
        omega
      have hinside' : (next e rest n).All (InGraph? middle.graph) := by
        refine Pending.All.next (fun entry hentry => ?_) htaken.inGraph?
        exact (hrest' entry hentry).mono htaken.toExtends
      refine (ih hcount (hrest.next fun _ => hfits n) hinside').weaken ?_
      rintro _ t ⟨⟨nodes, hplanted⟩, hnotes'⟩
      exact ⟨⟨_, hplanted.cons htaken hshape⟩, trans_of Notes.Collects hnotes hnotes'⟩

end Runs

/-! ## Resources -/

section Resources

variable {ctx : Context} {s : Progress Notes} {v : ResId} {tree : Element}

def viewShape (owner : String) (_ : Element) : NodeKind := .view owner

def itemShape (owner : String) (e : Element) : NodeKind := .menuItem owner e.attrs

theorem shapes_inflateView (ctx : Context) : Shapes (inflateView ctx) viewShape fun _ => True :=
  fun e owner _ _ _ hparent => runs_inflateView ctx e owner hparent

theorem shapes_inflateItem (ctx : Context) (menu : ResId) (self : NodeId) :
    Shapes (fun e owner p => inflateItem ctx menu e owner (p.getD self))
      itemShape (Option.isSome ·) := by
  intro e owner p s hfits hparent
  obtain ⟨p, rfl⟩ := Option.isSome_iff_exists.mp hfits
  exact runs_inflateItem ctx menu e owner (hparent p rfl)

theorem runs_inflateLayout {win : Option NodeId} (htree : ctx.resources.layout? v = some tree)
    (hwindow : InGraph? s.graph win) :
    Runs (inflateLayout ctx v win) s fun root t =>
      (∃ nodes, Pending.Planted viewShape [(tree, win)] s.graph t.graph nodes ∧
        root = tree.owner.map fun _ => nodes [0]) ∧ s.notes.Collects t.notes := by
  rw [inflateLayout_eq_plant htree]
  refine (runs_take (shapes_inflateView ctx) tree trivial hwindow).bind ?_
  rintro n middle ⟨htaken, hnotes⟩
  refine (runs_plant (fun _ _ => rfl) (shapes_inflateView ctx) (fun _ => trivial) _
    (count_next_le tree [] n) (fun _ _ => trivial)
    (all_nil.next htaken.inGraph?)).bind ?_
  rintro _ t ⟨⟨nodes, hplanted⟩, hnotes'⟩
  exact .pure ⟨⟨_, hplanted.cons htaken fun _ _ => rfl, rfl⟩,
    trans_of Notes.Collects hnotes hnotes'⟩

theorem runs_inflateMenu {self : NodeId} (htree : ctx.resources.menu? v = some tree)
    (hself : self < s.graph.nodes.size) :
    Runs (inflateMenu ctx v self) s fun _ t =>
      (∃ nodes, (next tree [] self).Planted itemShape s.graph t.graph nodes) ∧
        s.notes.Collects t.notes := by
  rw [inflateMenu_eq_plant htree]
  refine runs_plant (fun _ _ => rfl) (shapes_inflateItem ctx v self) (fun _ => rfl) _
    (count_next_le tree [] self) (all_nil.next fun _ => rfl)
    (all_nil.next fun _ => ?_)
  rintro _ ⟨⟩
  exact hself

end Resources

end Solving

end WidgetFlow
