import WidgetFlow.Solution.Inflation

/-!
# The loops of inflation

The elements of layouts and of menus are taken by two loops that differ in how they begin: the root
of a layout is what the loop gives in the end, and the menu itself stands for the root of a menu. From
then on both take one pending element after the other and put its children at the end. `plant` is what
they have in common.
-/

namespace WidgetFlow

theorem Element.length_walk (e : Element) :
    e.walk.length = (walkAll e.children).length + 1 := by
  obtain ⟨owner, id, attrs, children, origin, inclusion⟩ := e
  simp [walk]

namespace Solving

open Analysis

variable {p : Option NodeId} {pending : Pending}

namespace Pending

def next (e : Element) (rest : Pending) (n : NodeId) : Pending :=
  rest ++ match e.owner with
    | none => []
    | some _ => e.children.map (·, some n)

variable {e : Element} {rest : Pending} {n : NodeId} {property : Option NodeId → Prop}

theorem next_of_owner_eq_none (h : e.owner = none) : next e rest n = rest := by
  simp [next, h]

theorem next_of_owner_eq_some {owner : String} (h : e.owner = some owner) :
    next e rest n = rest ++ e.children.map (·, some n) := by
  simp [next, h]

def All (property : Option NodeId → Prop) (pending : Pending) : Prop :=
  ∀ entry ∈ pending, property entry.2

theorem all_nil : All property [] := nofun

theorem all_cons : All property ((e, p) :: rest) ↔ property p ∧ All property rest :=
  List.forall_mem_cons

/-- What is pending next was pending already, or it goes into the new node. -/
theorem All.next (h : All property rest) (hnode : e.owner.isSome → property (some n)) :
    All property (next e rest n) := by
  intro entry hentry
  cases howner : e.owner with
  | none =>
    rw [next_of_owner_eq_none howner] at hentry
    exact h entry hentry
  | some owner =>
    rw [next_of_owner_eq_some howner] at hentry
    rcases List.mem_append.mp hentry with hentry | hentry
    · exact h entry hentry
    · obtain ⟨c, _, rfl⟩ := List.mem_map.mp hentry
      exact hnode (by simp [howner])

end Pending

variable {make : Element → String → Option NodeId → Solving NodeId}

def take (make : Element → String → Option NodeId → Solving NodeId) (e : Element)
    (p : Option NodeId) : Solving NodeId :=
  match e.owner with
  | none => pure 0
  | some owner => make e owner p

def plant (make : Element → String → Option NodeId → Solving NodeId) : Nat → Pending → Solving Unit
  | 0, _ => pure ()
  | _, [] => pure ()
  | bound + 1, (e, p) :: rest => do
    let n ← take make e p
    plant make bound (Pending.next e rest n)

@[simp] theorem plant_nil (bound : Nat) : plant make bound [] = pure () := by
  cases bound <;> rfl

/-- Once the root of a layout has been made, the other elements are planted. -/
theorem inflateViews_eq_plant (ctx : Context) (bound : Nat) (pending : Pending) (root : NodeId) :
    inflateViews ctx bound pending (some root) = (do
      plant (inflateView ctx) bound pending
      pure (some root)) := by
  fun_induction plant (inflateView ctx) bound pending with
  | case1 => simp [inflateViews]
  | case2 bound => cases bound <;> simp [inflateViews]
  | case3 bound e p rest ih =>
    cases howner : e.owner with
    | none => simpa [inflateViews, howner, take, Pending.next_of_owner_eq_none howner] using ih 0
    | some owner =>
      simp only [Pending.next_of_owner_eq_some howner] at ih ⊢
      simp [inflateViews, howner, take, ih]

theorem inflateItems_eq_plant (ctx : Context) (menu : ResId) (self : NodeId) (bound : Nat)
    (hpending : pending.All (Option.isSome ·)) :
    inflateItems ctx menu self bound pending = plant
      (fun e owner p => inflateItem ctx menu e owner (p.getD self))
      bound pending := by
  induction bound generalizing pending with
  | zero => rfl
  | succ bound ih =>
    rcases pending with _ | ⟨⟨e, p⟩, rest⟩
    · rfl
    · obtain ⟨hparent, hrest⟩ := Pending.all_cons.mp hpending
      obtain ⟨p, rfl⟩ := Option.isSome_iff_exists.mp hparent
      have hnext : ∀ n, inflateItems ctx menu self bound (Pending.next e rest n) = _ :=
        fun n => ih (hrest.next fun _ => rfl)
      cases howner : e.owner with
      | none =>
        simpa [inflateItems, plant, howner, take, Pending.next_of_owner_eq_none howner]
          using hnext 0
      | some owner =>
        simp only [Pending.next_of_owner_eq_some howner] at hnext
        simp [inflateItems, plant, howner, take, Pending.next_of_owner_eq_some howner, hnext]

theorem inflateLayout_eq_plant {ctx : Context} {v : ResId} {tree : Element}
    (h : ctx.resources.layout? v = some tree) (win : Option NodeId) :
    inflateLayout ctx v win = (do
      let n ← take (inflateView ctx) tree win
      plant (inflateView ctx) (Element.walkAll tree.children).length (Pending.next tree [] n)
      pure (tree.owner.map fun _ => n)) := by
  have hcount : tree.count = (Element.walkAll tree.children).length + 1 := tree.length_walk
  simp only [inflateLayout, h, hcount, inflateViews, take]
  cases howner : tree.owner with
  | none =>
    have hnil : ∀ bound, inflateViews ctx bound [] none = pure none := by
      intro bound
      cases bound <;> rfl
    simp [hnil, Pending.next_of_owner_eq_none howner]
  | some owner => simp [inflateViews_eq_plant, Pending.next_of_owner_eq_some howner]

theorem inflateMenu_eq_plant {ctx : Context} {v : ResId} {tree : Element}
    (h : ctx.resources.menu? v = some tree) (self : NodeId) :
    inflateMenu ctx v self = plant
      (fun e owner p => inflateItem ctx v e owner (p.getD self))
      (Element.walkAll tree.children).length (Pending.next tree [] self) := by
  have hcount : tree.count = (Element.walkAll tree.children).length + 1 := tree.length_walk
  rw [← inflateItems_eq_plant ctx v self _ (Pending.all_nil.next fun _ => rfl)]
  simp only [inflateMenu, h, hcount, inflateItems]
  cases howner : tree.owner with
  | none => rw [Pending.next_of_owner_eq_none howner]
  | some owner => simp [Pending.next_of_owner_eq_some howner]

end Solving

end WidgetFlow
