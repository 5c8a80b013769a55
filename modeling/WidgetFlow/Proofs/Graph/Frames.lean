import WidgetFlow.Proofs.Graph.Growth

/-!
# Frames

A variable that was made stands for a value inside the platform. The made variables of the class of
frames are those that the platform looks up for itself: nothing is ever put into them, and only
operations give them values (`FlowGraph.Framed`). Those of the class of alert dialogs hold the one
dialog that they are made for. Values are put into all other nodes that stand for some. To know the
class of a made variable one has to know that it is new, and for that its number has to be
(`FlowGraph.Numbered`).
-/

namespace WidgetFlow

open NodeKind

namespace NodeKind

variable {kind : NodeKind}

def madeNumber? : NodeKind → Option Nat
  | .var (.made number) _ => some number
  | _ => none

def isFrame : NodeKind → Bool
  | .var (.made _) (some (.ref owner)) => owner = Platform.ClassName.frameLayout
  | _ => false

/-- The classes of made variables that nothing is put into after they have been made. -/
def reservedClasses : List String :=
  [Platform.ClassName.frameLayout, Platform.ClassName.alertDialog]

def isReserved : NodeKind → Bool
  | .var (.made _) (some (.ref owner)) => owner ∈ reservedClasses
  | _ => false

theorem madeNumber?_core (kind : NodeKind) : kind.core.madeNumber? = kind.madeNumber? := by
  cases kind <;> rfl

theorem isFrame_core (kind : NodeKind) : kind.core.isFrame = kind.isFrame := by cases kind <;> rfl

theorem isReserved_core (kind : NodeKind) : kind.core.isReserved = kind.isReserved := by
  cases kind <;> rfl

theorem isReserved_eq_false (h : ∀ number, kind.key? ≠ some (.var (.made number))) :
    kind.isReserved = false := by
  unfold isReserved
  split
  · exact absurd rfl (h _)
  · rfl

theorem isFrame_eq_false (h : kind.isReserved = false) : kind.isFrame = false := by
  unfold isFrame
  split
  · exact decide_eq_false fun howner =>
      of_decide_eq_false h (howner ▸ List.mem_cons_self)
  · rfl

end NodeKind

namespace FlowGraph

variable {g old new : FlowGraph} {id : NodeId} {owner : String}

/-- The numbers of the variables that were made are counted. -/
def Numbered (g : FlowGraph) : Prop :=
  ∀ id number, (g.kind id).madeNumber? = some number → number ≤ g.made

/-- The made variables are counted, and only operations give values to frames. -/
structure Framed (g : FlowGraph) : Prop where
  numbered : g.Numbered
  fed : ∀ edge ∈ g.edges, (g.kind edge.target).isFrame → g.isOp edge.source

theorem framed_empty : Framed {} where
  numbered id number h := by
    rw [kind_of_size_le (Nat.zero_le id)] at h
    cases h
  fed edge hedge := by simp at hedge

/-- A graph may get nodes that are no made variables. -/
theorem Numbered.of_extends (h : old.Numbered) (hg : Extends old new)
    (hmade : old.made ≤ new.made)
    (hnodes : ∀ id, old.nodes.size ≤ id → (new.kind id).madeNumber? = none) : new.Numbered := by
  intro id number hnumber
  by_cases hid : id < old.nodes.size
  · rw [hg.keeps madeNumber? madeNumber?_core hid] at hnumber
    exact Nat.le_trans (h id number hnumber) hmade
  · rw [hnodes id (Nat.not_lt.mp hid)] at hnumber
    cases hnumber

/-! ## Nodes that values are put into -/

/-- A node of the graph that stands for values and is not reserved. -/
def HasOpen (g : FlowGraph) (id : NodeId) : Prop :=
  g.HasValue id ∧ (g.kind id).isReserved = false

/-- A variable of the graph that values may be put into. -/
def HasHolder (g : FlowGraph) (id : NodeId) : Prop :=
  g.HasVar id ∧ (g.kind id).isReserved = false

def HasGoal (g : FlowGraph) (id : NodeId) : Prop :=
  g.HasPlace id ∧ (g.kind id).isReserved = false

def HasMade (g : FlowGraph) (owner : String) (id : NodeId) : Prop :=
  id < g.nodes.size ∧ ∃ number, g.kind id = .var (.made number) (some (.ref owner))

theorem HasOpen.hasValue (h : g.HasOpen id) : g.HasValue id := h.1

theorem HasOpen.mono (hg : Extends old new) (h : old.HasOpen id) : new.HasOpen id :=
  ⟨h.1.mono hg, (hg.keeps isReserved isReserved_core h.1.1).trans h.2⟩

/-- A node with the key of something else than a made variable. -/
theorem HasOpen.of_key {key : NodeKey} (hsize : id < g.nodes.size)
    (hkey : (g.kind id).key? = some key) (hmade : ∀ number, key ≠ .var (.made number)) :
    g.HasOpen id := by
  refine ⟨.of_key hsize hkey, isReserved_eq_false fun number heq => ?_⟩
  rw [hkey] at heq
  exact hmade number (Option.some.inj heq)

theorem HasOpen.of_find? {key : NodeKey} (h : g.find? key = some id)
    (hmade : ∀ number, key ≠ .var (.made number)) : g.HasOpen id :=
  .of_key (find?_some h).1 (find?_some h).2 hmade

theorem HasHolder.hasVar (h : g.HasHolder id) : g.HasVar id := h.1

theorem HasHolder.hasValue (h : g.HasHolder id) : g.HasValue id := h.1.hasValue

theorem HasHolder.hasGoal (h : g.HasHolder id) : g.HasGoal id := ⟨h.1.hasPlace, h.2⟩

theorem HasHolder.mono (hg : Extends old new) (h : old.HasHolder id) : new.HasHolder id :=
  ⟨h.1.mono hg, (hg.keeps isReserved isReserved_core h.1.1).trans h.2⟩

theorem HasGoal.mono (hg : Extends old new) (h : old.HasGoal id) : new.HasGoal id :=
  ⟨h.1.mono hg, (hg.keeps isReserved isReserved_core h.1.1.1).trans h.2⟩

theorem HasMade.hasVar (h : g.HasMade owner id) : g.HasVar id := by
  obtain ⟨hsize, number, hkind⟩ := h
  exact ⟨hsize, by rw [hkind]; rfl⟩

theorem HasMade.varTy?_eq (h : g.HasMade owner id) : g.varTy? id = some (.ref owner) := by
  obtain ⟨_, number, hkind⟩ := h
  rw [varTy?, hkind]
  rfl

theorem HasMade.mono (hg : Extends old new) (h : old.HasMade owner id) :
    new.HasMade owner id := by
  obtain ⟨hsize, number, hkind⟩ := h
  refine ⟨Nat.lt_of_lt_of_le hsize hg.size_le, number, ?_⟩
  have hcore := hg.core_eq id hsize
  rw [hkind] at hcore
  cases hnew : new.kind id <;> rw [hnew] at hcore <;> cases hcore
  rfl

/-- The node of a local of the program is a variable that values are put into. -/
theorem HasHolder.of_find? {m : MethodId} {name : String}
    (h : g.find? (.var (.named m name)) = some id) : g.HasHolder id := by
  have hopen : g.HasOpen id := .of_find? h nofun
  refine ⟨⟨hopen.1.1, ?_⟩, hopen.2⟩
  have hkey := (find?_some h).2
  cases hkind : g.kind id <;> rw [hkind] at hkey <;> cases hkey
  rfl

theorem HasGoal.of_find?_field {member : FieldRef} (h : g.find? (.field member) = some id) :
    g.HasGoal id := by
  have hopen : g.HasOpen id := .of_find? h nofun
  refine ⟨⟨hopen.1, ?_⟩, hopen.2⟩
  have hkey := (find?_some h).2
  cases hkind : g.kind id <;> rw [hkind] at hkey <;> cases hkey
  rfl

theorem makeVar_eq (h : g.Numbered) (ty : Ty) :
    makeVar ty g = (g.nodes.size,
      (add (.var (.made (g.made + 1)) (some ty)) { g with made := g.made + 1 }).2) := by
  have hnew : ({ g with made := g.made + 1 } : FlowGraph).find?
      (.var (.made (g.made + 1))) = none := by
    cases hfind : ({ g with made := g.made + 1 } : FlowGraph).find?
        (.var (.made (g.made + 1))) with
    | none => rfl
    | some id =>
      have hkey : (g.kind id).key? = _ := (find?_some hfind).2
      have hnumber : (g.kind id).madeNumber? = some (g.made + 1) := by
        cases hkind : g.kind id <;> rw [hkind] at hkey <;> cases hkey
        rfl
      exact absurd (h id _ hnumber) (Nat.not_succ_le_self _)
  unfold makeVar varNode obtain share
  simp only [key?, Option.bind_some, hnew]
  rfl

theorem hasMade_makeVar (h : g.Numbered) (owner : String) :
    (makeVar (.ref owner) g).2.HasMade owner (makeVar (.ref owner) g).1 := by
  rw [makeVar_eq h]
  exact ⟨by simp, g.made + 1, by simp [kind_add]⟩

theorem numbered_makeVar (h : g.Numbered) (ty : Ty) : (makeVar ty g).2.Numbered := by
  rw [makeVar_eq h]
  intro id number hnumber
  rw [kind_add] at hnumber
  split at hnumber
  · cases hnumber
    exact Nat.le_refl _
  · exact Nat.le_succ_of_le (h id number hnumber)

end FlowGraph

end WidgetFlow
