import Mathlib.Data.List.Nodup
import Mathlib.Data.List.Perm.Subperm
import Mathlib.Logic.Relation
import WidgetFlow.Context
import WidgetFlow.Listening
import WidgetFlow.Proofs.Closure

/-!
# Handlers by dispatch

The handlers of an interface on an object are found by dispatch (`Answers`, `mem_handlersFor`). The
entries of a class hierarchy are coherent: a class lists the methods of the program by their own
subsignatures (`Coherent`). So are the hierarchies of all programs (`coherent_of`), hence dispatch
gives a method with the subsignature that it looks for, and the parameter of a handler that gets the
view is the one of the prototype that the handler implements (`Answers.viewPosition?_eq`).

A class and its superclasses are listed in full (`mem_superclasses`): the list ends where a class
would repeat, and the size of the table never cuts it off. So dispatch fails only if no superclass
has the method with a body (`isSome_dispatch?`).
-/

namespace WidgetFlow

/-- Of the entries of a table with one key, the last counts. -/
theorem getElem?_ofList {α : Type} (entries : List (String × α)) (key : String) :
    (Std.TreeMap.ofList entries)[key]? =
      (entries.filter fun entry => entry.1 = key).getLast?.map Prod.snd := by
  have hfirst : ∀ entries : List (String × α), entries.findSome? (fun entry =>
      if compare entry.1 key = .eq then some entry.2 else none) =
        (entries.filter fun entry => entry.1 = key).head?.map Prod.snd := by
    intro entries
    induction entries with
    | nil => rfl
    | cons first rest ih =>
      rw [List.findSome?_cons, List.filter_cons, ih]
      by_cases hkey : first.1 = key
      · simp [hkey]
      · simp [hkey]
  rw [Std.TreeMap.ofList_eq_insertMany_empty, Std.TreeMap.getElem?_insertMany_list,
    Std.TreeMap.getElem?_emptyc, Option.or_none, List.findSomeRev?_eq_findSome?_reverse,
    ← List.head?_reverse, ← List.filter_reverse]
  exact hfirst entries.reverse

theorem mem_of_getElem?_ofList {α : Type} {entries : List (String × α)} {key : String} {v : α}
    (h : (Std.TreeMap.ofList entries)[key]? = some v) : (key, v) ∈ entries := by
  rw [getElem?_ofList] at h
  obtain ⟨⟨key', v'⟩, hlast, rfl⟩ := Option.map_eq_some_iff.mp h
  obtain ⟨hmem, hkey⟩ := List.mem_filter.mp (List.mem_of_getLast? hlast)
  obtain rfl : key' = key := of_decide_eq_true hkey
  exact hmem

/-! ## Coherent tables -/

/-- An entry of a hierarchy lists the methods of the program by their own subsignatures. -/
def ClassInfo.Coherent (scene : Scene) (info : ClassInfo) : Prop :=
  ∀ subsig m id, info.methods[subsig]? = some m → m.target = .app id →
    (scene.method id).subsig = subsig

namespace ClassInfo

theorem coherent_ofDecl (scene : Scene) (decl : ClassDecl) :
    (ClassInfo.ofDecl scene decl).Coherent scene := by
  intro subsig m id hmethod htarget
  obtain ⟨id', _, heq⟩ := List.mem_map.mp (mem_of_getElem?_ofList hmethod)
  cases heq
  cases htarget
  rfl

theorem coherent_of_library {scene : Scene} {info : ClassInfo}
    {entries : List (String × DeclaredMethod)} (hmethods : info.methods = .ofList entries)
    (hentries : ∀ entry ∈ entries, entry.2.target.app? = none) : info.Coherent scene := by
  intro subsig m id hmethod htarget
  rw [hmethods] at hmethod
  have hnone := hentries _ (mem_of_getElem?_ofList hmethod)
  rw [htarget] at hnone
  exact absurd hnone nofun

end ClassInfo

namespace Hierarchy

variable {scene : Scene} {table : Std.TreeMap String ClassInfo} {entries : List ClassInfo}

def Coherent (scene : Scene) (table : Std.TreeMap String ClassInfo) : Prop :=
  ∀ (name : String) (info : ClassInfo), table[name]? = some info → info.Coherent scene

theorem coherent_empty : Coherent scene {} := fun name info h => by simp at h

theorem coherent_enter (htable : Coherent scene table)
    (hentries : ∀ info ∈ entries, info.Coherent scene) : Coherent scene (enter table entries) := by
  unfold enter
  induction entries generalizing table with
  | nil => exact htable
  | cons first rest ih =>
    refine ih (fun name info hinfo => ?_) fun info hinfo =>
      hentries info (List.mem_cons_of_mem _ hinfo)
    rw [Std.TreeMap.getElem?_insert] at hinfo
    split at hinfo
    next =>
      cases hinfo
      exact hentries first List.mem_cons_self
    next => exact htable name info hinfo

/-- The classes of the platform have no methods of the program. -/
theorem coherent_platform : Coherent scene platform := by
  refine coherent_enter (coherent_enter coherent_empty ?_) ?_
  · intro info hinfo
    obtain ⟨entry, _, rfl⟩ := List.mem_map.mp hinfo
    exact ClassInfo.coherent_of_library rfl (by simp [Target.app?])
  · intro info hinfo
    obtain ⟨entry, _, rfl⟩ := List.mem_map.mp hinfo
    exact ClassInfo.coherent_of_library rfl (by simp [Target.app?])

theorem coherent_ofScene (scene : Scene) : Coherent scene (ofScene scene).classes := by
  refine coherent_enter coherent_platform fun info hinfo => ?_
  obtain ⟨decl, _, rfl⟩ := List.mem_map.mp hinfo
  exact ClassInfo.coherent_ofDecl scene decl

theorem subsig_of_dispatchToApp? {hierarchy : Hierarchy} (h : Coherent scene hierarchy.classes)
    {subsig owner : String} {id : MethodId}
    (hid : hierarchy.dispatchToApp? subsig owner = some id) : (scene.method id).subsig = subsig := by
  obtain ⟨dst, hdispatch, happ⟩ := Option.bind_eq_some_iff.mp hid
  obtain ⟨name, _, hdeclared⟩ := List.exists_of_findSome?_eq_some hdispatch
  obtain ⟨info, hinfo, hdeclared⟩ := Option.bind_eq_some_iff.mp hdeclared
  obtain ⟨m, hmethod, htarget⟩ := Option.bind_eq_some_iff.mp hdeclared
  split at htarget
  next => exact absurd htarget nofun
  next =>
    cases htarget
    refine h name info hinfo subsig m id hmethod ?_
    cases hkind : m.target with
    | app other =>
      rw [hkind] at happ
      rw [Option.some.inj happ]
    | library owner subsig =>
      rw [hkind] at happ
      exact absurd happ nofun

/-! ## Superclasses -/

section Superclasses

variable {hierarchy : Hierarchy} {name ancestor : String}

/-- A class directly extends the other. -/
def Inherits (hierarchy : Hierarchy) (c p : String) : Prop :=
  hierarchy.superclass? c = some p

theorem Inherits.mem {c p : String} (h : hierarchy.Inherits c p) :
    c ∈ hierarchy.classes := by
  obtain ⟨info, hinfo, _⟩ := Option.bind_eq_some_iff.mp h
  rw [Std.TreeMap.mem_iff_isSome_getElem?]
  exact Option.isSome_of_eq_some hinfo

/-- Different classes of the table are at most as many as it has. -/
theorem length_le_size {names : List String} (hnodup : names.Nodup)
    (hnames : ∀ name ∈ names, name ∈ hierarchy.classes) : names.length ≤ hierarchy.classes.size := by
  rw [← Std.TreeMap.length_keys]
  refine (List.subperm_of_subset hnodup fun name hname => ?_).length_le
  exact Std.TreeMap.mem_keys.mpr (hnames name hname)

/-- What is reached from a chain that no superclass leads out of is on the chain. -/
theorem mem_of_closed {chain : List String}
    (hclosed : ∀ c ∈ chain, ∀ p, hierarchy.Inherits c p → p ∈ chain)
    (hname : name ∈ chain) (h : Relation.ReflTransGen hierarchy.Inherits name ancestor) :
    ancestor ∈ chain := by
  induction h with
  | refl => exact hname
  | tail _ hstep ih => exact hclosed _ ih _ hstep

/-- What is reached from a class of the chain so far is on the whole chain. -/
theorem mem_chainFrom {bound : Nat} {below : List String} {s : String}
    (hnodup : (name :: below).Nodup) (hbelow : ∀ c ∈ below, c ∈ hierarchy.classes)
    (hclosed : ∀ c ∈ below, ∀ p, hierarchy.Inherits c p → p ∈ name :: below)
    (hbound : hierarchy.classes.size < below.length + bound) (hs : s ∈ name :: below)
    (h : Relation.ReflTransGen hierarchy.Inherits s ancestor) :
    ancestor ∈ hierarchy.chainFrom bound below name := by
  induction bound generalizing below name with
  | zero =>
    have hlength := length_le_size (List.nodup_cons.mp hnodup).2 hbelow
    exact absurd hbound (Nat.not_lt.mpr hlength)
  | succ bound ih =>
    have hends (hname : ∀ p, hierarchy.Inherits name p → p ∈ name :: below) :
        ancestor ∈ (name :: below).reverse :=
      List.mem_reverse.mpr (mem_of_closed (List.forall_mem_cons.mpr ⟨hname, hclosed⟩) hs h)
    unfold chainFrom
    split
    next p hparent =>
      have hname : ∀ other, hierarchy.Inherits name other → other = p :=
        fun other hother => Option.some.inj (hother.symm.trans hparent)
      split
      next hrepeats => exact hends fun other hother => hname other hother ▸ hrepeats
      next hfresh =>
        -- the class has the superclass above it, and all other superclasses are in the chain
        refine ih (List.nodup_cons.mpr ⟨hfresh, hnodup⟩) ?_ ?_ ?_ (List.mem_cons_of_mem _ hs)
        · exact List.forall_mem_cons.mpr ⟨Inherits.mem hparent, hbelow⟩
        · refine List.forall_mem_cons.mpr ⟨fun other hother => ?_, fun c hchild other hother => ?_⟩
          · exact hname other hother ▸ List.mem_cons_self
          · exact List.mem_cons_of_mem _ (hclosed c hchild other hother)
        · simp only [List.length_cons]
          omega
    next hnone => exact hends fun other hother => absurd (hother.symm.trans hnone) nofun

/-- A class and all classes above it are listed. -/
theorem mem_superclasses (h : Relation.ReflTransGen hierarchy.Inherits name ancestor) :
    ancestor ∈ hierarchy.superclasses name :=
  mem_chainFrom (List.nodup_singleton name) nofun nofun (by simp) List.mem_cons_self h

/-- The class or a class above it declares a method with a body. -/
def Provides (hierarchy : Hierarchy) (subsig owner : String) : Prop :=
  ∃ ancestor, Relation.ReflTransGen hierarchy.Inherits owner ancestor ∧
    ∃ info m, hierarchy.class? ancestor = some info ∧ info.methods[subsig]? = some m ∧
      m.isAbstract = false

/-- A method that a class or a class above it declares with a body is found. -/
theorem isSome_dispatch? {subsig owner : String} (h : hierarchy.Provides subsig owner) :
    (hierarchy.dispatch? subsig owner).isSome := by
  obtain ⟨ancestor, hancestor, info, m, hinfo, hmethod, hbody⟩ := h
  refine List.findSome?_isSome_iff.mpr ⟨ancestor, mem_superclasses hancestor, ?_⟩
  rw [declaredTarget?, hinfo]
  change ((info.methods[subsig]?).bind fun m =>
    if m.isAbstract then none else some m.target).isSome
  rw [hmethod, Option.bind_some, hbody]
  rfl

/-- Only classes of the table have supertypes other than themselves. -/
theorem eq_or_mem_of_isSubclassOf {c p : String}
    (h : hierarchy.isSubclassOf c p) : c = p ∨ c ∈ hierarchy.classes := by
  obtain ⟨s, hs, hpath⟩ :=
    reachable_of_mem_closure (Std.TreeSet.contains_iff_mem.mp h)
  rw [List.mem_singleton.mp hs] at hpath
  rcases hpath.cases_head with heq | ⟨supertype, hstep, _⟩
  · exact .inl heq
  · right
    have hstep : supertype ∈ hierarchy.supertypes c := hstep
    unfold supertypes at hstep
    split at hstep
    next info hinfo =>
      rw [Std.TreeMap.mem_iff_isSome_getElem?]
      exact Option.isSome_of_eq_some hinfo
    next => exact absurd hstep List.not_mem_nil

end Superclasses

end Hierarchy

/-! ## Prototypes -/

namespace Platform

/-- The methods of a listener's interface differ in their subsignatures. -/
theorem nodup_prototypes (interface : String) :
    ((prototypes interface).map Prototype.subsig).Nodup := by
  have hall : ∀ entry ∈ listenerInterfaces, (entry.prototypes.map Prototype.subsig).Nodup := by
    decide
  unfold prototypes
  split
  next entry hentry => exact hall entry (List.mem_of_find?_eq_some hentry)
  next => exact List.nodup_nil

/-- The parameter of a handler that holds the view is found by its prototype. -/
theorem viewPosition?_of_mem {interface : String} {prototype : Prototype}
    (h : prototype ∈ prototypes interface) :
    viewPosition? interface prototype.subsig = prototype.viewAt := by
  obtain ⟨found, hfound⟩ : ∃ found,
      (prototypes interface).find? (fun entry => entry.subsig = prototype.subsig) = some found := by
    refine Option.isSome_iff_exists.mp (List.find?_isSome.mpr ⟨prototype, h, ?_⟩)
    exact decide_eq_true rfl
  have hsubsig : found.subsig = prototype.subsig := by
    simpa using List.find?_some hfound
  have heq : found = prototype :=
    List.inj_on_of_nodup_map (nodup_prototypes interface) (List.mem_of_find?_eq_some hfound) h
      hsubsig
  rw [viewPosition?, hfound, heq]
  rfl

end Platform

namespace Context

variable {ctx : Context} {owner interface : String} {prototype : Platform.Prototype}
variable {handler : MethodId}

/-- A method is the one that an object of a class runs when a method of a listener's interface is
called on it. -/
structure Answers (ctx : Context) (owner interface : String) (prototype : Platform.Prototype)
    (handler : MethodId) : Prop where
  subclass : ctx.hierarchy.isSubclassOf owner interface
  declared : prototype ∈ Platform.prototypes interface
  dispatched : ctx.hierarchy.dispatchToApp? prototype.subsig owner = some handler
  concrete : (ctx.scene.method handler).isConcrete
  listener : ctx.hierarchy.isListener (ctx.scene.method handler).owner

theorem mem_handlersFor :
    handler ∈ ctx.handlersFor interface [owner] ↔
      ∃ prototype, ctx.Answers owner interface prototype handler := by
  have hhandler : ∀ prototype, ctx.handler? owner prototype = some handler ↔
      ctx.hierarchy.dispatchToApp? prototype.subsig owner = some handler ∧
        (ctx.scene.method handler).isConcrete ∧
          ctx.hierarchy.isListener (ctx.scene.method handler).owner := by
    intro prototype
    rw [handler?, Option.filter_eq_some_iff, Bool.and_eq_true]
  rw [handlersFor, Std.TreeSet.mem_toList, Std.TreeSet.mem_ofList, List.contains_iff_mem,
    List.flatMap_singleton, handlersOn]
  split
  next hsubclass =>
    rw [List.mem_filterMap]
    constructor
    · rintro ⟨prototype, hprototype, h⟩
      obtain ⟨hdispatched, hconcrete, hlistener⟩ := (hhandler prototype).mp h
      exact ⟨prototype, hsubclass, hprototype, hdispatched, hconcrete, hlistener⟩
    · rintro ⟨prototype, h⟩
      exact ⟨prototype, h.declared,
        (hhandler prototype).mpr ⟨h.dispatched, h.concrete, h.listener⟩⟩
  next hsubclass =>
    refine iff_of_false List.not_mem_nil ?_
    rintro ⟨prototype, h⟩
    exact hsubclass h.subclass

/-- The classes of a context list methods by their own subsignatures. -/
def Coherent (ctx : Context) : Prop := Hierarchy.Coherent ctx.scene ctx.hierarchy.classes

theorem coherent_of (scene : Scene) (resources : ResourceTable) (options : Options) :
    (Context.of scene resources options).Coherent :=
  Hierarchy.coherent_ofScene scene

theorem Answers.viewPosition?_eq (h : ctx.Answers owner interface prototype handler)
    (hctx : ctx.Coherent) :
    Platform.viewPosition? interface (ctx.scene.method handler).subsig = prototype.viewAt := by
  rw [Hierarchy.subsig_of_dispatchToApp? hctx h.dispatched]
  exact Platform.viewPosition?_of_mem h.declared

end Context

end WidgetFlow
