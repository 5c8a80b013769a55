import Mathlib.Data.List.Chain
import WidgetFlow.Proofs.Dispatch
import WidgetFlow.Proofs.Scene

/-!
# Queries about the class hierarchy

The table of a program holds the classes of the platform, the interfaces of listeners and the
classes of the program, and the last entry with a name counts (`class?_ofScene`). The queries are
exact for every table, also where classes extend each other in circles (`Hierarchy.queries_exact`).
A class is a subclass of all that its steps to superclasses and interfaces lead to
(`isSubclassOf_iff`). Its chain of superclasses is the only list that goes from superclass to
superclass, repeats nothing and cannot be continued (`superclasses_eq_iff`), and dispatch takes the
first class of the chain that has the method with a body (`dispatch?_eq_some_iff`).

A scene finds the first method with a subsignature that a class declares, and the hierarchy keeps
the last one. So both find the same method if and only if the class declares no other one
(`Hierarchy.lookups_agree_iff`); two methods with one subsignature tell the two apart
(`Hierarchy.lookups_disagree`).
-/

namespace WidgetFlow

namespace Hierarchy

variable {hierarchy : Hierarchy} {scene : Scene} {name c p subsig : String}
variable {dst : Target} {chain : List String}

/-! ## The table -/

/-- The entries of a program's table; the last one with a name counts. -/
def entries (scene : Scene) : List ClassInfo :=
  Platform.classes.map ClassInfo.ofPlatform ++
    (Platform.listenerInterfaces.map ClassInfo.ofListener ++
      scene.classes.map (ClassInfo.ofDecl scene))

theorem getElem?_enter (table : Std.TreeMap String ClassInfo) (entries : List ClassInfo) :
    (enter table entries)[name]? =
      (entries.reverse.find? fun info => info.name = name).or table[name]? := by
  unfold enter
  induction entries generalizing table with
  | nil => rfl
  | cons first rest ih =>
    rw [List.foldl_cons, ih, Std.TreeMap.getElem?_insert, List.reverse_cons, List.find?_append,
      Option.or_assoc]
    by_cases hname : first.name = name
    · simp [hname]
    · simp [hname]

theorem class?_ofScene (scene : Scene) (name : String) :
    (ofScene scene).class? name = (entries scene).reverse.find? fun info => info.name = name := by
  unfold class? ofScene platform entries
  rw [getElem?_enter, getElem?_enter, getElem?_enter, Std.TreeMap.getElem?_emptyc, Option.or_none,
    List.reverse_append, List.reverse_append, List.find?_append, List.find?_append,
    Option.or_assoc]

/-! ## Subtyping -/

/-- A class directly extends or implements another one. -/
def Derives (hierarchy : Hierarchy) (c p : String) : Prop :=
  ∃ info, hierarchy.class? c = some info ∧
    (info.superclass = some p ∨ p ∈ info.interfaces)

theorem stepsTo_supertypes : StepsTo hierarchy.supertypes c p ↔
    hierarchy.Derives c p := by
  unfold StepsTo supertypes Derives
  cases hierarchy.class? c with
  | none => simp
  | some info => simp [ClassInfo.supertypes]

theorem isSubclassOf_iff :
    hierarchy.isSubclassOf c p ↔ Relation.ReflTransGen hierarchy.Derives c p := by
  have hsteps : StepsTo hierarchy.supertypes = hierarchy.Derives := by
    funext c p
    exact propext stepsTo_supertypes
  have hknown : ∀ src dst, StepsTo hierarchy.supertypes src dst →
      src ∈ hierarchy.classes.keys := by
    intro src dst hstep
    obtain ⟨info, hinfo, _⟩ := stepsTo_supertypes.mp hstep
    rw [Std.TreeMap.mem_keys, Std.TreeMap.mem_iff_isSome_getElem?]
    exact Option.isSome_of_eq_some hinfo
  have hbound : hierarchy.classes.keys.length < hierarchy.classes.size + 1 := by
    rw [Std.TreeMap.length_keys]
    exact Nat.lt_succ_self _
  unfold isSubclassOf ancestors
  rw [Std.TreeSet.contains_iff_mem, mem_closure_singleton hknown hbound, hsteps]

/-! ## Superclasses -/

/-- The list holds a class and its successive superclasses, each once, and cannot be continued: its
last class is unknown, has no superclass or has one that the list holds. -/
structure IsLineage (hierarchy : Hierarchy) (name : String) (chain : List String) : Prop where
  head?_eq : chain.head? = some name
  nodup : chain.Nodup
  inherits : chain.IsChain hierarchy.Inherits
  ends : ∀ last ∈ chain.getLast?,
    hierarchy.superclass? last = none ∨ ∃ p ∈ chain, hierarchy.Inherits last p

theorem isLineage_chainFrom {bound : Nat} {below : List String} {s : String}
    (hs : (name :: below).reverse.head? = some s) (hnodup : (name :: below).Nodup)
    (hinherits : (name :: below).reverse.IsChain hierarchy.Inherits)
    (hknown : ∀ c ∈ below, c ∈ hierarchy.classes)
    (hbound : hierarchy.classes.size < below.length + bound) :
    hierarchy.IsLineage s (hierarchy.chainFrom bound below name) := by
  induction bound generalizing below name with
  | zero =>
    have hlength := length_le_size (List.nodup_cons.mp hnodup).2 hknown
    exact absurd hbound (Nat.not_lt.mpr hlength)
  | succ bound ih =>
    have hends (hlast : hierarchy.superclass? name = none ∨
        ∃ p ∈ (name :: below).reverse, hierarchy.Inherits name p) :
        hierarchy.IsLineage s (name :: below).reverse := by
      refine ⟨hs, List.nodup_reverse.mpr hnodup, hinherits, fun last hmem => ?_⟩
      rw [List.getLast?_reverse, List.head?_cons, Option.mem_some_iff] at hmem
      exact hmem ▸ hlast
    unfold chainFrom
    split
    next p hparent =>
      split
      next hrepeats => exact hends (.inr ⟨p, List.mem_reverse.mpr hrepeats, hparent⟩)
      next hfresh =>
        refine ih ?_ (List.nodup_cons.mpr ⟨hfresh, hnodup⟩) ?_ ?_ ?_
        · rw [List.reverse_cons, List.head?_append, hs]
          rfl
        · rw [List.reverse_cons]
          refine hinherits.append (List.isChain_singleton _) fun last hlast next hnext => ?_
          rw [List.getLast?_reverse, List.head?_cons, Option.mem_some_iff] at hlast
          rw [List.head?_cons, Option.mem_some_iff] at hnext
          exact hlast ▸ hnext ▸ hparent
        · exact List.forall_mem_cons.mpr ⟨Inherits.mem hparent, hknown⟩
        · rw [List.length_cons]
          omega
    next hnone => exact hends (.inl hnone)

/-- Every class of a chain but the last is in the table. -/
theorem length_le_of_isChain {first : String} {rest : List String}
    (hnodup : (first :: rest).Nodup) (hinherits : (first :: rest).IsChain hierarchy.Inherits) :
    rest.length ≤ hierarchy.classes.size := by
  have hlength : rest.length = (first :: rest).dropLast.length := by simp
  rw [hlength]
  refine length_le_size (hnodup.sublist (List.dropLast_sublist _)) fun name hname => ?_
  obtain ⟨index, hindex, rfl⟩ := List.getElem_of_mem hname
  rw [List.length_dropLast] at hindex
  rw [List.getElem_dropLast]
  exact Inherits.mem (List.isChain_iff_getElem.mp hinherits index (by omega))

theorem chainFrom_eq {bound : Nat} {below rest : List String}
    (hnodup : (below.reverse ++ name :: rest).Nodup)
    (hinherits : (name :: rest).IsChain hierarchy.Inherits)
    (hends : ∀ last ∈ (name :: rest).getLast?, hierarchy.superclass? last = none ∨
      ∃ p ∈ below.reverse ++ name :: rest, hierarchy.Inherits last p)
    (hbound : rest.length < bound) :
    hierarchy.chainFrom bound below name = below.reverse ++ name :: rest := by
  induction rest generalizing bound below name with
  | nil =>
    obtain ⟨bound, rfl⟩ := Nat.exists_eq_succ_of_ne_zero (Nat.ne_zero_of_lt hbound)
    rw [← List.reverse_cons] at hends ⊢
    unfold chainFrom
    rcases hends name rfl with hnone | ⟨p, hparent, hstep⟩
    · rw [hnone]
    · rw [Inherits] at hstep
      rw [hstep]
      exact if_pos (List.mem_reverse.mp hparent)
  | cons p rest ih =>
    obtain ⟨bound, rfl⟩ := Nat.exists_eq_succ_of_ne_zero (Nat.ne_zero_of_lt hbound)
    obtain ⟨hstep, hrest⟩ := List.isChain_cons_cons.mp hinherits
    have hsplit : below.reverse ++ name :: p :: rest =
        (name :: below).reverse ++ p :: rest := by simp
    rw [hsplit] at hnodup hends ⊢
    have hfresh : p ∉ name :: below := fun hmem =>
      List.disjoint_of_nodup_append hnodup (List.mem_reverse.mpr hmem) List.mem_cons_self
    rw [Inherits] at hstep
    rw [chainFrom, hstep]
    dsimp only
    rw [if_neg hfresh]
    refine ih hnodup hrest (fun last hlast => hends last ?_) (Nat.lt_of_succ_lt_succ hbound)
    rwa [List.getLast?_cons_cons]

/-- The superclasses of a class are its only chain. -/
theorem superclasses_eq_iff :
    hierarchy.superclasses name = chain ↔ hierarchy.IsLineage name chain := by
  constructor
  · rintro rfl
    exact isLineage_chainFrom rfl (List.nodup_singleton name) (List.isChain_singleton name) nofun
      (by simp)
  · intro h
    obtain ⟨first, rest, rfl⟩ : ∃ first rest, chain = first :: rest := by
      cases chain with
      | nil => cases h.head?_eq
      | cons first rest => exact ⟨first, rest, rfl⟩
    obtain rfl := Option.some.inj h.head?_eq
    have hlength := length_le_of_isChain h.nodup h.inherits
    exact chainFrom_eq h.nodup h.inherits h.ends (Nat.lt_succ_of_le hlength)

theorem isLineage_superclasses (hierarchy : Hierarchy) (name : String) :
    hierarchy.IsLineage name (hierarchy.superclasses name) :=
  superclasses_eq_iff.mp rfl

/-- What a chain holds is reached from its first class. -/
theorem inherits_of_mem_superclasses {ancestor : String}
    (h : ancestor ∈ hierarchy.superclasses name) :
    Relation.ReflTransGen hierarchy.Inherits name ancestor := by
  have hchain := hierarchy.isLineage_superclasses name
  obtain ⟨rest, hrest⟩ : ∃ rest, hierarchy.superclasses name = name :: rest :=
    List.head?_eq_some_iff.mp hchain.head?_eq
  rw [hrest] at h hchain
  exact List.IsChain.induction (Relation.ReflTransGen hierarchy.Inherits name) _
    hchain.inherits (fun _ _ hstep hpath => hpath.tail hstep) (fun _ => .refl) ancestor h

/-- The superclasses of a class do not come back to it. -/
def Acyclic (hierarchy : Hierarchy) (name : String) : Prop :=
  ∀ ancestor, Relation.ReflTransGen hierarchy.Inherits name ancestor →
    ¬ Relation.TransGen hierarchy.Inherits ancestor ancestor

theorem acyclic_of_ends {top : String} (h : Relation.ReflTransGen hierarchy.Inherits name top)
    (htop : hierarchy.superclass? top = none) : hierarchy.Acyclic name := by
  have hstuck : ∀ p, ¬ hierarchy.Inherits top p := fun p hparent =>
    absurd (htop.symm.trans hparent) nofun
  induction h using Relation.ReflTransGen.head_induction_on with
  | refl =>
    intro ancestor hpath hcycle
    rcases hpath.cases_head with rfl | ⟨p, hparent, _⟩
    · obtain ⟨p, hparent, _⟩ := Relation.TransGen.head'_iff.mp hcycle
      exact hstuck p hparent
    · exact hstuck p hparent
  | head hstep _ ih =>
    intro ancestor hpath hcycle
    rcases hpath.cases_head with rfl | ⟨p, hparent, hrest⟩
    · obtain ⟨p, hparent, hback⟩ := Relation.TransGen.head'_iff.mp hcycle
      cases hparent.symm.trans hstep
      exact ih _ hback hcycle
    · cases hparent.symm.trans hstep
      exact ih ancestor hrest hcycle

theorem superclasses_of_inherits (hacyclic : hierarchy.Acyclic name)
    (h : hierarchy.Inherits name p) :
    hierarchy.superclasses name = name :: hierarchy.superclasses p := by
  have hchain := hierarchy.isLineage_superclasses p
  have hfresh : name ∉ hierarchy.superclasses p := fun hmem =>
    hacyclic name .refl (Relation.TransGen.head' h (inherits_of_mem_superclasses hmem))
  obtain ⟨rest, hrest⟩ : ∃ rest, hierarchy.superclasses p = p :: rest :=
    List.head?_eq_some_iff.mp hchain.head?_eq
  rw [superclasses_eq_iff, hrest]
  rw [hrest] at hchain hfresh
  refine ⟨rfl, List.nodup_cons.mpr ⟨hfresh, hchain.nodup⟩,
    List.isChain_cons_cons.mpr ⟨h, hchain.inherits⟩, fun last hlast => ?_⟩
  rw [List.getLast?_cons_cons] at hlast
  exact (hchain.ends last hlast).imp_right fun ⟨above, habove, hstep⟩ =>
    ⟨above, List.mem_cons_of_mem _ habove, hstep⟩

theorem superclasses_of_none (h : hierarchy.superclass? name = none) :
    hierarchy.superclasses name = [name] := by
  rw [superclasses_eq_iff]
  exact ⟨rfl, List.nodup_singleton name, List.isChain_singleton name, fun last hlast => by
    rw [List.getLast?_singleton, Option.mem_some_iff] at hlast
    exact .inl (hlast ▸ h)⟩

/-! ## Dispatch -/

/-- A class itself has a method with a body. -/
def Declares (hierarchy : Hierarchy) (subsig owner : String) (dst : Target) : Prop :=
  ∃ info m, hierarchy.class? owner = some info ∧ info.methods[subsig]? = some m ∧
    m.isAbstract = false ∧ m.target = dst

theorem declaredTarget?_eq_some_iff {owner : String} :
    hierarchy.declaredTarget? subsig owner = some dst ↔
      hierarchy.Declares subsig owner dst := by
  unfold declaredTarget? Declares
  simp only [Option.bind_eq_bind, Option.bind_eq_some_iff, Option.ite_none_left_eq_some,
    Bool.not_eq_true, Option.some.injEq]
  constructor
  · rintro ⟨info, hinfo, m, hmethod, hbody⟩
    exact ⟨info, m, hinfo, hmethod, hbody⟩
  · rintro ⟨info, m, hinfo, hmethod, hbody⟩
    exact ⟨info, hinfo, m, hmethod, hbody⟩

theorem declaredTarget?_eq_none_iff {owner : String} :
    hierarchy.declaredTarget? subsig owner = none ↔
      ∀ dst, ¬ hierarchy.Declares subsig owner dst := by
  simp only [Option.eq_none_iff_forall_ne_some, ne_eq, declaredTarget?_eq_some_iff]

/-- Dispatch finds the method of the first superclass that has it with a body. -/
theorem dispatch?_eq_some_iff :
    hierarchy.dispatch? subsig name = some dst ↔
      ∃ before owner after, hierarchy.superclasses name = before ++ owner :: after ∧
        hierarchy.Declares subsig owner dst ∧
          ∀ other ∈ before, ∀ dst, ¬ hierarchy.Declares subsig other dst := by
  unfold dispatch?
  simp only [List.findSome?_eq_some_iff, declaredTarget?_eq_some_iff, declaredTarget?_eq_none_iff]

theorem dispatch?_of_acyclic (hacyclic : hierarchy.Acyclic name)
    (h : ∀ dst, ¬ hierarchy.Declares subsig name dst) :
    hierarchy.dispatch? subsig name =
      (hierarchy.superclass? name).bind (hierarchy.dispatch? subsig) := by
  rw [← declaredTarget?_eq_none_iff] at h
  unfold dispatch?
  cases hparent : hierarchy.superclass? name with
  | none => rw [superclasses_of_none hparent, List.findSome?_singleton, h, Option.bind_none]
  | some p => rw [superclasses_of_inherits hacyclic hparent, List.findSome?_cons, h,
      Option.bind_some]

end Hierarchy

/-! ## Accepted programs -/

namespace Scene

variable {scene new : Scene} {program : Program}

theorem classes_addClass {decl : ClassDecl} (h : scene.addClass decl = .ok new) :
    new.classes = scene.classes ++ [decl] ∧ decl.name ∉ scene.classes.map ClassDecl.name := by
  unfold addClass at h
  split at h
  next => cases h
  next hfresh =>
    obtain ⟨methods, _, h⟩ := except_bind_eq_ok.mp h
    obtain rfl := Except.ok.inj h
    refine ⟨rfl, fun hmem => hfresh ?_⟩
    obtain ⟨known, hknown, hname⟩ := List.mem_map.mp hmem
    exact List.any_eq_true.mpr ⟨known, hknown, decide_eq_true hname⟩

theorem classes_foldlM {classes : List ClassDecl} (h : classes.foldlM addClass scene = .ok new)
    (hnodup : (scene.classes.map ClassDecl.name).Nodup) :
    new.classes = scene.classes ++ classes ∧ (new.classes.map ClassDecl.name).Nodup := by
  induction classes generalizing scene with
  | nil =>
    obtain rfl := Except.ok.inj h
    exact ⟨(List.append_nil _).symm, hnodup⟩
  | cons decl rest ih =>
    rw [List.foldlM_cons] at h
    obtain ⟨middle, hadd, h⟩ := except_bind_eq_ok.mp h
    obtain ⟨hclasses, hfresh⟩ := classes_addClass hadd
    have hmiddle : (middle.classes.map ClassDecl.name).Nodup := by
      rw [hclasses, List.map_append, List.map_singleton]
      exact List.nodup_append_comm.mp (List.nodup_cons.mpr ⟨hfresh, hnodup⟩)
    obtain ⟨hnew, hdistinct⟩ := ih h hmiddle
    rw [hnew, hclasses, List.append_assoc]
    exact ⟨rfl, by rwa [hnew, hclasses, List.append_assoc] at hdistinct⟩

/-- The classes of an accepted program have different names. -/
theorem classes_ofProgram (h : ofProgram program = .ok scene) :
    scene.classes = program.classes ∧ (program.classes.map ClassDecl.name).Nodup := by
  obtain ⟨hclasses, hnodup⟩ := classes_foldlM h List.nodup_nil
  rw [hclasses] at hnodup
  exact ⟨hclasses, hnodup⟩

/-- The methods that a class declares with a subsignature, in order of declaration. -/
def declared (scene : Scene) (owner subsig : String) : List MethodId :=
  (scene.methodsOf owner).filter fun id => (scene.method id).subsig = subsig

theorem findMethod?_eq_head? (scene : Scene) (owner subsig : String) :
    scene.findMethod? owner subsig = (scene.declared owner subsig).head? :=
  List.head?_filter.symm

theorem nodup_declared (scene : Scene) (owner subsig : String) :
    (scene.declared owner subsig).Nodup :=
  (List.nodup_range.filter _).filter _

end Scene

/-! ## The methods that a class declares -/

namespace Hierarchy

variable {scene : Scene} {program : Program} {decl : ClassDecl} {subsig owner : String}
variable {id : MethodId}

/-- Of the methods with a subsignature, the last one counts. -/
theorem getElem?_methods_ofDecl (scene : Scene) (decl : ClassDecl) (subsig : String) :
    (ClassInfo.ofDecl scene decl).methods[subsig]? =
      (scene.declared decl.name subsig).getLast?.map fun id =>
        ⟨.app id, (scene.method id).isAbstract || decl.isInterface⟩ := by
  rw [ClassInfo.ofDecl, getElem?_ofList, List.filter_map, List.getLast?_map, Option.map_map]
  rfl

theorem class?_of_mem (hread : Scene.ofProgram program = .ok scene)
    (hdecl : decl ∈ program.classes) :
    (ofScene scene).class? decl.name = some (ClassInfo.ofDecl scene decl) := by
  obtain ⟨hclasses, hnodup⟩ := Scene.classes_ofProgram hread
  rw [class?_ofScene, entries, List.reverse_append, List.reverse_append, List.find?_append,
    List.find?_append]
  obtain ⟨found, hfound⟩ : ∃ found, (scene.classes.map (ClassInfo.ofDecl scene)).reverse.find?
      (fun info => info.name = decl.name) = some found := by
    rw [← Option.isSome_iff_exists, List.find?_isSome]
    refine ⟨ClassInfo.ofDecl scene decl, ?_, decide_eq_true rfl⟩
    rw [hclasses]
    exact List.mem_reverse.mpr (List.mem_map_of_mem hdecl)
  obtain ⟨other, hother, rfl⟩ :=
    List.mem_map.mp (List.mem_reverse.mp (List.mem_of_find?_eq_some hfound))
  have hname : (ClassInfo.ofDecl scene other).name = decl.name := by
    simpa using List.find?_some hfound
  rw [hclasses] at hother
  rw [hfound, List.inj_on_of_nodup_map hnodup hother hdecl hname]
  rfl

theorem declares_of_getLast? (hread : Scene.ofProgram program = .ok scene)
    (hdecl : decl ∈ program.classes) (hclass : decl.isInterface = false)
    (hlast : (scene.declared decl.name subsig).getLast? = some id)
    (hbody : (scene.method id).isAbstract = false) :
    (ofScene scene).Declares subsig decl.name (.app id) := by
  refine ⟨_, ⟨.app id, false⟩, class?_of_mem hread hdecl, ?_, rfl, rfl⟩
  rw [getElem?_methods_ofDecl, hlast, Option.map_some, hbody, hclass]
  rfl

/-- Only the classes of the program have methods of the program, and their last ones. -/
theorem getLast?_of_declares (h : (ofScene scene).Declares subsig owner (.app id)) :
    (scene.declared owner subsig).getLast? = some id := by
  obtain ⟨info, m, hinfo, hmethod, _, htarget⟩ := h
  rw [class?_ofScene] at hinfo
  have hname : info.name = owner := by simpa using List.find?_some hinfo
  have hentry := List.mem_reverse.mp (List.mem_of_find?_eq_some hinfo)
  have hlibrary {entries : List (String × DeclaredMethod)}
      (hmethods : info.methods = .ofList entries)
      (hentries : ∀ entry ∈ entries, entry.2.target.app? = none) : False := by
    rw [hmethods] at hmethod
    have hnone := hentries _ (mem_of_getElem?_ofList hmethod)
    rw [htarget] at hnone
    cases hnone
  rcases List.mem_append.mp hentry with hentry | hentry
  · obtain ⟨entry, _, rfl⟩ := List.mem_map.mp hentry
    exact (hlibrary rfl (by simp [Target.app?])).elim
  rcases List.mem_append.mp hentry with hentry | hentry
  · obtain ⟨entry, _, rfl⟩ := List.mem_map.mp hentry
    exact (hlibrary rfl (by simp [Target.app?])).elim
  · obtain ⟨decl, _, rfl⟩ := List.mem_map.mp hentry
    obtain rfl : decl.name = owner := hname
    rw [getElem?_methods_ofDecl] at hmethod
    obtain ⟨last, hlast, rfl⟩ := Option.map_eq_some_iff.mp hmethod
    cases htarget
    exact hlast

/-- A class that itself has a method with a body runs it. -/
theorem dispatchToApp?_of_declares {hierarchy : Hierarchy}
    (h : hierarchy.Declares subsig owner (.app id)) :
    hierarchy.dispatchToApp? subsig owner = some id := by
  obtain ⟨rest, hrest⟩ :=
    List.head?_eq_some_iff.mp (hierarchy.isLineage_superclasses owner).head?_eq
  have hdispatch : hierarchy.dispatch? subsig owner = some (.app id) :=
    dispatch?_eq_some_iff.mpr ⟨[], owner, rest, hrest, h, nofun⟩
  rw [dispatchToApp?, hdispatch]
  rfl

/-- A method that dispatch finds is the last one with its subsignature in its class. -/
theorem getLast?_of_dispatchToApp? (h : (ofScene scene).dispatchToApp? subsig owner = some id) :
    (scene.declared (scene.method id).owner subsig).getLast? = some id := by
  obtain ⟨dst, hdispatch, htarget⟩ := Option.bind_eq_some_iff.mp h
  obtain ⟨_, ancestor, _, _, hdeclares, _⟩ := dispatch?_eq_some_iff.mp hdispatch
  cases dst with
  | library => cases htarget
  | app found =>
    cases htarget
    have hlast := getLast?_of_declares hdeclares
    have hmem := (List.mem_filter.mp (List.mem_filter.mp (List.mem_of_getLast? hlast)).1).2
    rw [of_decide_eq_true hmem]
    exact hlast

end Hierarchy

/-! ## A sample family -/

namespace Sample

/-- A class that leaves its method to the class above it, and two classes that extend each other. -/
def familyProgram : Program where
  classes := [
    { name := "app.Base", methods := [{ name := "run" }, { name := "stop" }] },
    { name := "app.Leaf", superclass := some "app.Base", interfaces := ["app.Task"]
      methods := [{ name := "run", isAbstract := true }] },
    { name := "app.Left", superclass := some "app.Right" },
    { name := "app.Right", superclass := some "app.Left" }]

def familyScene : Scene where
  classes := familyProgram.classes
  methods := #[
    { sig := { owner := "app.Base", result := .void, name := "run", params := [] } },
    { sig := { owner := "app.Base", result := .void, name := "stop", params := [] } },
    { sig := { owner := "app.Leaf", result := .void, name := "run", params := [] }
      isAbstract := true }]

theorem familyScene_read : Scene.ofProgram familyProgram = .ok familyScene := rfl

/-- A class that declares a method twice. -/
def twiceProgram : Program where
  classes := [{ name := "app.Main", methods := [{ name := "run" }, { name := "run" }] }]

def twiceScene : Scene where
  classes := twiceProgram.classes
  methods := #[
    { sig := { owner := "app.Main", result := .void, name := "run", params := [] } },
    { sig := { owner := "app.Main", result := .void, name := "run", params := [] } }]

theorem twiceScene_read : Scene.ofProgram twiceProgram = .ok twiceScene := rfl

end Sample

namespace Hierarchy

/-- The queries about the hierarchy of a program are exact, whatever its classes extend. -/
theorem queries_exact (scene : Scene) (name subsig : String) :
    ((ofScene scene).class? name =
      (entries scene).reverse.find? fun info => info.name = name) ∧
    ((∀ p, (ofScene scene).isSubclassOf name p ↔
        Relation.ReflTransGen (ofScene scene).Derives name p) ∧
      (ofScene scene).isSubclassOf name name ∧
      ∀ middle p, (ofScene scene).isSubclassOf name middle →
        (ofScene scene).isSubclassOf middle p → (ofScene scene).isSubclassOf name p) ∧
    (∀ chain, (ofScene scene).superclasses name = chain ↔ (ofScene scene).IsLineage name chain) ∧
    (∀ dst, (ofScene scene).dispatch? subsig name = some dst ↔
      ∃ before owner after, (ofScene scene).superclasses name = before ++ owner :: after ∧
        (ofScene scene).Declares subsig owner dst ∧
          ∀ other ∈ before, ∀ dst, ¬ (ofScene scene).Declares subsig other dst) ∧
    ((ofScene scene).Acyclic name → (∀ dst, ¬ (ofScene scene).Declares subsig name dst) →
      (ofScene scene).dispatch? subsig name =
        ((ofScene scene).superclass? name).bind ((ofScene scene).dispatch? subsig)) := by
  refine ⟨class?_ofScene scene name, ⟨fun _ => isSubclassOf_iff, isSubclassOf_iff.mpr .refl, ?_⟩,
    fun _ => superclasses_eq_iff, fun _ => dispatch?_eq_some_iff, dispatch?_of_acyclic⟩
  intro middle p hmiddle hparent
  rw [isSubclassOf_iff] at hmiddle hparent ⊢
  exact hmiddle.trans hparent

theorem queries_exact_family :
    ((ofScene Sample.familyScene).Acyclic "app.Leaf" ∧
      (ofScene Sample.familyScene).dispatch? "void run()" "app.Leaf" =
        (ofScene Sample.familyScene).dispatch? "void run()" "app.Base") ∧
    (ofScene Sample.familyScene).superclasses "app.Left" = ["app.Left", "app.Right"] := by
  have hleaf : (ofScene Sample.familyScene).superclass? "app.Leaf" = some "app.Base" := by
    rw [superclass?, class?_ofScene]
    decide +kernel
  have hbase : (ofScene Sample.familyScene).superclass? "app.Base" = some "java.lang.Object" := by
    rw [superclass?, class?_ofScene]
    decide +kernel
  have htop : (ofScene Sample.familyScene).superclass? "java.lang.Object" = none := by
    rw [superclass?, class?_ofScene]
    decide +kernel
  have hleft : (ofScene Sample.familyScene).superclass? "app.Left" = some "app.Right" := by
    rw [superclass?, class?_ofScene]
    decide +kernel
  have hright : (ofScene Sample.familyScene).superclass? "app.Right" = some "app.Left" := by
    rw [superclass?, class?_ofScene]
    decide +kernel
  have hacyclic := acyclic_of_ends (.head hleaf (.single hbase)) htop
  have habstract :
      ∀ dst, ¬ (ofScene Sample.familyScene).Declares "void run()" "app.Leaf" dst := by
    rw [← declaredTarget?_eq_none_iff, declaredTarget?, class?_ofScene]
    decide +kernel
  refine ⟨⟨hacyclic, ?_⟩, ?_⟩
  · rw [(queries_exact Sample.familyScene "app.Leaf" "void run()").2.2.2.2 hacyclic habstract,
      hleaf, Option.bind_some]
  · refine ((queries_exact Sample.familyScene "app.Left" "void run()").2.2.1 _).mpr
      ⟨rfl, by decide, List.isChain_pair.mpr hleft, fun last hlast => ?_⟩
    obtain rfl : "app.Right" = last := Option.some.inj hlast
    exact .inr ⟨"app.Left", List.mem_cons_self, hright⟩

/-- A scene and the hierarchy find the same method of a class if and only if the class declares no
other one with the subsignature. -/
theorem lookups_agree_iff {program : Program} {scene : Scene}
    (hread : Scene.ofProgram program = .ok scene) {decl : ClassDecl}
    (hdecl : decl ∈ program.classes) (hclass : decl.isInterface = false)
    {subsig : String} {id : MethodId}
    (hfind : scene.findMethod? decl.name subsig = some id)
    (hbody : (scene.method id).isAbstract = false) :
    (ofScene scene).dispatchToApp? subsig decl.name = some id ↔
      ∀ other ∈ scene.methodsOf decl.name, (scene.method other).subsig = subsig → other = id := by
  rw [Scene.findMethod?_eq_head?] at hfind
  obtain ⟨rest, hrest⟩ := List.head?_eq_some_iff.mp hfind
  have hmem : id ∈ scene.declared decl.name subsig := hrest ▸ List.mem_cons_self
  have hnodup := scene.nodup_declared decl.name subsig
  constructor
  · intro hdispatch other hother hsubsig
    have howner : (scene.method id).owner = decl.name :=
      of_decide_eq_true (List.mem_filter.mp (List.mem_filter.mp hmem).1).2
    have hlast := getLast?_of_dispatchToApp? hdispatch
    have hdeclared : other ∈ scene.declared decl.name subsig :=
      List.mem_filter.mpr ⟨hother, decide_eq_true hsubsig⟩
    rw [howner, hrest] at hlast
    rw [hrest] at hdeclared hnodup
    -- the method is the first and the last, so it is the only one
    cases rest with
    | nil => exact List.mem_singleton.mp hdeclared
    | cons next more =>
        rw [List.getLast?_cons_cons] at hlast
        exact absurd (List.mem_of_getLast? hlast) (List.nodup_cons.mp hnodup).1
  · intro honly
    have hlast : (scene.declared decl.name subsig).getLast? = some id := by
      rw [List.getLast?_eq_getLast_of_ne_nil (List.ne_nil_of_mem hmem)]
      obtain ⟨hmethod, hsubsig⟩ := List.mem_filter.mp (List.getLast_mem (List.ne_nil_of_mem hmem))
      rw [honly _ hmethod (of_decide_eq_true hsubsig)]
    exact dispatchToApp?_of_declares (declares_of_getLast? hread hdecl hclass hlast hbody)

theorem lookups_agree_iff_family :
    Sample.familyScene.findMethod? "app.Base" "void stop()" = some 1 ∧
      (ofScene Sample.familyScene).dispatchToApp? "void stop()" "app.Base" = some 1 := by
  have hfind : Sample.familyScene.findMethod? "app.Base" "void stop()" = some 1 := by decide +kernel
  have honly : ∀ other ∈ Sample.familyScene.methodsOf "app.Base",
      (Sample.familyScene.method other).subsig = "void stop()" → other = 1 := by decide +kernel
  exact ⟨hfind,
    (lookups_agree_iff Sample.familyScene_read List.mem_cons_self rfl hfind rfl).mpr honly⟩

/-- A class that declares a subsignature twice runs another method than the one that the scene
finds. -/
theorem lookups_disagree :
    ¬ ∀ (program : Program) (scene : Scene), Scene.ofProgram program = .ok scene →
      ∀ decl ∈ program.classes, decl.isInterface = false →
        ∀ subsig id, scene.findMethod? decl.name subsig = some id →
          (scene.method id).isAbstract = false →
            (ofScene scene).dispatchToApp? subsig decl.name = some id := by
  intro hall
  have hfind : Sample.twiceScene.findMethod? "app.Main" "void run()" = some 0 := by decide +kernel
  have hlast : (Sample.twiceScene.declared "app.Main" "void run()").getLast? = some 1 := by
    decide +kernel
  have hfirst := hall _ _ Sample.twiceScene_read _ List.mem_cons_self rfl _ _ hfind rfl
  have hsecond := dispatchToApp?_of_declares
    (declares_of_getLast? Sample.twiceScene_read List.mem_cons_self rfl hlast rfl)
  cases hfirst.symm.trans hsecond

end Hierarchy

end WidgetFlow
