import Mathlib.Data.List.Perm.Subperm
import Mathlib.Logic.Function.Iterate
import WidgetFlow.Proofs.Scene

/-!
# The types of locals

The inference goes over a body until a pass types no further local. `Typable` says which locals can
have a type: those that are declared, and those that a statement defines by something whose type is
known from such locals. The inference types exactly these, as every table on its way is learnt
statement by statement (`Locals.Learnt`) and the last pass adds nothing (`Locals.settle_fixed`). So a
program is refused for one of its locals just if a method uses a local that cannot have a type.
-/

namespace WidgetFlow

/-- The locals that can have a type, if all types are those of a table. The type of a value is known
from some locals if it can be told from the part of the table that is about these. -/
inductive Typable (sig : MethodSig) (body : List Stmt) (declared types : Locals) : String → Prop
  | declared {name : String} (h : name ∈ declared) : Typable sig body declared types name
  | entry {name : String} {entry : Entry} {ty : Ty} (hstmt : .identity name entry ∈ body)
      (hty : entry.ty? sig = some ty) : Typable sig body declared types name
  | value {name : String} {v : Value} {ty : Ty} {known : Locals}
      (hstmt : .assign (.var name) v ∈ body)
      (hpart : ∀ (other : String) (ty : Ty), known[other]? = some ty → types[other]? = some ty)
      (hknown : ∀ other ∈ known, Typable sig body declared types other)
      (hty : v.ty? known = some ty) : Typable sig body declared types name

namespace Locals

variable {sig : MethodSig} {body : List Stmt} {declared types locals known : Locals} {stmt : Stmt}
variable {name : String} {ty : Ty}

/-! ## Tables that grow -/

/-- One table has all types of another one. -/
def Within (known types : Locals) : Prop :=
  ∀ (name : String) (ty : Ty), known[name]? = some ty → types[name]? = some ty

theorem Within.refl (types : Locals) : types.Within types := fun _ _ h => h

theorem Within.trans (h : known.Within locals) (h' : locals.Within types) : known.Within types :=
  fun name ty hname => h' name ty (h name ty hname)

theorem mem_iff_getElem? : name ∈ locals ↔ ∃ ty, locals[name]? = some ty := by
  rw [← Option.isSome_iff_exists, Std.TreeMap.isSome_getElem?_iff_mem]

theorem Within.mem (h : known.Within types) (hname : name ∈ known) : name ∈ types := by
  obtain ⟨ty, hty⟩ := mem_iff_getElem?.mp hname
  exact mem_iff_getElem?.mpr ⟨ty, h name ty hty⟩

/-- What is known of a value stays known. -/
theorem Within.ty?_eq (h : known.Within types) {v : Value} (hty : v.ty? known = some ty) :
    v.ty? types = some ty := by
  cases v with
  | var name => exact h name ty hty
  | element base index =>
    obtain ⟨array, harray, helement⟩ := Option.bind_eq_some_iff.mp hty
    exact Option.bind_eq_some_iff.mpr ⟨array, h base array harray, helement⟩
  | _ => exact hty

theorem Within.typing?_eq (h : known.Within types)
    (htyping : stmt.typing? sig known = some (name, ty)) :
    stmt.typing? sig types = some (name, ty) := by
  unfold Stmt.typing? at htyping ⊢
  split at htyping
  next => exact htyping
  next =>
    obtain ⟨found, hfound, heq⟩ := Option.map_eq_some_iff.mp htyping
    exact Option.map_eq_some_iff.mpr ⟨found, h.ty?_eq hfound, heq⟩
  next => cases htyping

/-! ## One statement -/

theorem insertIfNew_of_mem (h : name ∈ locals) : locals.insertIfNew name ty = locals := by
  have hmem : locals.inner.inner.contains name = true := h
  have himpl : (locals.inner.inner.insertIfNew name ty locals.inner.wf.balanced).impl =
      locals.inner.inner := by
    unfold Std.DTreeMap.Internal.Impl.insertIfNew
    rw [if_pos hmem]
  obtain ⟨⟨inner, wf⟩⟩ := locals
  simp only [Std.TreeMap.insertIfNew, Std.DTreeMap.insertIfNew, himpl]

/-- A statement leaves the table as it is or types a new local. -/
theorem learn_cases (sig : MethodSig) (locals : Locals) (stmt : Stmt) :
    locals.learn sig stmt = locals ∨ ∃ name ty, stmt.typing? sig locals = some (name, ty) ∧
      name ∉ locals ∧ locals.learn sig stmt = locals.insertIfNew name ty := by
  unfold learn
  split
  next name ty htyping =>
    by_cases hname : name ∈ locals
    · exact .inl (insertIfNew_of_mem hname)
    · exact .inr ⟨name, ty, htyping, hname, rfl⟩
  next => exact .inl rfl

theorem within_learn : locals.Within (locals.learn sig stmt) := by
  rcases learn_cases sig locals stmt with heq | ⟨other, _, _, hother, heq⟩
  · exact heq.symm ▸ .refl _
  · intro name ty hname
    rw [heq, Std.TreeMap.getElem?_insertIfNew, if_neg, hname]
    rintro ⟨hsame, _⟩
    rw [Std.LawfulEqCmp.compare_eq_iff_eq] at hsame
    exact hother (mem_iff_getElem?.mpr ⟨ty, hsame ▸ hname⟩)

theorem size_le_learn : locals.size ≤ (locals.learn sig stmt).size := by
  rcases learn_cases sig locals stmt with heq | ⟨_, _, _, _, heq⟩
  · exact Nat.le_of_eq (congrArg Std.TreeMap.size heq.symm)
  · rw [heq]
    exact locals.size_le_size_insertIfNew

theorem learn_eq_of_size (h : (locals.learn sig stmt).size ≤ locals.size) :
    locals.learn sig stmt = locals := by
  rcases learn_cases sig locals stmt with heq | ⟨_, _, _, hname, heq⟩
  · exact heq
  · rw [heq, Std.TreeMap.size_insertIfNew, if_neg hname] at h
    exact absurd h (Nat.not_succ_le_self _)

/-! ## Passes -/

theorem pass_cons : locals.pass sig (stmt :: body) = (locals.learn sig stmt).pass sig body := rfl

theorem size_le_pass : locals.size ≤ (locals.pass sig body).size := by
  induction body generalizing locals with
  | nil => exact Nat.le_refl _
  | cons stmt rest ih => exact Nat.le_trans size_le_learn ih

/-- A pass that adds nothing leaves the table as it is, and so does each of its statements. -/
theorem eq_of_size_pass (h : (locals.pass sig body).size = locals.size) :
    locals.pass sig body = locals ∧ ∀ stmt ∈ body, locals.learn sig stmt = locals := by
  induction body with
  | nil => exact ⟨rfl, nofun⟩
  | cons first rest ih =>
    have hrest : (locals.learn sig first).size ≤ ((locals.learn sig first).pass sig rest).size :=
      size_le_pass
    have hfirst : locals.learn sig first = locals := learn_eq_of_size (h ▸ hrest)
    rw [pass_cons, hfirst] at h ⊢
    exact ⟨(ih h).1, List.forall_mem_cons.mpr ⟨hfirst, (ih h).2⟩⟩

/-- The tables that are learnt from the declared types, one statement of the body after the other. -/
inductive Learnt (sig : MethodSig) (body : List Stmt) (declared : Locals) : Locals → Prop
  | declared : Learnt sig body declared declared
  | learn {locals : Locals} {stmt : Stmt} (h : Learnt sig body declared locals)
      (hstmt : stmt ∈ body) : Learnt sig body declared (locals.learn sig stmt)

namespace Learnt

theorem pass (h : Learnt sig body declared locals) :
    Learnt sig body declared (locals.pass sig body) := by
  have hpart : ∀ part ⊆ body, ∀ locals, Learnt sig body declared locals →
      Learnt sig body declared (locals.pass sig part) := by
    intro part
    induction part with
    | nil => exact fun _ _ h => h
    | cons stmt rest ih =>
      intro hpart locals h
      obtain ⟨hstmt, hrest⟩ := List.cons_subset.mp hpart
      exact ih hrest _ (h.learn hstmt)
  exact hpart body (List.Subset.refl _) locals h

theorem within (h : Learnt sig body declared locals) : declared.Within locals := by
  induction h with
  | declared => exact .refl _
  | learn _ _ ih => exact ih.trans within_learn

/-- A type that is not declared is the one that a definition gives. -/
theorem defined (h : Learnt sig body declared locals) (hname : locals[name]? = some ty) :
    declared[name]? = some ty ∨ ∃ stmt ∈ body, stmt.typing? sig locals = some (name, ty) := by
  induction h with
  | declared => exact .inl hname
  | @learn locals stmt _ hstmt ih =>
    have hkept : locals[name]? = some ty → declared[name]? = some ty ∨
        ∃ other ∈ body, other.typing? sig (locals.learn sig stmt) = some (name, ty) := by
      refine fun hold => (ih hold).imp_right ?_
      rintro ⟨other, hother, htyping⟩
      exact ⟨other, hother, within_learn.typing?_eq htyping⟩
    rcases learn_cases sig locals stmt with heq | ⟨_, _, htyping, _, heq⟩
    · exact hkept (heq ▸ hname)
    · rw [heq, Std.TreeMap.getElem?_insertIfNew] at hname
      split at hname
      next hsame =>
        obtain rfl := Std.LawfulEqCmp.compare_eq_iff_eq.mp hsame.1
        obtain rfl := Option.some.inj hname
        exact .inr ⟨stmt, hstmt, within_learn.typing?_eq htyping⟩
      next => exact hkept hname

/-- Whatever gets a type can have one. -/
theorem typable (h : Learnt sig body declared locals) (hwithin : locals.Within types)
    (hname : name ∈ locals) : Typable sig body declared types name := by
  induction h generalizing name with
  | declared => exact .declared hname
  | @learn locals stmt _ hstmt ih =>
    have hknown : locals.Within types := within_learn.trans hwithin
    rcases learn_cases sig locals stmt with heq | ⟨found, ty, htyping, _, heq⟩
    · exact ih hknown (heq ▸ hname)
    rw [heq, Std.TreeMap.mem_insertIfNew] at hname
    rcases hname with hsame | hname
    · obtain rfl := Std.LawfulEqCmp.compare_eq_iff_eq.mp hsame
      unfold Stmt.typing? at htyping
      split at htyping
      next =>
        obtain ⟨_, hty, ⟨⟩⟩ := Option.map_eq_some_iff.mp htyping
        exact .entry hstmt hty
      next =>
        obtain ⟨_, hty, ⟨⟩⟩ := Option.map_eq_some_iff.mp htyping
        exact .value hstmt hknown (fun _ => ih hknown) hty
      next => cases htyping
    · exact ih hknown hname

/-- Besides the declared locals at most one local for each statement has a type. -/
theorem size_le (h : Learnt sig body declared locals) :
    locals.size ≤ declared.size + body.length := by
  have hsubset : locals.keys ⊆ declared.keys ++ body.filterMap Stmt.definedVar? := by
    intro name hname
    obtain ⟨ty, hty⟩ := mem_iff_getElem?.mp (Std.TreeMap.mem_keys.mp hname)
    rcases h.defined hty with hdeclared | ⟨stmt, hstmt, htyping⟩
    · exact List.mem_append_left _ (Std.TreeMap.mem_keys.mpr (mem_iff_getElem?.mpr ⟨ty, hdeclared⟩))
    · refine List.mem_append_right _ (List.mem_filterMap.mpr ⟨stmt, hstmt, ?_⟩)
      unfold Stmt.typing? at htyping
      split at htyping <;> simp_all [Stmt.definedVar?]
  have hlength := (Std.TreeMap.nodup_keys.subperm hsubset).length_le
  rw [List.length_append, Std.TreeMap.length_keys, Std.TreeMap.length_keys] at hlength
  exact Nat.le_trans hlength (Nat.add_le_add_left (List.length_filterMap_le ..) _)

end Learnt

/-- If there are enough rounds, passes are made until one of them adds nothing. -/
theorem settle_fixed (rounds : Nat) (h : Learnt sig body declared locals)
    (hrounds : declared.size + body.length < locals.size + rounds) :
    ∃ passes < rounds, locals.settle sig body rounds = (pass sig body)^[passes] locals ∧
      (locals.settle sig body rounds).pass sig body = locals.settle sig body rounds ∧
      Learnt sig body declared (locals.settle sig body rounds) := by
  induction rounds generalizing locals with
  | zero => exact absurd h.size_le (Nat.not_le_of_gt hrounds)
  | succ rounds ih =>
    rw [settle]
    split
    next hsize =>
      have hpass : locals.pass sig body = locals := (eq_of_size_pass hsize).1
      rw [hpass]
      exact ⟨0, Nat.succ_pos _, rfl, hpass, h⟩
    next hsize =>
      have hgrown : locals.size < (locals.pass sig body).size :=
        Nat.lt_of_le_of_ne size_le_pass fun heq => hsize heq.symm
      obtain ⟨passes, hpasses, heq, hrest⟩ := ih h.pass (by omega)
      exact ⟨passes + 1, Nat.succ_lt_succ hpasses, heq, hrest⟩

theorem infer_fixed (sig : MethodSig) (body : List Stmt) (declared : Locals) :
    ∃ passes ≤ body.length, declared.infer sig body = (pass sig body)^[passes] declared ∧
      (declared.infer sig body).pass sig body = declared.infer sig body ∧
      Learnt sig body declared (declared.infer sig body) := by
  obtain ⟨passes, hpasses, hinfer⟩ := settle_fixed (body.length + 1)
    (.declared : Learnt sig body declared declared) (by omega)
  exact ⟨passes, Nat.le_of_lt_succ hpasses, hinfer⟩

/-- The locals that get types are those that can have one. -/
theorem mem_infer_iff : name ∈ declared.infer sig body ↔
    Typable sig body declared (declared.infer sig body) name := by
  obtain ⟨_, _, _, hfixed, hlearnt⟩ := infer_fixed sig body declared
  have hclosed : ∀ stmt ∈ body, ∀ name ty,
      stmt.typing? sig (declared.infer sig body) = some (name, ty) →
        name ∈ declared.infer sig body := by
    intro stmt hstmt name ty htyping
    rw [← (eq_of_size_pass (congrArg Std.TreeMap.size hfixed)).2 stmt hstmt, learn, htyping,
      Std.TreeMap.mem_insertIfNew]
    exact .inl Std.ReflCmp.compare_self
  refine ⟨hlearnt.typable (.refl _), fun h => ?_⟩
  induction h with
  | declared hname => exact hlearnt.within.mem hname
  | entry hstmt hty => exact hclosed _ hstmt _ _ (Option.map_eq_some_iff.mpr ⟨_, hty, rfl⟩)
  | value hstmt hpart _ hty =>
    exact hclosed _ hstmt _ _ (Option.map_eq_some_iff.mpr ⟨_, Within.ty?_eq hpart hty, rfl⟩)

end Locals

/-! ## Programs -/

def MethodDecl.sigIn (decl : MethodDecl) (owner : String) : MethodSig :=
  { owner, result := decl.result, name := decl.name, params := decl.params }

/-- A method uses a local that cannot have a type in an assignment, a call or a return statement. -/
def MethodDecl.UsesUntyped (decl : MethodDecl) (owner : String) : Prop :=
  ∃ body, Scene.readBody decl.body = .ok body ∧ ∃ stmt ∈ body, ∃ name ∈ stmt.uses,
    ¬ Typable (decl.sigIn owner) body decl.locals (decl.locals.infer (decl.sigIn owner) body) name

/-- A traversal ends well if all its steps do, and otherwise with an error of one of them. -/
theorem mapM_cases {α β ε : Type} (step : α → Except ε β) (elements : List α) :
    ((∃ results, elements.mapM step = .ok results) ∧
      ∀ e ∈ elements, ∃ res, step e = .ok res) ∨
    ∃ e ∈ elements, ∃ error, step e = .error error ∧
      elements.mapM step = .error error := by
  induction elements with
  | nil => exact .inl ⟨⟨[], rfl⟩, nofun⟩
  | cons first rest ih =>
    rw [List.mapM_cons]
    cases hfirst : step first with
    | error error => exact .inr ⟨first, List.mem_cons_self, error, hfirst, rfl⟩
    | ok res =>
      rcases ih with ⟨⟨results, hrest⟩, hall⟩ | ⟨e, helement, error, herror, hrest⟩
      · rw [hrest]
        exact .inl ⟨⟨_, rfl⟩, List.forall_mem_cons.mpr ⟨⟨res, hfirst⟩, hall⟩⟩
      · rw [hrest]
        exact .inr ⟨e, List.mem_cons_of_mem _ helement, error, herror, rfl⟩

namespace Scene

variable {owner : ClassDecl} {decl : MethodDecl} {program : Program} {body : List Stmt}

theorem unknownVar?_eq_none_iff {locals : Locals} :
    unknownVar? body locals = none ↔ ∀ stmt ∈ body, ∀ name ∈ stmt.uses, name ∈ locals := by
  simp only [unknownVar?, List.find?_eq_none, List.mem_flatMap, Bool.not_eq_true',
    forall_exists_index, and_imp, Bool.not_eq_false, ← Std.TreeMap.contains_iff_mem]
  exact ⟨fun h stmt hstmt name hname => h name stmt hstmt hname,
    fun h name stmt hstmt hname => h stmt hstmt name hname⟩

/-- A method whose statements parse is refused just if it uses a local that cannot have a type. -/
theorem readMethod_cases (hparse : ∀ text ∈ decl.body, ∃ stmt, Stmt.parse text = .ok stmt) :
    (¬ decl.UsesUntyped owner.name ∧ ∃ m, readMethod owner decl = .ok m) ∨
    (decl.UsesUntyped owner.name ∧
      ∃ name m, readMethod owner decl = .error (.unknownLocal name m)) := by
  have hread : ∃ body, readBody decl.body = .ok body := by
    rcases mapM_cases _ decl.body with ⟨hbody, _⟩ | ⟨text, htext, error, herror, _⟩
    · exact hbody
    · obtain ⟨stmt, hstmt⟩ := hparse text htext
      rw [hstmt] at herror
      cases herror
  obtain ⟨body, hbody⟩ := hread
  have huses : ¬ decl.UsesUntyped owner.name ↔
      unknownVar? body (decl.locals.infer (decl.sigIn owner.name) body) = none := by
    rw [unknownVar?_eq_none_iff]
    simp only [MethodDecl.UsesUntyped, hbody, Except.ok.injEq, ← Locals.mem_infer_iff]
    grind
  cases hunknown : unknownVar? body (decl.locals.infer (decl.sigIn owner.name) body) with
  | none =>
    refine .inl ⟨huses.mpr hunknown, ?_⟩
    rw [MethodDecl.sigIn] at hunknown
    simp only [readMethod, hbody, Except.bind, bind, hunknown]
    exact ⟨_, rfl⟩
  | some name =>
    refine .inr ⟨by_contra fun h => ?_, name, (decl.sigIn owner.name).text, ?_⟩
    · rw [huses.mp h] at hunknown
      cases hunknown
    · rw [MethodDecl.sigIn] at hunknown
      simp only [readMethod, hbody, Except.bind, bind, hunknown]
      rfl

/-- Classes with new names are read if all their methods are, and otherwise refused as one of these
is. -/
theorem foldlM_addClass_cases {classes : List ClassDecl} (scene : Scene)
    (hnodup : ((scene.classes ++ classes).map ClassDecl.name).Nodup) :
    ((∃ new, classes.foldlM addClass scene = .ok new) ∧
      ∀ owner ∈ classes, ∀ decl ∈ owner.methods, ∃ m, readMethod owner decl = .ok m) ∨
    ∃ owner ∈ classes, ∃ decl ∈ owner.methods, ∃ error, readMethod owner decl = .error error ∧
      classes.foldlM addClass scene = .error error := by
  induction classes generalizing scene with
  | nil => exact .inl ⟨⟨scene, rfl⟩, nofun⟩
  | cons owner rest ih =>
    have hnew : (scene.classes.any fun known => known.name = owner.name) = false := by
      rw [List.any_eq_false]
      intro known hknown hname
      rw [List.map_append, List.nodup_append] at hnodup
      exact hnodup.2.2 known.name (List.mem_map_of_mem hknown) owner.name List.mem_cons_self
        (of_decide_eq_true hname)
    rw [List.foldlM_cons]
    rcases mapM_cases (readMethod owner) owner.methods with
      ⟨⟨methods, hmethods⟩, hread⟩ | ⟨decl, hdecl, error, herror, hmethods⟩
    · rw [addClass_eq hnew hmethods]
      have hnodup : (((scene.classes ++ [owner]) ++ rest).map ClassDecl.name).Nodup := by
        rwa [List.append_assoc]
      rcases ih ⟨scene.classes ++ [owner], scene.methods ++ methods.toArray⟩ hnodup with
        ⟨hrest, hall⟩ | ⟨other, hother, herror⟩
      · exact .inl ⟨hrest, List.forall_mem_cons.mpr ⟨hread, hall⟩⟩
      · exact .inr ⟨other, List.mem_cons_of_mem _ hother, herror⟩
    · refine .inr ⟨owner, List.mem_cons_self, decl, hdecl, error, herror, ?_⟩
      rw [addClass, if_neg (Bool.eq_false_iff.mp hnew), hmethods]
      rfl

/-- A program with distinct class names whose statements parse is refused just if a method uses a
local that cannot have a type. -/
theorem ofProgram_cases (hnames : (program.classes.map ClassDecl.name).Nodup)
    (hparse : ∀ owner ∈ program.classes, ∀ decl ∈ owner.methods, ∀ text ∈ decl.body,
      ∃ stmt, Stmt.parse text = .ok stmt) :
    ((∀ owner ∈ program.classes, ∀ decl ∈ owner.methods, ¬ decl.UsesUntyped owner.name) ∧
      ∃ scene, ofProgram program = .ok scene) ∨
    ((∃ owner ∈ program.classes, ∃ decl ∈ owner.methods, decl.UsesUntyped owner.name) ∧
      ∃ name m, ofProgram program = .error (.unknownLocal name m)) := by
  rcases foldlM_addClass_cases {} hnames with
    ⟨hscene, hread⟩ | ⟨owner, howner, decl, hdecl, error, herror, hprogram⟩
  · refine .inl ⟨fun owner howner decl hdecl => ?_, hscene⟩
    rcases readMethod_cases (hparse owner howner decl hdecl) with ⟨hnone, _⟩ | ⟨_, _, _, herror⟩
    · exact hnone
    · obtain ⟨m, hmethod⟩ := hread owner howner decl hdecl
      rw [hmethod] at herror
      cases herror
  · rcases readMethod_cases (hparse owner howner decl hdecl) with
      ⟨_, m, hmethod⟩ | ⟨huses, name, m, hmethod⟩
    · rw [hmethod] at herror
      cases herror
    · obtain rfl := Except.error.inj (herror.symm.trans hmethod)
      exact .inr ⟨⟨owner, howner, decl, hdecl, huses⟩, name, m, hprogram⟩

end Scene

/-! ## The inference and what it decides -/

namespace Locals

/-- A program of two copies: neither local has a type to take from the other. -/
def circular : Program where
  classes := [{ name := "app.Loop", methods := [{ name := "run", body := ["a = b", "b = a"] }] }]

/-- The inference passes over a body until nothing is added, after as many passes as there are
statements at most. It types exactly the locals that can have a type, keeps the declared types, and
takes every other type from a definition. A program with distinct class names whose statements parse
is refused just if it uses a local that cannot have a type. -/
theorem inference_decides :
    (∀ (sig : MethodSig) (body : List Stmt) (declared : Locals),
      (∃ passes ≤ body.length,
        declared.infer sig body = (pass sig body)^[passes] declared ∧
          (declared.infer sig body).pass sig body = declared.infer sig body) ∧
      (∀ name, name ∈ declared.infer sig body ↔
        Typable sig body declared (declared.infer sig body) name) ∧
      (∀ (name : String) (ty : Ty), declared[name]? = some ty →
        (declared.infer sig body)[name]? = some ty) ∧
      ∀ (name : String) (ty : Ty), (declared.infer sig body)[name]? = some ty → name ∉ declared →
        ∃ stmt ∈ body, stmt.typing? sig (declared.infer sig body) = some (name, ty)) ∧
    ∀ program : Program, (program.classes.map ClassDecl.name).Nodup →
      (∀ owner ∈ program.classes, ∀ decl ∈ owner.methods, ∀ text ∈ decl.body,
        ∃ stmt, Stmt.parse text = .ok stmt) →
      ((∃ name m, Scene.ofProgram program = .error (.unknownLocal name m)) ↔
        ∃ owner ∈ program.classes, ∃ decl ∈ owner.methods, decl.UsesUntyped owner.name) ∧
      ((∃ scene, Scene.ofProgram program = .ok scene) ↔
        ∀ owner ∈ program.classes, ∀ decl ∈ owner.methods, ¬ decl.UsesUntyped owner.name) := by
  refine ⟨fun sig body declared => ?_, fun program hnames hparse => ?_⟩
  · obtain ⟨passes, hpasses, heq, hfixed, hlearnt⟩ := infer_fixed sig body declared
    refine ⟨⟨passes, hpasses, heq, hfixed⟩, fun _ => mem_infer_iff, hlearnt.within, ?_⟩
    intro name ty hname hnew
    refine (hlearnt.defined hname).resolve_left fun hdeclared => hnew ?_
    exact mem_iff_getElem?.mpr ⟨ty, hdeclared⟩
  · rcases Scene.ofProgram_cases hnames hparse with
      ⟨hnone, scene, hscene⟩ | ⟨huses, name, m, herror⟩
    · refine ⟨iff_of_false ?_ ?_, iff_of_true ⟨scene, hscene⟩ hnone⟩
      · rintro ⟨name, m, herror⟩
        rw [hscene] at herror
        cases herror
      · rintro ⟨owner, howner, decl, hdecl, huses⟩
        exact hnone owner howner decl hdecl huses
    · refine ⟨iff_of_true ⟨name, m, herror⟩ huses, iff_of_false ?_ ?_⟩
      · rintro ⟨scene, hscene⟩
        rw [herror] at hscene
        cases hscene
      · obtain ⟨owner, howner, decl, hdecl, huses⟩ := huses
        exact fun hnone => hnone owner howner decl hdecl huses

theorem inference_decides_circular :
    ∃ name m, Scene.ofProgram circular = .error (.unknownLocal name m) := by
  have hfirst : Stmt.parse "a = b" = .ok (.assign (.var "a") (.var "b")) := rfl
  have hsecond : Stmt.parse "b = a" = .ok (.assign (.var "b") (.var "a")) := rfl
  have hparse : ∀ owner ∈ circular.classes, ∀ decl ∈ owner.methods, ∀ text ∈ decl.body,
      ∃ stmt, Stmt.parse text = .ok stmt := by
    simp [circular, hfirst, hsecond]
  refine ((inference_decides.2 circular (by decide) hparse).1).mpr ?_
  refine ⟨_, List.mem_cons_self, _, List.mem_cons_self,
    [.assign (.var "a") (.var "b"), .assign (.var "b") (.var "a")], ?_,
    _, List.mem_cons_self, "a", List.mem_cons_self, ?_⟩
  · simp only [Scene.readBody, List.mapM_cons, List.mapM_nil, hfirst, hsecond]
    rfl
  · exact fun htypable => absurd (((inference_decides.1 _ _ _).2.1 "a").mpr htypable) (by decide)

end Locals

end WidgetFlow
