import WidgetFlow.Program.Scene

/-!
# Programs that have been read

The statements of a scene may be of any form, but those that have been read assign only to locals,
fields and elements of arrays (`Scene.assignable_ofProgram`).
-/

namespace WidgetFlow

section Except

variable {α β ε : Type}

/-- A reading that goes on ends well if both of its parts do. -/
theorem except_bind_eq_ok {part : Except ε α} {next : α → Except ε β} {res : β} :
    part >>= next = .ok res ↔ ∃ found, part = .ok found ∧ next found = .ok res := by
  cases part <;> simp [bind, Except.bind]

/-- What a traversal gives comes from an element. -/
theorem exists_of_mapM_ok {step : α → Except ε β} {elements : List α} {results : List β}
    (h : elements.mapM step = .ok results) {res : β} (hresult : res ∈ results) :
    ∃ e ∈ elements, step e = .ok res := by
  induction elements generalizing results with
  | nil =>
    obtain rfl := Except.ok.inj h
    simp at hresult
  | cons first rest ih =>
    rw [List.mapM_cons] at h
    obtain ⟨found, hfirst, h⟩ := except_bind_eq_ok.mp h
    obtain ⟨more, hrest, h⟩ := except_bind_eq_ok.mp h
    obtain rfl := Except.ok.inj h
    rcases List.mem_cons.mp hresult with rfl | hresult
    · exact ⟨first, List.mem_cons_self, hfirst⟩
    · obtain ⟨e, helement, hstep⟩ := ih hrest hresult
      exact ⟨e, List.mem_cons_of_mem _ helement, hstep⟩

end Except

namespace Stmt

def Assignable : Stmt → Prop
  | .assign dst _ => isTarget dst
  | _ => True

variable {stmt : Stmt} {text : List Char}

theorem assignable_identityText? (h : identityText? text = some (.ok stmt)) : stmt.Assignable := by
  obtain ⟨_, _, h⟩ := Option.bind_eq_some_iff.mp h
  obtain ⟨_, _, h⟩ := Option.bind_eq_some_iff.mp h
  obtain ⟨_, _, h⟩ := Option.bind_eq_some_iff.mp h
  obtain ⟨entry, _, h⟩ := Option.bind_eq_some_iff.mp h
  cases entry with
  | error fault => simp [Except.map] at h
  | ok entry =>
    obtain rfl : _ = stmt := by simpa [Except.map] using h
    trivial

theorem assignable_readAssignment {dst v : List Char}
    (h : readAssignment dst v = .ok stmt) : stmt.Assignable := by
  obtain ⟨found, _, h⟩ := except_bind_eq_ok.mp h
  split at h
  next htarget =>
    obtain ⟨_, _, h⟩ := except_bind_eq_ok.mp h
    obtain rfl := Except.ok.inj h
    exact htarget
  next => cases h

theorem assignable_readCallOrOther (h : readCallOrOther text = .ok stmt) : stmt.Assignable := by
  unfold readCallOrOther at h
  split at h
  next =>
    obtain ⟨found, _, h⟩ := except_bind_eq_ok.mp h
    split at h <;> obtain rfl := Except.ok.inj h <;> trivial
  next =>
    obtain rfl := Except.ok.inj h
    trivial

theorem assignable_read (h : read text = .ok stmt) : stmt.Assignable := by
  unfold read at h
  split at h
  next hidentity => exact assignable_identityText? (hidentity.trans (congrArg some h))
  next =>
    split at h
    · obtain rfl := Except.ok.inj h
      trivial
    split at h
    next v _ =>
      cases hparse : parseValue v with
      | error fault => simp [hparse, Except.map] at h
      | ok found =>
        obtain rfl : _ = stmt := by simpa [hparse, Except.map] using h
        trivial
    next =>
      split at h
      next => exact assignable_readAssignment h
      next => exact assignable_readCallOrOther h

theorem assignable_parse {src : String} (h : parse src = .ok stmt) : stmt.Assignable := by
  unfold parse at h
  split at h
  next hread =>
    obtain rfl := Except.ok.inj h
    exact assignable_read hread
  next => cases h

end Stmt

namespace Scene

def Assignable (scene : Scene) : Prop :=
  ∀ m ∈ scene.methods, ∀ stmt ∈ m.body, stmt.Assignable

variable {scene : Scene}

theorem Assignable.of_mem_stmts (h : scene.Assignable) {m : MethodId} {site : StmtId}
    {stmt : Stmt} (hstmt : (site, stmt) ∈ scene.stmts m) : stmt.Assignable := by
  obtain ⟨index, hindex, hentry⟩ := List.mem_mapIdx.mp hstmt
  obtain ⟨_, rfl⟩ := Prod.mk.inj hentry
  by_cases hmethod : m < scene.methods.size
  · refine h (scene.method m) ?_ _ (List.getElem_mem hindex)
    simp [Scene.method, hmethod]
  · -- a method that is not there has no statements
    have hbody : (scene.method m).body = [] := by
      unfold Scene.method
      rw [Array.getD_eq_getD_getElem?, Array.getElem?_eq_none (Nat.not_lt.mp hmethod)]
      rfl
    simp [hbody] at hindex

theorem assignable_readBody {src : List String} {body : List Stmt}
    (h : readBody src = .ok body) : ∀ stmt ∈ body, stmt.Assignable := by
  intro stmt hstmt
  obtain ⟨text, _, hread⟩ := exists_of_mapM_ok h hstmt
  split at hread
  next hparse =>
    obtain rfl := Except.ok.inj hread
    exact Stmt.assignable_parse hparse
  next => cases hread

theorem assignable_readMethod {owner : ClassDecl} {decl : MethodDecl} {m : Method}
    (h : readMethod owner decl = .ok m) : ∀ stmt ∈ m.body, stmt.Assignable := by
  obtain ⟨body, hbody, h⟩ := except_bind_eq_ok.mp h
  extract_lets locals at h
  split at h
  next => cases h
  next =>
    obtain rfl := Except.ok.inj h
    exact assignable_readBody hbody

theorem addClass_eq {decl : ClassDecl} {methods : List Method}
    (hnew : (scene.classes.any fun known => known.name = decl.name) = false)
    (hmethods : decl.methods.mapM (readMethod decl) = .ok methods) :
    scene.addClass decl = .ok
      { classes := scene.classes ++ [decl], methods := scene.methods ++ methods.toArray } := by
  rw [addClass, if_neg (Bool.eq_false_iff.mp hnew)]
  exact except_bind_eq_ok.mpr ⟨methods, hmethods, rfl⟩

theorem Assignable.addClass {new : Scene} {decl : ClassDecl} (hscene : scene.Assignable)
    (h : scene.addClass decl = .ok new) : new.Assignable := by
  unfold Scene.addClass at h
  split at h
  next => cases h
  next =>
    obtain ⟨methods, hmethods, h⟩ := except_bind_eq_ok.mp h
    obtain rfl := Except.ok.inj h
    intro m hmethod
    rcases Array.mem_append.mp hmethod with hold | hnew
    · exact hscene m hold
    · obtain ⟨declared, _, hread⟩ := exists_of_mapM_ok hmethods (List.mem_toArray.mp hnew)
      exact assignable_readMethod hread

theorem assignable_ofProgram {program : Program} (h : ofProgram program = .ok scene) :
    scene.Assignable := by
  have hfold : ∀ (classes : List ClassDecl) (s : Scene), s.Assignable →
      classes.foldlM Scene.addClass s = .ok scene → scene.Assignable := by
    intro classes
    induction classes with
    | nil =>
      rintro s hs ⟨⟩
      exact hs
    | cons decl rest ih =>
      intro s hs hread
      rw [List.foldlM_cons] at hread
      obtain ⟨middle, hadd, hread⟩ := except_bind_eq_ok.mp hread
      exact ih middle (hs.addClass hadd) hread
  exact hfold program.classes {} (fun m hmethod => by simp at hmethod) h

end Scene

end WidgetFlow
