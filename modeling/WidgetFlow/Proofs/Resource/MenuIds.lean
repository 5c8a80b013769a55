import WidgetFlow.Proofs.Resource.Entering
import WidgetFlow.Proofs.Resource.Inclusions

/-!
# Identifiers in menus

Menus may refer to identifiers that nobody has declared, and such a reference gets a new one. New
identifiers are remembered by bare names: inside a file for every reference, and from file to file
among the identifiers of the side that the files belong to. `MenuFile.logged` notes which reference
gets which identifier, and `Supplied` is what the notes of one file satisfy.

So a text gets the same identifier all over a file. It gets the same one in all files if it refers
to an identifier of the side of the files and no other unknown reference has the same bare name.
Identifiers that are invented for different bare names are different (`menu_ids_consistent`).
References to the platform in files of the application get new identifiers in every file, and share
them with other references to the same bare name (`menu_ids_inconsistent`).
-/

namespace WidgetFlow

/-! ## Reading with notes -/

namespace Element

theorem mem_walkAll {elements : List Element} {inner : Element} :
    inner ∈ walkAll elements ↔ ∃ e ∈ elements, inner ∈ e.walk := by
  induction elements with
  | nil => simp [walkAll]
  | cons first rest ih => simp [walkAll, ih]

end Element

namespace MenuFile

open Markup

variable {σ : Type} {resolve : String → StateM σ ResId} {origin : String}

def logged (resolve : String → StateM σ ResId) (reference : String) :
    StateM (σ × List (String × ResId)) ResId :=
  fun (st, log) =>
    let (id, next) := resolve reference st
    (id, next, (reference, id) :: log)

/-- If readings that resolve references in two ways begin the same elements, they have the same result,
and what every element and its end keep holds in the end. -/
theorem readFrom_simulates {τ : Type} {resolve' : String → StateM τ ResId}
    (inv : Element.Assembly → σ → τ → Prop)
    (henter : ∀ assembly st st' tag attrs empty, inv assembly st st' →
      ∃ found next next', (element resolve origin tag attrs assembly.stack).run st = (found, next) ∧
        (element resolve' origin tag attrs assembly.stack).run st' = (found, next') ∧
        inv (assembly.enter found empty) next next')
    (hpop : ∀ assembly st st', inv assembly st st' → inv assembly.pop st st')
    {assembly : Element.Assembly} {st : σ} {st' : τ} (events : List Event)
    (h : inv assembly st st') :
    ∃ last res next next', (readFrom resolve origin assembly events).run st = (res, next) ∧
      (readFrom resolve' origin assembly events).run st' = (res, next') ∧
      inv last next next' ∧ ∀ root, res = .ok root → last.root = root := by
  induction events generalizing assembly st st' with
  | nil => exact ⟨assembly, _, _, _, rfl, rfl, h, fun root hroot => Except.ok.inj hroot⟩
  | cons event rest ih =>
    cases event with
    | start tag attrs empty =>
      obtain ⟨found, next, next', hrun, hrun', hnext⟩ := henter _ _ _ tag attrs empty h
      rw [readFrom, readFrom, StateT.run_bind, StateT.run_bind, hrun, hrun']
      exact ih hnext
    | stop _ => exact ih (hpop assembly st st' h)
    | text _ => exact ih h
    | fault => exact ⟨assembly, _, _, _, rfl, rfl, h, nofun⟩

end MenuFile

/-! ## Elements and notes -/

namespace Element

variable {log ns : List (String × ResId)} {e : Element}

/-- The identifiers of a tree are answers to references, and an element that still has its attributes
has the answer to its own. -/
def Answered (log : List (String × ResId)) (e : Element) : Prop :=
  ∀ inner ∈ e.walk,
    (∀ reference, inner.attrs.android? "id" = some reference →
      ∃ id, inner.id = some id ∧ (reference, id) ∈ log) ∧
    ∀ id, inner.id = some id → ∃ reference, (reference, id) ∈ log

theorem Answered.mono (h : e.Answered log) (hlog : log ⊆ ns) : e.Answered ns := by
  intro inner hinner
  obtain ⟨hown, hid⟩ := h inner hinner
  refine ⟨fun reference hreference => ?_, fun id hinner => ?_⟩
  · obtain ⟨id, hinner, hmem⟩ := hown reference hreference
    exact ⟨id, hinner, hlog hmem⟩
  · obtain ⟨reference, hmem⟩ := hid id hinner
    exact ⟨reference, hlog hmem⟩

theorem answered_leaf (hchildren : e.children = [])
    (hown : ∀ reference, e.attrs.android? "id" = some reference →
      ∃ id, e.id = some id ∧ (reference, id) ∈ log)
    (hid : ∀ id, e.id = some id → ∃ reference, (reference, id) ∈ log) :
    e.Answered log := by
  intro inner hinner
  rw [walk_eq, hchildren, walkAll, List.mem_singleton] at hinner
  exact hinner ▸ ⟨hown, hid⟩

theorem Answered.adopt {c : Element} (h : e.Answered log) (hchild : c.Answered log) :
    Answered log { e with children := e.children ++ [c] } := by
  intro inner hinner
  have hself := h e (by rw [walk_eq]; exact List.mem_cons_self)
  rw [walk_eq, List.mem_cons] at hinner
  rcases hinner with rfl | hbelow
  · exact hself
  · obtain ⟨top, htop, hbelow⟩ := mem_walkAll.mp hbelow
    rcases List.mem_append.mp htop with hold | hnew
    · refine h inner ?_
      rw [walk_eq]
      exact List.mem_cons_of_mem _ (mem_walkAll.mpr ⟨top, hold, hbelow⟩)
    · rw [List.mem_singleton.mp hnew] at hbelow
      exact hchild inner hbelow

namespace Assembly

/-- The trees in the making have answers as identifiers. -/
structure Answered (log : List (String × ResId)) (assembly : Assembly) : Prop where
  stack : ∀ e, some e ∈ assembly.stack → e.Answered log
  root : ∀ e, assembly.root = some e → e.Answered log

theorem Answered.mono {assembly : Assembly} (h : assembly.Answered log) (hlog : log ⊆ ns) :
    assembly.Answered ns :=
  ⟨fun e helement => (h.stack e helement).mono hlog,
    fun e helement => (h.root e helement).mono hlog⟩

theorem Answered.pop {assembly : Assembly} (h : assembly.Answered log) :
    assembly.pop.Answered log := by
  obtain ⟨stack, root⟩ := assembly
  obtain ⟨hstack, hroot⟩ := h
  -- the cases are those of the two innermost elements
  rcases stack with _ | ⟨_ | done, _ | ⟨_ | p, rest⟩⟩
  · exact ⟨hstack, hroot⟩
  · exact ⟨nofun, hroot⟩
  · exact ⟨fun e hmem => hstack e (List.mem_cons_of_mem _ hmem), hroot⟩
  · exact ⟨fun e hmem => hstack e (List.mem_cons_of_mem _ hmem), hroot⟩
  · refine ⟨nofun, fun e helement => ?_⟩
    cases helement
    exact hstack done List.mem_cons_self
  · exact ⟨fun e hmem => hstack e (List.mem_cons_of_mem _ hmem), hroot⟩
  · refine ⟨fun e helement => ?_, hroot⟩
    rcases List.mem_cons.mp helement with heq | hmem
    · cases heq
      refine (hstack p ?_).adopt (hstack done List.mem_cons_self)
      exact List.mem_cons_of_mem _ List.mem_cons_self
    · exact hstack e (List.mem_cons_of_mem _ (List.mem_cons_of_mem _ hmem))

theorem Answered.enter {assembly : Assembly} {found : Option Element} (h : assembly.Answered log)
    (hfound : ∀ e, found = some e → e.Answered log) (empty : Bool) :
    (assembly.enter found empty).Answered log := by
  have hpush : (assembly.push found).Answered log := by
    refine ⟨fun e helement => ?_, h.root⟩
    rcases List.mem_cons.mp helement with heq | hmem
    · exact hfound e heq.symm
    · exact h.stack e hmem
  unfold Assembly.enter
  cases empty with
  | true => exact hpush.pop
  | false => exact hpush

end Assembly

end Element

/-! ## The identifiers of one file -/

namespace Reference

open Text

/-- A text refers to an identifier of the side of the file, whatever is declared. -/
def IsOwnId (system : Bool) (src name : String) : Prop :=
  ∀ app sys, Reference.read app sys src system =
    .named (if system then sys else app) (some .id) name

/-- A text names a resource of one kind on one side, or it has the same identifier always. -/
theorem read_cases (system : Bool) (src : String) :
    (∃ (side : Bool) (kind : Option ResKind) (name : String), ∀ app sys,
        Reference.read app sys src system = named (if side then sys else app) kind name) ∨
      ∃ v, ∀ app sys, (Reference.read app sys src system).value = v := by
  simp only [Reference.read]
  -- the cases are the forms of references, in the order in which they are tried
  cases afterAny? ["@id/android:", "@+id/android:", "@+android:id/"] src.toList with
  | some name => exact .inl ⟨true, some .id, name, fun _ _ => rfl⟩
  | none =>
  cases afterAny? ["@+id/", "@id/"] src.toList with
  | some name => exact .inl ⟨system, some .id, name, fun _ _ => rfl⟩
  | none =>
  cases afterAny? ["@android:id/"] src.toList with
  | some name => exact .inl ⟨true, some .id, name, fun _ _ => rfl⟩
  | none =>
  cases afterAny? ["@android:attr/"] src.toList with
  | some name => exact .inl ⟨true, some .attr, name, fun _ _ => rfl⟩
  | none =>
  cases platformTyped? src.toList with
  | some typed => exact .inl ⟨true, ResKind.parse? typed.1, typed.2, fun _ _ => rfl⟩
  | none =>
  cases platformHex? src.toList with
  | some digits => exact .inr ⟨hex? digits, fun _ _ => rfl⟩
  | none =>
  cases (after? "@" src.toList).bind typed? with
  | some typed => exact .inl ⟨system, ResKind.parse? typed.1, typed.2, fun _ _ => rfl⟩
  | none =>
  cases hex? src.toList with
  | none => exact .inr ⟨none, fun _ _ => rfl⟩
  | some v =>
    by_cases hvalue : 0 < v
    · exact .inr ⟨some v, fun _ _ => by simp only [hvalue, if_true]⟩
    · exact .inr ⟨none, fun _ _ => by simp only [hvalue, if_false]⟩

end Reference

namespace ResourceTable

variable {table new : ResourceTable} {system : Bool} {file : ResourceFile} {src : String}
variable {fresh : FreshIds} {log : List (String × ResId)}

/-- What a text refers to in a file of one side. -/
def refer (table : ResourceTable) (system : Bool) (src : String) : Reference :=
  Reference.read table.app table.sys src system

/-- The name by which the identifier of an unknown reference is remembered. -/
def bareName (table : ResourceTable) (system : Bool) (src : String) : String :=
  (table.refer system src).name.getD src

/-- What a text refers to is not declared. -/
def Lacks (table : ResourceTable) (system : Bool) (src : String) : Prop :=
  (table.refer system src).value = none

/-- The references of a menu file with the identifiers that they get, the last first. -/
def occurrences (table : ResourceTable) (system : Bool) (file : ResourceFile) :
    List (String × ResId) :=
  ((MenuFile.read (MenuFile.logged (table.resolveFresh system)) file.path
    (Markup.events file.contents)).run ({ next := table.nextFresh }, [])).2.2

/-- A reference gets the identifier that is declared, or else the fresh one of its bare name. -/
def Answers (table : ResourceTable) (system : Bool) (fresh : FreshIds) (src : String)
    (id : ResId) : Prop :=
  (table.refer system src).value = some id ∨
    table.Lacks system src ∧ fresh.names.lookup (table.bareName system src) = some id

def FreshIds.supply (fresh : FreshIds) (name : String) : FreshIds where
  names := (name, fresh.next) :: fresh.names
  next := fresh.next - 1

/-- A reference that has an identifier gets it, and any other gets the next fresh one. -/
theorem resolveFresh_cases (table : ResourceTable) (system : Bool) (src : String)
    (fresh : FreshIds) :
    (∃ id, (table.resolveFresh system src).run fresh = (id, fresh) ∧
        table.Answers system fresh src id) ∨
      table.Lacks system src ∧ fresh.names.lookup (table.bareName system src) = none ∧
        (table.resolveFresh system src).run fresh =
          (fresh.next, fresh.supply (table.bareName system src)) := by
  simp only [Answers, Lacks, bareName, refer, FreshIds.supply]
  cases hvalue : (Reference.read table.app table.sys src system).value with
  | some v => exact .inl ⟨v, by simp [resolveFresh, StateT.run, hvalue], .inl rfl⟩
  | none =>
    cases hname : fresh.names.lookup
        ((Reference.read table.app table.sys src system).name.getD src) with
    | some id => exact .inl ⟨id, by simp [resolveFresh, StateT.run, hvalue, hname], .inr ⟨rfl, rfl⟩⟩
    | none => exact .inr ⟨rfl, rfl, by simp [resolveFresh, StateT.run, hvalue, hname]⟩

/-- What the fresh identifiers of a menu file and the answers to its references satisfy. -/
structure Supplied (table : ResourceTable) (system : Bool) (fresh : FreshIds)
    (log : List (String × ResId)) : Prop where
  answers : ∀ {src id}, (src, id) ∈ log → table.Answers system fresh src id
  /-- Only unknown references need fresh identifiers. -/
  needed : ∀ {name id}, fresh.names.lookup name = some id →
    ∃ src, (src, id) ∈ log ∧ table.Lacks system src ∧ table.bareName system src = name
  distinct : fresh.names.Pairwise fun first second => first.1 ≠ second.1
  /-- Fresh identifiers count down. -/
  numbered : ∀ {index name id}, fresh.names.reverse[index]? = some (name, id) →
    id = table.nextFresh - Int32.ofNat index
  next_eq : fresh.next = table.nextFresh - Int32.ofNat fresh.names.length
  length_le : fresh.names.length ≤ log.length

theorem supplied_start (table : ResourceTable) (system : Bool) :
    Supplied table system { next := table.nextFresh } [] where
  answers := nofun
  needed := nofun
  distinct := List.Pairwise.nil
  numbered := nofun
  next_eq := by simp
  length_le := Nat.le_refl _

theorem lookup_supply {name other : String} :
    (fresh.supply name).names.lookup other =
      if other = name then some fresh.next else fresh.names.lookup other := by
  rw [FreshIds.supply, List.lookup_cons]
  by_cases hother : other = name
  · rw [if_pos hother, beq_iff_eq.mpr hother]
  · rw [if_neg hother, beq_eq_false_iff_ne.mpr hother]

theorem Supplied.resolve (h : Supplied table system fresh log) (src : String) :
    Supplied table system ((table.resolveFresh system src).run fresh).2
      ((src, ((table.resolveFresh system src).run fresh).1) :: log) := by
  have hlater : ∀ {name id entry}, fresh.names.lookup name = some id →
      ∃ other, (other, id) ∈ entry :: log ∧ table.Lacks system other ∧
        table.bareName system other = name := by
    intro name id entry hname
    obtain ⟨other, hmem, hother⟩ := h.needed hname
    exact ⟨other, List.mem_cons_of_mem _ hmem, hother⟩
  rcases resolveFresh_cases table system src fresh with ⟨id, hrun, hanswers⟩ | ⟨hlacks, hname, hrun⟩
  · rw [hrun]
    refine { h with
      answers := fun hmem => ?_
      needed := fun hneeded => hlater hneeded
      length_le := Nat.le_succ_of_le h.length_le }
    rcases List.mem_cons.mp hmem with heq | hmem
    · cases heq
      exact hanswers
    · exact h.answers hmem
  · rw [hrun]
    refine ⟨fun {other id} hmem => ?_, fun {name id} hneeded => ?_, ?_,
      fun {index name id} hentry => ?_, ?_, Nat.succ_le_succ h.length_le⟩
    · rcases List.mem_cons.mp hmem with heq | hmem
      · cases heq
        exact .inr ⟨hlacks, by rw [lookup_supply, if_pos rfl]⟩
      · refine (h.answers hmem).imp_right fun ⟨hother, hid⟩ => ⟨hother, ?_⟩
        -- a name that has a fresh identifier is not supplied again
        rw [lookup_supply, if_neg, hid]
        intro heq
        rw [heq, hname] at hid
        cases hid
    · rw [lookup_supply] at hneeded
      split at hneeded
      next heq =>
        cases hneeded
        exact ⟨src, List.mem_cons_self, hlacks, heq.symm⟩
      next => exact hlater hneeded
    · refine List.pairwise_cons.mpr ⟨fun entry hentry => ?_, h.distinct⟩
      simpa using List.lookup_eq_none_iff.mp hname entry hentry
    · rw [FreshIds.supply, List.reverse_cons, List.getElem?_append] at hentry
      split at hentry
      next => exact h.numbered hentry
      next hle =>
        rw [List.getElem?_singleton] at hentry
        split at hentry
        next hindex =>
          cases hentry
          rw [List.length_reverse] at hle hindex
          rw [h.next_eq, Nat.le_antisymm (Nat.le_of_sub_eq_zero hindex) (Nat.not_lt.mp hle)]
        next => cases hentry
    · rw [FreshIds.supply, h.next_eq, List.length_cons]
      exact ResId.sub_ofNat_sub table.nextFresh fresh.names.length 1

/-- The notes of a file answer its references, and the trees in the making have the answers. -/
structure Noted (table : ResourceTable) (system : Bool) (assembly : Element.Assembly)
    (fresh : FreshIds) (st : FreshIds × List (String × ResId)) : Prop where
  fresh_eq : st.1 = fresh
  supplied : Supplied table system fresh st.2
  answered : assembly.Answered st.2

/-- An element begins in the same way with notes as without, and keeps what the notes satisfy. -/
theorem Noted.enter {assembly : Element.Assembly} {st : FreshIds × List (String × ResId)}
    (h : Noted table system assembly fresh st) (origin tag : String) (attrs : Markup.Attributes)
    (empty : Bool) : ∃ found next next',
      (MenuFile.element (table.resolveFresh system) origin tag attrs assembly.stack).run fresh =
        (found, next) ∧
      (MenuFile.element (MenuFile.logged (table.resolveFresh system)) origin tag attrs
        assembly.stack).run st = (found, next') ∧
      Noted table system (assembly.enter found empty) next next' := by
  obtain ⟨fresh, log⟩ := st
  obtain ⟨rfl, hsupplied, hassembly⟩ := h
  unfold MenuFile.element
  cases MenuFile.isLeftOut assembly.stack attrs with
  | true => exact ⟨_, _, _, rfl, rfl, rfl, hsupplied, hassembly.enter (fun _ h => by cases h) empty⟩
  | false =>
    have hattrs : ∀ {reference}, Markup.Attributes.android?
        (if assembly.stack.isEmpty then [] else attrs) "id" = some reference →
          attrs.android? "id" = some reference := by
      cases assembly.stack.isEmpty
      · exact id
      · exact nofun
    unfold MenuFile.resolveId
    cases hid : attrs.android? "id" with
    | none =>
      refine ⟨_, _, _, rfl, rfl, rfl, hsupplied, hassembly.enter (fun e helement => ?_) empty⟩
      cases helement
      refine Element.answered_leaf rfl (fun reference hreference => ?_) fun id hfound => ?_
      · cases hid.symm.trans (hattrs hreference)
      · cases hfound
    | some reference =>
      refine ⟨_, _, _, rfl, rfl, rfl, hsupplied.resolve reference,
        (hassembly.mono (List.subset_cons_self _ _)).enter (fun e helement => ?_) empty⟩
      cases helement
      refine Element.answered_leaf rfl (fun other hother => ⟨_, rfl, ?_⟩) fun id hfound => ?_
      · cases hid.symm.trans (hattrs hother)
        exact List.mem_cons_self
      · cases hfound
        exact ⟨reference, List.mem_cons_self⟩

theorem supplied_occurrences (table : ResourceTable) (system : Bool) (file : ResourceFile) :
    Supplied table system (table.readMenu system file).2 (table.occurrences system file) ∧
      ∀ root, (table.readMenu system file).1 = .ok (some root) →
        root.Answered (table.occurrences system file) := by
  have hs : Noted table system {} { next := table.nextFresh } ({ next := table.nextFresh }, []) :=
    ⟨rfl, supplied_start table system, fun _ hmem => absurd hmem List.not_mem_nil, nofun⟩
  obtain ⟨last, res, next, next', hrun, hrun', ⟨-, hsupplied, hanswered⟩, hlast⟩ :=
    MenuFile.readFrom_simulates (Noted table system)
      (fun _ _ _ tag attrs empty h => h.enter file.path tag attrs empty)
      (fun _ _ _ h => ⟨h.1, h.2, h.3.pop⟩) (Markup.events file.contents) hs
  have hread : table.readMenu system file = (res, next) := hrun
  rw [hread, occurrences, MenuFile.read, hrun']
  exact ⟨hsupplied, fun root hroot => hanswered.root root (hlast _ hroot)⟩

/-! ## The identifiers of some files -/

/-- The references of a menu file that is read, with the identifiers that they get. -/
def MenuRead.occurrences (menu : MenuRead) (system : Bool) : List (String × ResId) :=
  menu.table.occurrences system menu.file

variable {menu first second : MenuRead} {menus rest : List MenuRead} {name : String} {id : ResId}

theorem ReadsMenus.read (h : ReadsMenus system menus table new) (hmenu : menu ∈ menus) :
    menu.table.readMenu system menu.file = (.ok menu.root, menu.fresh) := by
  induction h with
  | nil => cases hmenu
  | cons read _ ih =>
    rcases List.mem_cons.mp hmenu with rfl | hmenu
    · exact read
    · exact ih hmenu

theorem supplied_of_read (h : menu.table.readMenu system menu.file = (.ok menu.root, menu.fresh)) :
    Supplied menu.table system menu.fresh (menu.occurrences system) := by
  have hsupplied := (supplied_occurrences menu.table system menu.file).1
  rwa [h] at hsupplied

/-- A text gets the same identifier all over a file. -/
theorem Supplied.unique {first second : ResId} (h : Supplied table system fresh log)
    (hfirst : (src, first) ∈ log) (hsecond : (src, second) ∈ log) : first = second := by
  rcases h.answers hfirst, h.answers hsecond with ⟨hone | ⟨hone, hname⟩, htwo | ⟨htwo, hother⟩⟩
  · exact Option.some.inj (hone.symm.trans htwo)
  · cases hone.symm.trans htwo
  · cases hone.symm.trans htwo
  · exact Option.some.inj (hname.symm.trans hother)

theorem id?_foldl_insert_names (names : List (String × ResId)) (ids : IdTable)
    (hnames : names.Pairwise fun first second => first.1 ≠ second.1) (name : String) :
    (names.foldl (fun ids entry => ids.insert .id entry.1 entry.2) ids).id? .id name =
      (names.lookup name).or (ids.id? .id name) := by
  induction names generalizing ids with
  | nil => rfl
  | cons entry rest ih =>
    obtain ⟨key, v⟩ := entry
    obtain ⟨hentry, hrest⟩ := List.pairwise_cons.mp hnames
    rw [List.foldl_cons, ih _ hrest, IdTable.id?_insert, List.lookup_cons]
    by_cases hkey : key = name
    · have hnone : rest.lookup name = none :=
        List.lookup_eq_none_iff.mpr fun other hother => by simpa [← hkey] using hentry other hother
      simp [hkey, hnone]
    · have hne : (name == key) = false := beq_eq_false_iff_ne.mpr (Ne.symm hkey)
      simp [hkey, hne]

/-- The identifier of a name after a file: the fresh one of the file if it has got one. -/
theorem id?_after (h : Supplied menu.table system menu.fresh log) (name : String) :
    ((menu.after system).own system).id? .id name =
      (menu.fresh.names.lookup name).or ((menu.table.own system).id? .id name) := by
  have hfresh : ((menu.table.withFresh system menu.fresh).own system).id? .id name =
      (menu.fresh.names.lookup name).or ((menu.table.own system).id? .id name) := by
    rw [withFresh, own_withOwn]
    exact id?_foldl_insert_names _ _ h.distinct name
  rw [← hfresh, MenuRead.after]
  cases menu.root with
  | none => rfl
  | some root => exact id?_register_of_ne nofun

/-! ### References to own identifiers -/

section IsOwnId

variable (hown : Reference.IsOwnId system src name)
include hown

theorem value_refer : (table.refer system src).value = (table.own system).id? .id name := by
  rw [refer, hown]
  rfl

theorem bareName_eq : table.bareName system src = name := by
  rw [bareName, refer, hown]
  rfl

end IsOwnId

/-- All unknown references of some notes to a bare name are to the own identifier of the name. -/
def OnlyOwn (table : ResourceTable) (system : Bool) (log : List (String × ResId))
    (name : String) : Prop :=
  ∀ src id, (src, id) ∈ log → table.Lacks system src →
    table.bareName system src = name → Reference.IsOwnId system src name

theorem Supplied.keeps_declared (h : Supplied menu.table system menu.fresh log)
    (honly : menu.table.OnlyOwn system log name)
    (hid : (menu.table.own system).id? .id name = some id) :
    ((menu.after system).own system).id? .id name = some id := by
  have hnone : menu.fresh.names.lookup name = none := by
    refine Option.eq_none_iff_forall_ne_some.mpr fun other hother => ?_
    obtain ⟨src, hmem, hlacks, hname⟩ := h.needed hother
    have hown := honly src other hmem hlacks hname
    rw [Lacks, value_refer hown, hid] at hlacks
    cases hlacks
  rw [id?_after h, hnone, Option.none_or, hid]

/-- What a reference to an own identifier gets is declared for the files after it. -/
theorem Supplied.declares (h : Supplied menu.table system menu.fresh log)
    (hown : Reference.IsOwnId system src name) (honly : menu.table.OnlyOwn system log name)
    (hmem : (src, id) ∈ log) : ((menu.after system).own system).id? .id name = some id := by
  rcases h.answers hmem with hvalue | ⟨-, hlookup⟩
  · rw [value_refer hown] at hvalue
    exact h.keeps_declared honly hvalue
  · rw [bareName_eq hown] at hlookup
    rw [id?_after h, hlookup, Option.some_or]

/-- A reference is answered by what it refers to at first, if every file keeps that. -/
theorem ReadsMenus.answers_kept (h : ReadsMenus system menus table new)
    (hkeeps : ∀ menu ∈ menus, menu.table.readMenu system menu.file = (.ok menu.root, menu.fresh) →
      (menu.table.refer system src).value = some id →
        ((menu.after system).refer system src).value = some id)
    (hid : (table.refer system src).value = some id) (hmenu : menu ∈ menus) {other : ResId}
    (hmem : (src, other) ∈ menu.occurrences system) : other = id := by
  induction h with
  | nil => cases hmenu
  | cons read _ ih =>
    rcases List.mem_cons.mp hmenu with rfl | hmenu
    · rcases (supplied_of_read read).answers hmem with hvalue | ⟨hlacks, -⟩
      · exact Option.some.inj (hvalue.symm.trans hid)
      · cases hid.symm.trans hlacks
    · exact ih (fun menu hmenu => hkeeps menu (List.mem_cons_of_mem _ hmenu))
        (hkeeps _ List.mem_cons_self read hid) hmenu

/-- A declared own identifier is the answer in all files. -/
theorem ReadsMenus.answers_declared (h : ReadsMenus system menus table new)
    (hown : Reference.IsOwnId system src name)
    (honly : ∀ menu ∈ menus, menu.table.OnlyOwn system (menu.occurrences system) name)
    (hid : (table.own system).id? .id name = some id) (hmenu : menu ∈ menus) {other : ResId}
    (hmem : (src, other) ∈ menu.occurrences system) : other = id := by
  refine h.answers_kept (fun menu hmenu read hvalue => ?_) (by rwa [value_refer hown]) hmenu hmem
  rw [value_refer hown] at hvalue ⊢
  exact (supplied_of_read read).keeps_declared (honly menu hmenu) hvalue

/-- A reference to an own identifier gets the same in all files. -/
theorem ReadsMenus.unique (h : ReadsMenus system menus table new)
    (hown : Reference.IsOwnId system src name)
    (honly : ∀ menu ∈ menus, menu.table.OnlyOwn system (menu.occurrences system) name)
    (hfirst : first ∈ menus) (hsecond : second ∈ menus) {other : ResId}
    (hid : (src, id) ∈ first.occurrences system)
    (hother : (src, other) ∈ second.occurrences system) : id = other := by
  induction h with
  | nil => cases hfirst
  | cons read reads ih =>
    have hsupplied := supplied_of_read read
    have hhere := honly _ List.mem_cons_self
    have hlater := fun menu hmenu => honly menu (List.mem_cons_of_mem _ hmenu)
    rcases List.mem_cons.mp hfirst, List.mem_cons.mp hsecond with
      ⟨rfl | hbefore, rfl | hafter⟩
    · exact hsupplied.unique hid hother
    · exact (reads.answers_declared hown hlater (hsupplied.declares hown hhere hid) hafter
        hother).symm
    · exact reads.answers_declared hown hlater (hsupplied.declares hown hhere hother) hbefore hid
    · exact ih hlater hbefore hafter

/-! ### Invented identifiers -/

theorem Supplied.lookup (h : Supplied table system fresh log) (hmem : (src, id) ∈ log)
    (hlacks : table.Lacks system src) :
    fresh.names.lookup (table.bareName system src) = some id := by
  rcases h.answers hmem with hvalue | ⟨-, hlookup⟩
  · cases hvalue.symm.trans hlacks
  · exact hlookup

/-- The identifier of an unknown reference counts down from the next fresh one of the table. -/
theorem Supplied.exists_index (h : Supplied table system fresh log) (hmem : (src, id) ∈ log)
    (hlacks : table.Lacks system src) :
    ∃ index, fresh.names.reverse[index]? = some (table.bareName system src, id) ∧
      index < fresh.names.length ∧ id = table.nextFresh - Int32.ofNat index := by
  have hentry : (table.bareName system src, id) ∈ fresh.names := by
    obtain ⟨before, after, heq, -⟩ := List.lookup_eq_some_iff.mp (h.lookup hmem hlacks)
    rw [heq]
    exact List.mem_append_right _ List.mem_cons_self
  obtain ⟨index, hindex⟩ := List.getElem?_of_mem (List.mem_reverse.mpr hentry)
  exact ⟨index, hindex, by simpa using (List.getElem?_eq_some_iff.mp hindex).1, h.numbered hindex⟩

/-- Unknown references in one file share an identifier exactly if they share the bare name. -/
theorem Supplied.eq_iff_bareName (h : Supplied table system fresh log) {other : String}
    {id' : ResId} (hmem : (src, id) ∈ log) (hmem' : (other, id') ∈ log)
    (hlacks : table.Lacks system src) (hlacks' : table.Lacks system other)
    (hcost : fresh.names.length ≤ 0x100000000) :
    id = id' ↔ table.bareName system src = table.bareName system other := by
  constructor
  · intro heq
    obtain ⟨index, hindex, hlt, hid⟩ := h.exists_index hmem hlacks
    obtain ⟨index', hindex', hlt', hid'⟩ := h.exists_index hmem' hlacks'
    have hsame : index = index' :=
      ResId.sub_ofNat_inj (by omega) (by omega) (hid.symm.trans (heq.trans hid'))
    rw [hsame, hindex'] at hindex
    exact congrArg Prod.fst (Option.some.inj hindex).symm
  · intro hname
    have hlookup := h.lookup hmem hlacks
    rw [hname, h.lookup hmem' hlacks'] at hlookup
    exact (Option.some.inj hlookup).symm

/-- A file uses up one fresh identifier for each new name, and one for itself if it needs one. -/
theorem Supplied.exists_used (h : Supplied menu.table system menu.fresh log) :
    ∃ used, (menuShelf system).Takes (menu.file.name, menu.root) used menu.table
        (menu.after system) ∧ menu.fresh.names.length ≤ used ∧ used ≤ log.length + 1 := by
  obtain ⟨used, hnames, hle, htakes⟩ := takes_placeMenu h.next_eq menu.root
  exact ⟨used, htakes, hnames, hle.trans (Nat.succ_le_succ h.length_le)⟩

/-- A bound for the identifiers that menu files use up: one for each reference and one for each
file. -/
def cost (system : Bool) (menus : List MenuRead) : Nat :=
  (menus.flatMap fun menu => menu.occurrences system).length + menus.length

theorem cost_cons (first : MenuRead) (rest : List MenuRead) :
    cost system (first :: rest) = (first.occurrences system).length + 1 + cost system rest := by
  simp only [cost, List.flatMap_cons, List.length_append, List.length_cons]
  omega

/-- The trees of menu files are put on the shelf of the menus. -/
theorem ReadsMenus.takesAll (h : ReadsMenus system menus table new) :
    ∃ used ≤ cost system menus, (menuShelf system).TakesAll
      (menus.map fun menu => (menu.file.name, menu.root)) used table new := by
  induction h with
  | nil => exact ⟨0, Nat.zero_le _, .nil⟩
  | cons read _ ih =>
    obtain ⟨used, htakes, -, hle⟩ := (supplied_of_read read).exists_used
    obtain ⟨more, hmore, hrest⟩ := ih
    refine ⟨used + more, ?_, .cons htakes hrest⟩
    rw [cost_cons]
    exact Nat.add_le_add hle hmore

/-- The next fresh identifier of a later file. -/
theorem ReadsMenus.exists_offset (h : ReadsMenus system menus table new) (hmenu : menu ∈ menus) :
    ∃ offset, menu.table.nextFresh = table.nextFresh - Int32.ofNat offset ∧
      offset + menu.fresh.names.length ≤
        cost system menus := by
  induction h with
  | nil => cases hmenu
  | cons read reads ih =>
    have hsupplied := supplied_of_read read
    rw [cost_cons]
    rcases List.mem_cons.mp hmenu with rfl | hmenu
    · have hle := hsupplied.length_le
      exact ⟨0, by simp, by omega⟩
    · obtain ⟨used, htakes, -, hle⟩ := hsupplied.exists_used
      obtain ⟨offset, hoffset, hsum⟩ := ih hmenu
      refine ⟨used + offset, ?_, by omega⟩
      rw [hoffset, htakes.next, ResId.sub_ofNat_sub]

/-- Invented identifiers of different files are different. -/
theorem ReadsMenus.pairwise_ne (h : ReadsMenus system menus table new)
    (hcost : cost system menus ≤ 0x100000000) :
    menus.Pairwise fun first second => ∀ {src other id id'},
      (src, id) ∈ first.occurrences system → (other, id') ∈ second.occurrences system →
        first.table.Lacks system src → second.table.Lacks system other → id ≠ id' := by
  induction h with
  | nil => exact .nil
  | cons read reads ih =>
    rw [cost_cons] at hcost
    refine List.pairwise_cons.mpr ⟨fun second hsecond => ?_, ih (by omega)⟩
    intro src other id id' hmem hmem' hlacks hlacks' heq
    have hsupplied := supplied_of_read read
    obtain ⟨index, -, hlt, hid⟩ := hsupplied.exists_index hmem hlacks
    obtain ⟨index', -, hlt', hid'⟩ :=
      (supplied_of_read (reads.read hsecond)).exists_index hmem' hlacks'
    -- the second file counts down from behind all that the first one has invented
    obtain ⟨used, htakes, hnames, hle⟩ := hsupplied.exists_used
    obtain ⟨offset, hoffset, hsum⟩ := reads.exists_offset hsecond
    rw [hoffset, htakes.next, ResId.sub_ofNat_sub, ResId.sub_ofNat_sub] at hid'
    have hsame : index = used + (offset + index') :=
      ResId.sub_ofNat_inj (by omega) (by omega) (hid.symm.trans (heq.trans hid'))
    omega

/-! ### Declared references -/

/-- A side keeps its declarations of all kinds but those of views, and the other side keeps all. -/
structure KeepsOthers (system : Bool) (old new : ResourceTable) : Prop where
  own : ∀ {kind name id}, kind ≠ .id → (old.own system).id? kind name = some id →
    (new.own system).id? kind name = some id
  other : ∀ {side}, side ≠ system → new.own side = old.own side

/-- A text refers to an identifier of its own side or keeps what it refers to. -/
theorem isOwnId_or_keeps (system : Bool) (src : String) :
    (∃ name, Reference.IsOwnId system src name) ∨
      ∀ {old new : ResourceTable} {id}, KeepsOthers system old new →
        (old.refer system src).value = some id → (new.refer system src).value = some id := by
  rcases Reference.read_cases system src with ⟨side, kind, name, hread⟩ | ⟨v, hvalue⟩
  · have hrefer : ∀ table : ResourceTable, (table.refer system src).value =
        kind.bind fun kind => (table.own side).id? kind name := by
      intro table
      rw [refer, hread]
      rfl
    by_cases hown : side = system ∧ kind = some .id
    · obtain ⟨rfl, rfl⟩ := hown
      exact .inl ⟨name, hread⟩
    · refine .inr fun {old new id} hkeeps hid => ?_
      rw [hrefer] at hid ⊢
      obtain ⟨kind, rfl, hid⟩ := Option.bind_eq_some_iff.mp hid
      by_cases hside : side = system
      · subst hside
        exact hkeeps.own (fun hkind => hown ⟨rfl, congrArg some hkind⟩) hid
      · rwa [hkeeps.other hside]
  · refine .inr fun {old new id} _ hid => ?_
    rw [refer, hvalue] at hid ⊢
    exact hid

/-- A menu file declares only views and itself. -/
theorem keepsOthers_after (menu : MenuRead) (system : Bool) :
    KeepsOthers system menu.table (menu.after system) := by
  have hfresh : KeepsOthers system menu.table (menu.table.withFresh system menu.fresh) := by
    refine ⟨fun hkind hid => (id?_withFresh hkind _ _).trans hid, fun hside => ?_⟩
    exact own_withOwn_of_ne _ _ hside
  unfold MenuRead.after
  cases menu.root with
  | none => exact hfresh
  | some root =>
    refine ⟨fun {kind name id} hkind hid => ?_, fun {side} hside => ?_⟩
    · by_cases hmenu : kind = .menu
      · subst hmenu
        exact id?_register (hfresh.own hkind hid)
      · exact (id?_register_of_ne fun heq => absurd heq.symm hmenu).trans (hfresh.own hkind hid)
    · exact (own_register_of_ne hside).trans (hfresh.other hside)

/-- A reference that is declared, and not as an own view, has the same identifier in all files. -/
theorem ReadsMenus.answers_value (h : ReadsMenus system menus table new)
    (hown : ¬ ∃ name, Reference.IsOwnId system src name)
    (hid : (table.refer system src).value = some id) (hmenu : menu ∈ menus) {other : ResId}
    (hmem : (src, other) ∈ menu.occurrences system) : other = id := by
  refine h.answers_kept (fun menu _ _ hvalue => ?_) hid hmenu hmem
  exact (isOwnId_or_keeps system src).resolve_left hown (keepsOthers_after menu system) hvalue

/-! ## Consistency -/

/-- The identifier of a text does not depend on the file: the text refers to an own view, and so do
all unknown references to its name, or it refers to something else that is declared. -/
def Steady (table : ResourceTable) (system : Bool) (menus : List MenuRead) (src : String) :
    Prop :=
  (∃ name, Reference.IsOwnId system src name ∧
      ∀ menu ∈ menus, menu.table.OnlyOwn system (menu.occurrences system) name) ∨
    (¬ ∃ name, Reference.IsOwnId system src name) ∧ ¬ table.Lacks system src

/-- What the identifiers in menu files satisfy that are read one after the other. -/
structure Consistent (table : ResourceTable) (system : Bool) (menus : List MenuRead) : Prop where
  /-- The identifiers in the trees are the answers to references. -/
  trees : ∀ menu ∈ menus, ∀ root, menu.root = some root → root.Answered (menu.occurrences system)
  within_file : ∀ menu ∈ menus, ∀ {src id id'}, (src, id) ∈ menu.occurrences system →
    (src, id') ∈ menu.occurrences system → id = id'
  across_files : ∀ {src}, table.Steady system menus src →
    ∀ first ∈ menus, ∀ second ∈ menus, ∀ {id id'}, (src, id) ∈ first.occurrences system →
      (src, id') ∈ second.occurrences system → id = id'
  /-- In one file, what is invented is shared exactly by the references to one bare name. -/
  invented : cost system menus ≤ 0x100000000 →
    ∀ menu ∈ menus, ∀ {src other id id'}, (src, id) ∈ menu.occurrences system →
      (other, id') ∈ menu.occurrences system → menu.table.Lacks system src →
        menu.table.Lacks system other →
          (id = id' ↔ menu.table.bareName system src = menu.table.bareName system other)
  /-- What is invented in one file is not invented again in another. -/
  apart : cost system menus ≤ 0x100000000 →
    menus.Pairwise fun first second => ∀ {src other id id'},
      (src, id) ∈ first.occurrences system → (other, id') ∈ second.occurrences system →
        first.table.Lacks system src → second.table.Lacks system other → id ≠ id'

/-- Menu files that are read one after the other have consistent identifiers: a text has one
identifier in a file, and one in all files if it is steady, and an invented identifier belongs to
one bare name in one file. -/
theorem menu_ids_consistent {files : List ResourceFile}
    (h : files.foldlM (addMenuFile system) table = .ok new) :
    ∃ menus : List MenuRead, menus.map MenuRead.file = files ∧
      ReadsMenus system menus table new ∧ table.Consistent system menus := by
  obtain ⟨menus, hfiles, hreads⟩ := exists_readsMenus h
  refine ⟨menus, hfiles, hreads, ?_, ?_, ?_, ?_, hreads.pairwise_ne⟩
  · intro menu hmenu root hroot
    have hread := hreads.read hmenu
    refine (supplied_occurrences menu.table system menu.file).2 root ?_
    rw [hread, hroot]
  · intro menu hmenu src id id' hid hid'
    exact (supplied_of_read (hreads.read hmenu)).unique hid hid'
  · intro src hsteady first hfirst second hsecond id id' hid hid'
    rcases hsteady with ⟨name, hown, honly⟩ | ⟨hown, hdeclared⟩
    · exact hreads.unique hown honly hfirst hsecond hid hid'
    · obtain ⟨v, hvalue⟩ := Option.ne_none_iff_exists'.mp hdeclared
      exact (hreads.answers_value hown hvalue hfirst hid).trans
        (hreads.answers_value hown hvalue hsecond hid').symm
  · intro hcost menu hmenu src other id id' hid hid' hlacks hlacks'
    obtain ⟨offset, -, hsum⟩ := hreads.exists_offset hmenu
    exact (supplied_of_read (hreads.read hmenu)).eq_iff_bareName hid hid' hlacks hlacks'
      (by omega)

/-! ## Sample menus -/

def trace (system : Bool) : ResourceTable → List ResourceFile → List MenuRead
  | _, [] => []
  | table, file :: rest =>
    let read := table.readMenu system file
    let menu : MenuRead := { file, table, root := read.1.toOption.join, fresh := read.2 }
    menu :: trace system (menu.after system) rest

theorem ReadsMenus.eq_trace (h : ReadsMenus system menus table new) :
    menus = trace system table (menus.map MenuRead.file) := by
  induction h with
  | nil => rfl
  | cons read _ ih =>
    rw [List.map_cons, trace, read]
    exact congrArg (List.cons _) ih

end ResourceTable

namespace Sample

open ResourceTable

/-- A menu that refers to views of the application and of the platform. -/
def openMenu : ResourceFile where
  path := "res/menu/open.xml"
  kind := .menu
  name := "open"
  contents := "<menu><item android:id='@+id/open'/><item android:id='@android:id/quit'/>" ++
    "<item android:id='@+id/help'/><item android:id='@android:id/help'/></menu>"

def closeMenu : ResourceFile where
  path := "res/menu/close.xml"
  kind := .menu
  name := "close"
  contents := "<menu><item android:id='@+id/open'/><item android:id='@android:id/quit'/></menu>"

theorem exists_menus : ∃ new, [openMenu, closeMenu].foldlM (addMenuFile false) {} = .ok new := by
  have hok : ([openMenu, closeMenu].foldlM (addMenuFile false) {}).isOk := by decide +kernel
  cases hnew : [openMenu, closeMenu].foldlM (addMenuFile false) {} with
  | ok new => exact ⟨new, rfl⟩
  | error _ =>
    rw [hnew] at hok
    cases hok

theorem occurrences_menus {menus : List MenuRead} {new : ResourceTable}
    (h : ReadsMenus false menus {} new) (hfiles : menus.map MenuRead.file = [openMenu, closeMenu]) :
    ∃ first second, menus = [first, second] ∧ first.table = {} ∧
      first.occurrences false = [("@android:id/help", -2130968578), ("@+id/help", -2130968578),
        ("@android:id/quit", -2130968577), ("@+id/open", -2130968576)] ∧
      second.occurrences false = [("@android:id/quit", -2130968580),
        ("@+id/open", -2130968576)] := by
  have hmenus := h.eq_trace
  rw [hfiles] at hmenus
  exact ⟨_, _, hmenus, rfl, by decide +kernel, by decide +kernel⟩

end Sample

namespace ResourceTable

/-- In the sample menus the view of the application has one identifier. -/
theorem menu_ids_consistent_open :
    ∃ new, ∃ menus : List MenuRead,
      [Sample.openMenu, Sample.closeMenu].foldlM (addMenuFile false) {} = .ok new ∧
      menus.map MenuRead.file = [Sample.openMenu, Sample.closeMenu] ∧
      ReadsMenus false menus {} new ∧ Consistent {} false menus ∧
      Steady {} false menus "@+id/open" ∧
      cost false menus ≤ 0x100000000 := by
  obtain ⟨new, hnew⟩ := Sample.exists_menus
  obtain ⟨menus, hfiles, hreads, hconsistent⟩ := menu_ids_consistent hnew
  refine ⟨new, menus, hnew, hfiles, hreads, hconsistent, .inl ⟨"open", fun _ _ => rfl, ?_⟩, ?_⟩
  · intro menu hmenu src id hmem _ hname
    have hsource : src ∈ ["@android:id/help", "@+id/help", "@android:id/quit", "@+id/open"] := by
      obtain ⟨first, second, rfl, -, hfirst, hsecond⟩ := Sample.occurrences_menus hreads hfiles
      rcases List.mem_cons.mp hmenu with rfl | hmenu
      · rw [hfirst] at hmem
        exact List.mem_map_of_mem (f := Prod.fst) hmem
      · rw [List.mem_singleton.mp hmenu, hsecond] at hmem
        exact List.mem_append_right ["@android:id/help", "@+id/help"]
          (List.mem_map_of_mem (f := Prod.fst) hmem)
    simp only [List.mem_cons, List.not_mem_nil, or_false] at hsource
    rcases hsource with rfl | rfl | rfl | rfl
    · exact absurd (show "help" = "open" from hname) (by decide)
    · exact absurd (show "help" = "open" from hname) (by decide)
    · exact absurd (show "quit" = "open" from hname) (by decide)
    · exact fun _ _ => rfl
  · obtain ⟨first, second, rfl, -, hfirst, hsecond⟩ := Sample.occurrences_menus hreads hfiles
    simp [cost, hfirst, hsecond]

/-- References to views of the platform have other identifiers in other files, and share them with
views of the application. -/
theorem menu_ids_inconsistent :
    (¬ ∀ (table new : ResourceTable) (files : List ResourceFile) (menus : List MenuRead),
      files.foldlM (addMenuFile false) table = .ok new → menus.map MenuRead.file = files →
      ReadsMenus false menus table new → ∀ first ∈ menus, ∀ second ∈ menus, ∀ src id id',
        (src, id) ∈ first.occurrences false → (src, id') ∈ second.occurrences false →
          id = id') ∧
    ¬ ∀ (table new : ResourceTable) (files : List ResourceFile) (menus : List MenuRead),
      files.foldlM (addMenuFile false) table = .ok new → menus.map MenuRead.file = files →
      ReadsMenus false menus table new → ∀ menu ∈ menus, ∀ src other name key id id',
        Reference.IsOwnId false src name →
        (∀ app sys, Reference.read app sys other false = .named sys (some .id) key) →
        (src, id) ∈ menu.occurrences false → (other, id') ∈ menu.occurrences false →
        menu.table.Lacks false src → menu.table.Lacks false other → id ≠ id' := by
  obtain ⟨new, hnew⟩ := Sample.exists_menus
  obtain ⟨menus, hfiles, hreads⟩ := exists_readsMenus hnew
  obtain ⟨first, second, rfl, htable, hfirst, hsecond⟩ := Sample.occurrences_menus hreads hfiles
  constructor
  · intro hall
    have heq := hall {} new _ _ hnew hfiles hreads first (by simp) second (by simp)
      "@android:id/quit" (-2130968577) (-2130968580) (by simp [hfirst]) (by simp [hsecond])
    exact absurd heq (by decide)
  · intro hall
    exact hall {} new _ _ hnew hfiles hreads first (by simp) "@+id/help" "@android:id/help" "help"
      "help" (-2130968578) (-2130968578) (fun _ _ => rfl) (fun _ _ => rfl) (by simp [hfirst])
      (by simp [hfirst]) (by rw [htable]; rfl) (by rw [htable]; rfl) rfl

end ResourceTable

end WidgetFlow
