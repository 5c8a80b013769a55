import WidgetFlow.Proofs.Scene
import WidgetFlow.Resource.Table

/-!
# Entering trees

Layouts and menus are entered alike: the name of a file gets an identifier unless it has one, and
the tree of the file is kept for that identifier unless another one is. `Shelf.Takes` says so of one
file, for the layouts (`takes_enterLayout`) and for the menus (`takes_placeMenu`) of either side.
After some files a name has the tree that its identifier had before, or else that of the first file
with this identifier (`Shelf.TakesAll.getElem?_trees`).
-/

namespace WidgetFlow

theorem IdTable.id?_insert (table : IdTable) (kind other : ResKind) (name key : String)
    (v : ResId) :
    (table.insert kind name v).id? other key =
      if kind = other ∧ name = key then some v else table.id? other key := by
  unfold insert id?
  rw [List.find?_cons]
  split <;> simp_all

/-! ## Counting down -/

namespace ResId

theorem sub_ofNat_sub (s : ResId) (first second : Nat) :
    s - Int32.ofNat first - Int32.ofNat second = s - Int32.ofNat (first + second) := by
  rw [Int32.ofNat_add]
  grind

/-- Identifiers that count down are different for as long as they fit. -/
theorem sub_ofNat_inj {s : ResId} {first second : Nat} (hfirst : first < 0x100000000)
    (hsecond : second < 0x100000000) (h : s - Int32.ofNat first = s - Int32.ofNat second) :
    first = second := by
  have heq : Int32.ofNat first = Int32.ofNat second := by grind
  have hbits := congrArg (fun id : ResId => id.toBitVec.toNat) heq
  simp only [Int32.toBitVec_ofNat', BitVec.toNat_ofNat] at hbits
  omega

end ResId

namespace ResourceTable

variable {table old new middle : ResourceTable} {sys side : Bool} {name : String} {id : ResId}
variable {root : Element} {file : ResourceFile} {files : List ResourceFile}

/-! ## Shelves -/

/-- Where trees are kept: their names have identifiers, and these have the trees. -/
structure Shelf where
  id? : ResourceTable → String → Option ResId
  trees : ResourceTable → Trees

def layoutShelf (sys : Bool) : Shelf where
  id? table := (table.own sys).id? .layout
  trees table := table.ownLayouts sys

def menuShelf (sys : Bool) : Shelf where
  id? table := (table.own sys).id? .menu
  trees table := table.menus

theorem getElem?_insertIfNew (trees : Trees) (id other : ResId) (root : Element) :
    (trees.insertIfNew id root)[other]? =
      if id = other then some ((trees[other]?).getD root) else trees[other]? := by
  simp only [Std.TreeMap.getElem?_insertIfNew, Std.compare_eq_iff_eq]
  by_cases hid : id = other
  · subst hid
    cases htree : trees[id]? with
    | none =>
      have hmem : id ∉ trees := by simp [Std.TreeMap.mem_iff_isSome_getElem?, htree]
      simp [hmem]
    | some tree =>
      have hmem : id ∈ trees := by simp [Std.TreeMap.mem_iff_isSome_getElem?, htree]
      simp [hmem]
  · simp [hid]

namespace Shelf

variable {shelf : Shelf} {entry : String × Option Element} {used : Nat}
variable {entries earlier later : List (String × Option Element)}

/-- Two tables have the same on a shelf. -/
structure Same (shelf : Shelf) (old new : ResourceTable) : Prop where
  ids : ∀ name, shelf.id? new name = shelf.id? old name
  trees : shelf.trees new = shelf.trees old

theorem Same.refl (shelf : Shelf) (table : ResourceTable) : shelf.Same table table :=
  ⟨fun _ => rfl, rfl⟩

theorem Same.trans (h : shelf.Same old middle) (h' : shelf.Same middle new) : shelf.Same old new :=
  ⟨fun name => (h'.ids name).trans (h.ids name), h'.trees.trans h.trees⟩

/-- What is on a shelf stays there. -/
structure Retains (shelf : Shelf) (old new : ResourceTable) : Prop where
  ids : ∀ {name id}, shelf.id? old name = some id → shelf.id? new name = some id
  trees : ∀ {id : ResId} {tree}, (shelf.trees old)[id]? = some tree →
    (shelf.trees new)[id]? = some tree

theorem Retains.refl (shelf : Shelf) (table : ResourceTable) : shelf.Retains table table :=
  ⟨fun hid => hid, fun htree => htree⟩

theorem Retains.trans (h : shelf.Retains old middle) (h' : shelf.Retains middle new) :
    shelf.Retains old new :=
  ⟨fun hid => h'.ids (h.ids hid), fun htree => h'.trees (h.trees htree)⟩

/-- A name with a tree is put on a shelf, which uses up some fresh identifiers. A file without a
tree brings nothing. -/
structure Takes (shelf : Shelf) (entry : String × Option Element) (used : Nat)
    (old new : ResourceTable) : Prop where
  ids : ∀ {name id}, shelf.id? old name = some id → shelf.id? new name = some id
  /-- No other name gets an identifier. -/
  others : ∀ {name}, (entry.2 ≠ none → entry.1 ≠ name) → shelf.id? new name = shelf.id? old name
  next : new.nextFresh = old.nextFresh - Int32.ofNat used
  /-- An identifier that is not declared is invented. -/
  invented : ∀ {id}, shelf.id? old entry.1 = none → shelf.id? new entry.1 = some id →
    ∃ index < used, id = old.nextFresh - Int32.ofNat index
  empty : entry.2 = none → shelf.trees new = shelf.trees old
  filled : ∀ {root}, entry.2 = some root → ∃ id, shelf.id? new entry.1 = some id ∧
    shelf.trees new = (shelf.trees old).insertIfNew id root

theorem Takes.retains (h : shelf.Takes entry used old new) : shelf.Retains old new := by
  refine ⟨h.ids, fun {id tree} htree => ?_⟩
  cases hroot : entry.2 with
  | none => rwa [h.empty hroot]
  | some root =>
    obtain ⟨own, _, htrees⟩ := h.filled hroot
    rw [htrees, getElem?_insertIfNew, htree]
    simp

/-- Some names with trees are put on a shelf one after the other. -/
inductive TakesAll (shelf : Shelf) : List (String × Option Element) → Nat → ResourceTable →
    ResourceTable → Prop
  | nil {table : ResourceTable} : TakesAll shelf [] 0 table table
  | cons {entry : String × Option Element} {rest : List (String × Option Element)} {used more : Nat}
      {old middle new : ResourceTable} (first : shelf.Takes entry used old middle)
      (others : TakesAll shelf rest more middle new) :
      TakesAll shelf (entry :: rest) (used + more) old new

namespace TakesAll

/-- What is put on a shelf leaves all there that was there. -/
theorem retains (h : shelf.TakesAll entries used old new) : shelf.Retains old new := by
  induction h with
  | nil => exact .refl shelf _
  | cons first _ ih => exact first.retains.trans ih

/-- Every name that comes with a tree has an identifier. -/
theorem exists_id (h : shelf.TakesAll entries used old new) (hentry : entry ∈ entries)
    (hroot : entry.2 ≠ none) : ∃ id, shelf.id? new entry.1 = some id := by
  induction h with
  | nil => cases hentry
  | cons first others ih =>
    rcases List.mem_cons.mp hentry with rfl | hrest
    · obtain ⟨root, hroot⟩ := Option.ne_none_iff_exists'.mp hroot
      obtain ⟨id, hid, _⟩ := first.filled hroot
      exact ⟨id, others.retains.ids hid⟩
    · exact ih hrest

/-- A name that comes with no tree keeps its identifier. -/
theorem id?_eq (h : shelf.TakesAll entries used old new)
    (hothers : ∀ entry ∈ entries, entry.2 ≠ none → entry.1 ≠ name) :
    shelf.id? new name = shelf.id? old name := by
  induction h with
  | nil => rfl
  | cons first _ ih =>
    rw [ih fun entry hentry => hothers entry (List.mem_cons_of_mem _ hentry)]
    exact first.others (hothers _ List.mem_cons_self)

/-- Identifiers that are not declared are invented, counting down. -/
theorem invented (h : shelf.TakesAll entries used old new) (hold : shelf.id? old name = none)
    (hnew : shelf.id? new name = some id) :
    ∃ index < used, id = old.nextFresh - Int32.ofNat index := by
  induction h with
  | nil => cases hold.symm.trans hnew
  | @cons entry rest used more old middle new first others ih =>
    cases hmiddle : shelf.id? middle name with
    | none =>
      obtain ⟨index, hlt, hid⟩ := ih hmiddle hnew
      exact ⟨used + index, by omega, by rw [hid, first.next, ResId.sub_ofNat_sub]⟩
    | some found =>
      cases hnew.symm.trans (others.retains.ids hmiddle)
      by_cases hname : entry.1 = name
      · subst hname
        obtain ⟨index, hlt, hid⟩ := first.invented hold hmiddle
        exact ⟨index, by omega, hid⟩
      · cases (hmiddle.symm.trans (first.others fun _ => hname)).trans hold

/-- The first files go up to the table that a file in the middle meets. -/
theorem split (h : shelf.TakesAll (earlier ++ entry :: later) used old new) :
    ∃ middle next first own more, shelf.TakesAll earlier first old middle ∧
      middle.nextFresh = old.nextFresh - Int32.ofNat first ∧ shelf.Takes entry own middle next ∧
      shelf.TakesAll later more next new ∧ used = first + (own + more) := by
  induction earlier generalizing old used with
  | nil =>
    cases h with
    | cons first others => exact ⟨old, _, 0, _, _, .nil, by simp, first, others, (Nat.zero_add _).symm⟩
  | cons head rest ih =>
    cases h with
    | cons head others =>
      obtain ⟨middle, next, first, own, more, hearlier, hnext, hentry, hlater, rfl⟩ := ih others
      refine ⟨middle, next, _, own, more, .cons head hearlier, ?_, hentry, hlater, ?_⟩
      · rw [hnext, head.next, ResId.sub_ofNat_sub]
      · exact (Nat.add_assoc _ _ _).symm

/-- An identifier stays free while others are used. -/
theorem getElem?_trees_eq_none {t : ResourceTable} (h : shelf.TakesAll entries used old new)
    (hold : (shelf.trees old)[id]? = none) (ht : shelf.Retains new t)
    (hothers : ∀ entry ∈ entries, entry.2 ≠ none → shelf.id? t entry.1 ≠ some id) :
    (shelf.trees new)[id]? = none := by
  induction h with
  | nil => exact hold
  | @cons entry rest used more old middle new first others ih =>
    refine ih ?_ ht fun other hother => hothers other (List.mem_cons_of_mem _ hother)
    cases hroot : entry.2 with
    | none => rwa [first.empty hroot]
    | some root =>
      obtain ⟨own, hown, htrees⟩ := first.filled hroot
      have hne : own ≠ id := by
        rintro rfl
        refine hothers entry List.mem_cons_self (by simp [hroot]) ?_
        exact ht.ids (others.retains.ids hown)
      rw [htrees, getElem?_insertIfNew, if_neg hne, hold]

variable (h : shelf.TakesAll (earlier ++ (name, some root) :: later) used old new)
include h

/-- A name has the tree that its identifier had before, or else that of the first file with this
identifier. -/
theorem getElem?_trees (hid : shelf.id? new name = some id)
    (hothers : ∀ entry ∈ earlier, entry.2 ≠ none → shelf.id? new entry.1 ≠ some id) :
    (shelf.trees new)[id]? = some (((shelf.trees old)[id]?).getD root) := by
  cases hold : (shelf.trees old)[id]? with
  | some tree => exact h.retains.trees hold
  | none =>
    obtain ⟨middle, next, _, _, _, hearlier, _, hentry, hlater, _⟩ := h.split
    have hfree : (shelf.trees middle)[id]? = none :=
      hearlier.getElem?_trees_eq_none hold (hentry.retains.trans hlater.retains) hothers
    obtain ⟨own, hown, htrees⟩ := hentry.filled rfl
    -- the identifier under which the tree is entered is the one that its name has at the end
    obtain rfl : own = id := Option.some.inj ((hlater.retains.ids hown).symm.trans hid)
    refine hlater.retains.trees ?_
    rw [htrees, getElem?_insertIfNew, if_pos rfl, hfree]

/-- No identifier is invented twice: the files before have other identifiers if no other name is
declared with this one, and if it is not declared where it could be invented too. -/
theorem id?_ne (hused : used ≤ 0x100000000) (hid : shelf.id? new name = some id)
    (hothers : ∀ entry ∈ earlier, entry.2 ≠ none →
      entry.1 ≠ name ∧ shelf.id? old entry.1 ≠ some id)
    (hapart : shelf.id? old name = none ∨ ∀ index < used, id ≠ old.nextFresh - Int32.ofNat index) :
    ∀ entry ∈ earlier, entry.2 ≠ none → shelf.id? new entry.1 ≠ some id := by
  intro entry hentry hroot hsame
  obtain ⟨hname, hdeclared⟩ := hothers entry hentry hroot
  obtain ⟨middle, next, first, own, more, hearlier, hnext, hown, hlater, rfl⟩ := h.split
  have hretains := hown.retains.trans hlater.retains
  obtain ⟨found, hfound⟩ := hearlier.exists_id hentry hroot
  cases hsame.symm.trans (hretains.ids hfound)
  cases hold : shelf.id? old entry.1 with
  | some declared => exact hdeclared (hold.trans (hearlier.retains.ids hold ▸ hfound))
  | none =>
    obtain ⟨index, hlt, heq⟩ := hearlier.invented hold hfound
    rcases hapart with hnone | hapart
    · -- the name itself gets its identifier later, so further down
      have hmiddle : shelf.id? middle name = none :=
        (hearlier.id?_eq fun other hother hroot => (hothers other hother hroot).1).trans hnone
      obtain ⟨given, hgiven, _⟩ := hown.filled rfl
      cases hid.symm.trans (hlater.retains.ids hgiven)
      obtain ⟨index', hlt', heq'⟩ := hown.invented hmiddle hgiven
      rw [hnext, ResId.sub_ofNat_sub] at heq'
      have := ResId.sub_ofNat_inj (by omega) (by omega) (heq.symm.trans heq')
      omega
    · exact hapart index (by omega) heq

end TakesAll

end Shelf

theorem foldlM_invariant {step : ResourceTable → ResourceFile → Except AnalysisError ResourceTable}
    (kept : ResourceTable → Prop)
    (hstep : ∀ {table file new}, step table file = .ok new → kept table → kept new)
    (h : files.foldlM step table = .ok new) (htable : kept table) : kept new := by
  induction files generalizing table with
  | nil =>
    cases h
    exact htable
  | cons file rest ih =>
    rw [List.foldlM_cons] at h
    obtain ⟨middle, hfirst, hrest⟩ := except_bind_eq_ok.mp h
    exact ih hrest (hstep hfirst htable)

/-! ## What an update leaves alone -/

@[simp]
theorem own_withOwn (table : ResourceTable) (sys : Bool) (ids : IdTable) :
    (table.withOwn sys ids).own sys = ids := by
  cases sys <;> rfl

theorem own_withOwn_of_ne (table : ResourceTable) (ids : IdTable) (h : side ≠ sys) :
    (table.withOwn sys ids).own side = table.own side := by
  cases sys <;> cases side <;> first | rfl | exact absurd rfl h

@[simp]
theorem ownLayouts_withOwn (table : ResourceTable) (ids : IdTable) :
    (table.withOwn sys ids).ownLayouts side = table.ownLayouts side := by
  cases sys <;> cases side <;> rfl

@[simp]
theorem menus_withOwn (table : ResourceTable) (ids : IdTable) :
    (table.withOwn sys ids).menus = table.menus := by
  cases sys <;> rfl

@[simp]
theorem nextFresh_withOwn (table : ResourceTable) (ids : IdTable) :
    (table.withOwn sys ids).nextFresh = table.nextFresh := by
  cases sys <;> rfl

@[simp]
theorem own_withOwnLayouts (table : ResourceTable) (trees : Trees) :
    (table.withOwnLayouts sys trees).own side = table.own side := by
  cases sys <;> cases side <;> rfl

@[simp]
theorem ownLayouts_withOwnLayouts (table : ResourceTable) (trees : Trees) :
    (table.withOwnLayouts sys trees).ownLayouts sys = trees := by
  cases sys <;> rfl

@[simp]
theorem menus_withOwnLayouts (table : ResourceTable) (trees : Trees) :
    (table.withOwnLayouts sys trees).menus = table.menus := by
  cases sys <;> rfl

@[simp]
theorem strings_withOwn (table : ResourceTable) (ids : IdTable) :
    (table.withOwn sys ids).strings = table.strings := by
  cases sys <;> rfl

@[simp]
theorem strings_withOwnLayouts (table : ResourceTable) (trees : Trees) :
    (table.withOwnLayouts sys trees).strings = table.strings := by
  cases sys <;> rfl

/-! ## Names -/

section Register

variable {kind : ResKind}

theorem id?_register_self :
    ((table.register kind name sys).2.own sys).id? kind name =
      some (table.register kind name sys).1 := by
  unfold register
  cases hid : (table.own sys).id? kind name with
  | some id => exact hid
  | none => simp [IdTable.id?_insert]

theorem id?_register {other : String} (h : (table.own side).id? kind other = some id) :
    ((table.register kind name sys).2.own side).id? kind other = some id := by
  unfold register
  cases hid : (table.own sys).id? kind name with
  | some _ => exact h
  | none =>
    by_cases hside : side = sys
    · subst hside
      have hne : name ≠ other := by
        rintro rfl
        cases hid.symm.trans h
      simpa [IdTable.id?_insert, hne] using h
    · dsimp only
      rwa [own_withOwn_of_ne _ _ hside]

theorem id?_register_of_ne {others : ResKind} {other : String} (h : kind = others → name ≠ other) :
    ((table.register kind name sys).2.own side).id? others other =
      (table.own side).id? others other := by
  unfold register
  cases (table.own sys).id? kind name with
  | some _ => rfl
  | none =>
    by_cases hside : side = sys
    · subst hside
      rw [own_withOwn, IdTable.id?_insert, if_neg fun heq => h heq.1 heq.2]
    · dsimp only
      rw [own_withOwn_of_ne _ _ hside]
      rfl

/-- A resource that is registered takes the next fresh identifier if it has none, and else nothing. -/
theorem register_used (table : ResourceTable) (kind : ResKind) (name : String) (sys : Bool) :
    ∃ used ≤ 1,
    (table.register kind name sys).2.nextFresh = table.nextFresh - Int32.ofNat used ∧
      ((table.own sys).id? kind name = none →
        (table.register kind name sys).1 = table.nextFresh ∧ used = 1) := by
  unfold register
  cases (table.own sys).id? kind name with
  | some _ => exact ⟨0, Nat.zero_le _, by simp, nofun⟩
  | none =>
    refine ⟨1, Nat.le_refl _, ?_, fun _ => ⟨rfl, rfl⟩⟩
    cases sys with
    | false => rfl
    | true => rfl

theorem own_register_of_ne (h : side ≠ sys) :
    (table.register kind name sys).2.own side = table.own side := by
  unfold register
  cases (table.own sys).id? kind name with
  | some _ => rfl
  | none => exact own_withOwn_of_ne _ _ h

@[simp]
theorem ownLayouts_register :
    (table.register kind name sys).2.ownLayouts side = table.ownLayouts side := by
  unfold register
  cases (table.own sys).id? kind name with
  | some _ => rfl
  | none => exact ownLayouts_withOwn _ _

@[simp]
theorem menus_register : (table.register kind name sys).2.menus = table.menus := by
  unfold register
  cases (table.own sys).id? kind name with
  | some _ => rfl
  | none => exact menus_withOwn _ _

@[simp]
theorem strings_register : (table.register kind name sys).2.strings = table.strings := by
  unfold register
  cases (table.own sys).id? kind name with
  | some _ => rfl
  | none => exact strings_withOwn _ _

end Register

/-! ## Layouts -/

theorem enterLayout_some (table : ResourceTable) (name : String) (root : Element) :
    table.enterLayout sys name (some root) =
      (table.register .layout name sys).2.withOwnLayouts sys
        ((table.ownLayouts sys).insertIfNew (table.register .layout name sys).1 root) := by
  have hlayouts : (table.register .layout name sys).2.ownLayouts sys =
      table.ownLayouts sys := ownLayouts_register
  rw [← hlayouts]
  rfl

theorem takes_enterLayout (table : ResourceTable) (name : String) (root : Option Element) :
    ∃ used ≤ 1, (layoutShelf sys).Takes (name, root) used table
      (table.enterLayout sys name root) := by
  cases root with
  | none =>
    exact ⟨0, Nat.zero_le _, fun hid => hid, fun _ => rfl, (Int32.sub_zero _).symm,
      fun hnone hsome => (nomatch hnone.symm.trans hsome), fun _ => rfl, nofun⟩
  | some root =>
    obtain ⟨used, hle, hnext, hinvented⟩ := register_used table .layout name sys
    have hids : ∀ other, (layoutShelf sys).id? (table.enterLayout sys name (some root)) other =
        ((table.register .layout name sys).2.own sys).id? .layout other := by
      intro other
      rw [enterLayout_some]
      exact congrArg (fun ids => IdTable.id? ids .layout other) (own_withOwnLayouts _ _)
    refine ⟨used, hle, fun hid => (hids _).trans (id?_register hid), fun hother => ?_, ?_, ?_, nofun, ?_⟩
    · exact (hids _).trans (id?_register_of_ne fun _ => hother nofun)
    · rw [← hnext, enterLayout_some]
      cases sys with
      | false => rfl
      | true => rfl
    · intro id hnone hsome
      obtain ⟨heq, hused⟩ := hinvented hnone
      rw [hids, id?_register_self, heq] at hsome
      cases hsome
      exact ⟨0, by omega, by simp⟩
    · rintro tree ⟨⟩
      exact ⟨_, (hids _).trans id?_register_self, by rw [enterLayout_some]; exact ownLayouts_withOwnLayouts _ _⟩

theorem takesAll_enterLayouts (table : ResourceTable) (layouts : List (String × Option Element)) :
    ∃ used ≤ layouts.length, (layoutShelf sys).TakesAll layouts used table
      (table.enterLayouts sys layouts) := by
  induction layouts generalizing table with
  | nil => exact ⟨0, Nat.le_refl _, .nil⟩
  | cons layout rest ih =>
    obtain ⟨used, hused, hfirst⟩ := takes_enterLayout table layout.1 layout.2
    obtain ⟨more, hmore, hrest⟩ := ih (table.enterLayout sys layout.1 layout.2)
    exact ⟨used + more, by simp only [List.length_cons]; omega, .cons hfirst hrest⟩

/-- Layout files leave the menus and the strings alone. -/
theorem same_enterLayout (table : ResourceTable) (name : String) (root : Option Element) :
    (menuShelf side).Same table (table.enterLayout sys name root) ∧
      (table.enterLayout sys name root).strings = table.strings := by
  cases root with
  | none => exact ⟨.refl _ table, rfl⟩
  | some root =>
    rw [enterLayout_some]
    refine ⟨⟨fun other => ?_, ?_⟩, ?_⟩
    · show (ResourceTable.own (withOwnLayouts _ _ _) side).id? _ other = _
      rw [own_withOwnLayouts]
      exact id?_register_of_ne nofun
    · exact (menus_withOwnLayouts _ _).trans menus_register
    · rw [strings_withOwnLayouts, strings_register]

/-! ## Menus -/

def readMenu (table : ResourceTable) (sys : Bool) (file : ResourceFile) :
    Except AnalysisError (Option Element) × FreshIds :=
  (MenuFile.read (table.resolveFresh sys) file.path (Markup.events file.contents)).run
    { next := table.nextFresh }

/-- The table with the fresh identifiers of a menu file. -/
def withFresh (table : ResourceTable) (sys : Bool) (fresh : FreshIds) : ResourceTable :=
  let ids := fresh.names.foldl (fun ids entry => ids.insert .id entry.1 entry.2) (table.own sys)
  { table with nextFresh := fresh.next }.withOwn sys ids

def placeMenu (table : ResourceTable) (sys : Bool) (name : String) :
    Option Element → ResourceTable
  | none => table
  | some root =>
    { (table.register .menu name sys).2 with
      menus := table.menus.insertIfNew (table.register .menu name sys).1 root }

/-- A menu file is read, its fresh identifiers are declared, and its tree is kept. -/
theorem addMenuFile_ok (h : addMenuFile sys table file = .ok new) :
    ∃ root fresh, table.readMenu sys file = (.ok root, fresh) ∧
      new = (table.withFresh sys fresh).placeMenu sys file.name root := by
  unfold addMenuFile at h
  split at h
  next res fresh hread =>
    obtain ⟨root, rfl, h⟩ := except_bind_eq_ok.mp h
    refine ⟨root, fresh, hread, ?_⟩
    cases root with
    | none => exact (Except.ok.inj h).symm
    | some root =>
      have hmenus : ((table.withFresh sys fresh).register .menu file.name sys).2.menus =
          (table.withFresh sys fresh).menus := menus_register
      unfold placeMenu
      rw [← hmenus]
      exact (Except.ok.inj h).symm

theorem id?_foldl_insert_id {kind : ResKind} (hkind : kind ≠ .id) (names : List (String × ResId))
    (ids : IdTable) :
    (names.foldl (fun ids entry => ids.insert .id entry.1 entry.2) ids).id? kind name =
      ids.id? kind name := by
  induction names generalizing ids with
  | nil => rfl
  | cons entry rest ih =>
    rw [List.foldl_cons, ih, IdTable.id?_insert]
    simp [hkind.symm]

theorem id?_withFresh {kind : ResKind} (hkind : kind ≠ .id) (fresh : FreshIds) (name : String) :
    ((table.withFresh sys fresh).own side).id? kind name = (table.own side).id? kind name := by
  unfold withFresh
  by_cases hside : side = sys
  · subst hside
    rw [own_withOwn]
    exact id?_foldl_insert_id hkind fresh.names _
  · rw [own_withOwn_of_ne _ _ hside]
    rfl

theorem menus_withFresh (table : ResourceTable) (fresh : FreshIds) :
    (table.withFresh sys fresh).menus = table.menus :=
  menus_withOwn _ _

/-- A menu file uses up one fresh identifier for each new name, and one for itself if it needs one. -/
theorem takes_placeMenu {fresh : FreshIds}
    (hfresh : fresh.next = table.nextFresh - Int32.ofNat fresh.names.length)
    (root : Option Element) : ∃ used, fresh.names.length ≤ used ∧ used ≤ fresh.names.length + 1 ∧
      (menuShelf sys).Takes (name, root) used table
        ((table.withFresh sys fresh).placeMenu sys name root) := by
  have hids : ∀ other, ((table.withFresh sys fresh).own sys).id? .menu other =
      (table.own sys).id? .menu other := id?_withFresh (by decide) fresh
  have hnext : (table.withFresh sys fresh).nextFresh =
      table.nextFresh - Int32.ofNat fresh.names.length := by
    rw [← hfresh]
    exact nextFresh_withOwn _ _
  cases root with
  | none =>
    exact ⟨_, Nat.le_refl _, Nat.le_succ _, fun hid => (hids _).trans hid, fun _ => hids _, hnext,
      fun hnone hsome => (nomatch hnone.symm.trans ((hids _).symm.trans hsome)),
      fun _ => menus_withFresh table fresh, nofun⟩
  | some root =>
    obtain ⟨used, hle, hused, hinvented⟩ :=
      register_used (table.withFresh sys fresh) .menu name sys
    rw [hnext] at hused hinvented
    refine ⟨fresh.names.length + used, by omega, by omega,
      fun hid => id?_register ((hids _).trans hid), fun hother => ?_, ?_, ?_, nofun, ?_⟩
    · exact (id?_register_of_ne fun _ => hother nofun).trans (hids _)
    · exact hused.trans (ResId.sub_ofNat_sub _ _ _)
    · intro id hnone hsome
      obtain ⟨heq, hone⟩ := hinvented ((hids _).trans hnone)
      cases hsome.symm.trans id?_register_self
      exact ⟨_, by omega, heq⟩
    · rintro tree ⟨⟩
      refine ⟨_, id?_register_self, ?_⟩
      show (table.withFresh sys fresh).menus.insertIfNew _ root = table.menus.insertIfNew _ root
      rw [menus_withFresh]

/-- A menu file that is read: the table that it is read with, its tree, and its fresh identifiers. -/
structure MenuRead where
  file : ResourceFile
  table : ResourceTable
  root : Option Element
  fresh : FreshIds

def MenuRead.after (menu : MenuRead) (sys : Bool) : ResourceTable :=
  (menu.table.withFresh sys menu.fresh).placeMenu sys menu.file.name menu.root

/-- Menu files are read one after the other, each with what the files before it have left. -/
inductive ReadsMenus (sys : Bool) : List MenuRead → ResourceTable → ResourceTable → Prop
  | nil {table : ResourceTable} : ReadsMenus sys [] table table
  | cons {menu : MenuRead} {rest : List MenuRead} {new : ResourceTable}
      (read : menu.table.readMenu sys menu.file = (.ok menu.root, menu.fresh))
      (others : ReadsMenus sys rest (menu.after sys) new) :
      ReadsMenus sys (menu :: rest) menu.table new

/-- Menu files leave the layouts and the strings alone. -/
theorem same_after (menu : MenuRead) :
    (layoutShelf side).Same menu.table (menu.after sys) ∧
      (menu.after sys).strings = menu.table.strings := by
  unfold MenuRead.after
  have hfresh : (layoutShelf side).Same menu.table (menu.table.withFresh sys menu.fresh) :=
    ⟨id?_withFresh (by decide) menu.fresh, ownLayouts_withOwn _ _⟩
  have hstrings : (menu.table.withFresh sys menu.fresh).strings = menu.table.strings :=
    strings_withOwn _ _
  cases menu.root with
  | none => exact ⟨hfresh, hstrings⟩
  | some root =>
    refine ⟨hfresh.trans ⟨fun _ => id?_register_of_ne nofun, ownLayouts_register⟩, ?_⟩
    exact strings_register.trans hstrings

theorem ReadsMenus.same {menus : List MenuRead} (h : ReadsMenus sys menus table new) :
    (layoutShelf side).Same table new ∧ new.strings = table.strings := by
  induction h with
  | nil => exact ⟨.refl _ _, rfl⟩
  | @cons menu rest new _ _ ih =>
    obtain ⟨hsame, hstrings⟩ := same_after menu
    exact ⟨hsame.trans ih.1, ih.2.trans hstrings⟩

/-- What reading some menu files one after the other gives. -/
theorem exists_readsMenus (h : files.foldlM (addMenuFile sys) table = .ok new) :
    ∃ menus : List MenuRead, menus.map MenuRead.file = files ∧ ReadsMenus sys menus table new := by
  induction files generalizing table with
  | nil =>
    cases h
    exact ⟨[], rfl, .nil⟩
  | cons file rest ih =>
    rw [List.foldlM_cons] at h
    obtain ⟨middle, hfirst, hrest⟩ := except_bind_eq_ok.mp h
    obtain ⟨root, fresh, hread, rfl⟩ := addMenuFile_ok hfirst
    obtain ⟨menus, rfl, hreads⟩ := ih hrest
    let menu : MenuRead := { file, table, root, fresh }
    exact ⟨menu :: menus, rfl, .cons hread hreads⟩

end ResourceTable

end WidgetFlow
