import WidgetFlow.Project.Load
import WidgetFlow.Proofs.Graph.Growth
import WidgetFlow.Proofs.Resource.Inclusions
import WidgetFlow.Proofs.Resource.MenuIds

/-!
# Reading resource directories

A resource directory is entered into a table in stages: first the values, then the layouts, then the
menus. `Project.DirectoryReading` keeps what is read on the way. The disk is any that answers a
question always alike, so nothing is assumed about which files a search comes upon. They are read in
order, those for every configuration first, and of the trees for an identifier the first counts. So
the tree for every configuration is kept (`Project.DirectoryReading.Fits.keepsLayouts`), unless the
files declare the same identifier twice or one that is invented too.
-/

namespace WidgetFlow

/-- The place that a resource file is read from. -/
def ResourceFile.place (file : ResourceFile) : ResourcePath :=
  { path := file.path, kind := file.kind }

/-! ## Files in order -/

namespace ResourcePath

/-- Files for every configuration come before the others. -/
def DefaultsFirst (paths : List ResourcePath) : Prop :=
  paths.Pairwise fun first second => second.isDefault → first.isDefault

theorem defaultsFirst_sort (paths : List ResourcePath) :
    DefaultsFirst (Ordered.sort key paths) := by
  have htrans : IsTrans ResourcePath fun first second => second.isDefault → first.isDefault :=
    ⟨fun _ _ _ hfirst hsecond hdefault => hfirst (hsecond hdefault)⟩
  refine Ordered.pairwise_sort (fun first second hle hdefault => ?_)
    (fun first second hgt hdefault => ?_) paths
  · by_contra hqualified
    refine hle ?_
    simp only [key, hqualified, hdefault, List.compare_eq_compareLex, List.compareLex_cons_cons]
    rfl
  · by_contra hqualified
    simp only [key, hqualified, hdefault, List.compare_eq_compareLex,
      List.compareLex_cons_cons] at hgt
    cases hgt

end ResourcePath

/-! ## Readings one after the other -/

section Readings

variable {α β : Type} {disk : Disk Id} {places : List ResourcePath} {table new : ResourceTable}

/-- Two readings one after the other end well if both do. -/
theorem readings_bind {part : ExceptT AnalysisError Id α} {next : α → ExceptT AnalysisError Id β}
    {res : β} :
    (part >>= next).run = .ok res ↔ ∃ found, part.run = .ok found ∧
      (next found).run = .ok res := by
  obtain error | found := part
  · exact ⟨nofun, fun ⟨_, hpart, _⟩ => nomatch hpart⟩
  · exact ⟨fun h => ⟨found, rfl, h⟩, fun ⟨_, hpart, h⟩ => Except.ok.inj hpart ▸ h⟩

theorem place_of_read {place : ResourcePath} {file : ResourceFile}
    (h : (place.read disk).run = .ok file) : file.place = place := by
  obtain ⟨contents, _, hcontents⟩ := readings_bind.mp h
  cases contents with
  | none => cases hcontents
  | some contents =>
    cases hcontents
    rfl

theorem places_of_mapM_read {files : List ResourceFile}
    (h : (places.mapM (ResourcePath.read disk)).run = .ok files) :
    files.map ResourceFile.place = places := by
  induction places generalizing files with
  | nil =>
    cases h
    rfl
  | cons place rest ih =>
    rw [List.mapM_cons] at h
    obtain ⟨file, hfile, h⟩ := readings_bind.mp h
    obtain ⟨others, hothers, h⟩ := readings_bind.mp h
    cases h
    rw [List.map_cons, place_of_read hfile, ih hothers]

/-- A file may be read when its turn comes or before all turns. -/
theorem foldlM_read {step : ResourceTable → ResourceFile → Except AnalysisError ResourceTable}
    (h : (places.foldlM (fun table place => do step table (← place.read disk)) table :
      ExceptT AnalysisError Id ResourceTable).run = .ok new) :
    ∃ files, (places.mapM (ResourcePath.read disk)).run = .ok files ∧
      files.foldlM step table = .ok new := by
  induction places generalizing table with
  | nil => exact ⟨[], rfl, h⟩
  | cons place rest ih =>
    rw [List.foldlM_cons] at h
    obtain ⟨middle, hplace, h⟩ := readings_bind.mp h
    obtain ⟨file, hfile, hmiddle⟩ := readings_bind.mp hplace
    obtain ⟨files, hfiles, hrest⟩ := ih h
    refine ⟨file :: files, ?_, ?_⟩
    · rw [List.mapM_cons]
      exact readings_bind.mpr ⟨file, hfile, readings_bind.mpr ⟨files, hfiles, rfl⟩⟩
    · rw [List.foldlM_cons]
      exact except_bind_eq_ok.mpr ⟨middle, hmiddle, hrest⟩

end Readings

namespace Project

open ResourceTable

variable {disk : Disk Id} {sys side : Bool} {directory name : String}
variable {table valued new : ResourceTable}

/-! ## Readings of directories -/

theorem name_of_readLayout {file : ResourceFile} {layout : String × Option Element}
    (h : valued.readLayout sys file = .ok layout) : layout.1 = file.name := by
  unfold readLayout at h
  generalize Layout.read _ _ _ = out at h
  cases out with
  | error error => cases h
  | ok root =>
    cases h
    rfl

/-- Layout files are read as trees, or as nothing. -/
def ReadsLayouts (sys : Bool) (valued : ResourceTable)
    (layouts : List (ResourceFile × Option Element)) : Prop :=
  ∀ layout ∈ layouts, valued.readLayout sys layout.1 = .ok (layout.1.name, layout.2)

theorem exists_readsLayouts {places : List ResourcePath} {layouts : List (String × Option Element)}
    (h : (places.mapM (fun place => do valued.readLayout sys (← place.read disk)) :
      ExceptT AnalysisError Id _).run = .ok layouts) :
    ∃ read, (places.mapM (ResourcePath.read disk)).run = .ok (read.map Prod.fst) ∧
      ReadsLayouts sys valued read ∧
        read.map (fun layout => (layout.1.name, layout.2)) = layouts := by
  induction places generalizing layouts with
  | nil =>
    cases h
    exact ⟨[], rfl, nofun, rfl⟩
  | cons place rest ih =>
    rw [List.mapM_cons] at h
    obtain ⟨⟨name, root⟩, hplace, h⟩ := readings_bind.mp h
    obtain ⟨others, hothers, h⟩ := readings_bind.mp h
    cases h
    obtain ⟨file, hfile, hlayout⟩ := readings_bind.mp hplace
    obtain rfl : name = file.name := name_of_readLayout hlayout
    obtain ⟨read, hread, hlayouts, rfl⟩ := ih hothers
    refine ⟨(file, root) :: read, ?_, List.forall_mem_cons.mpr ⟨hlayout, hlayouts⟩, rfl⟩
    rw [List.mapM_cons]
    exact readings_bind.mpr ⟨file, hfile, readings_bind.mpr ⟨_, hread, rfl⟩⟩

/-- What is read of a resource directory: its files, with the trees of layouts and menus, the table
when the values have been entered, and the table when all has been entered but no inclusion has been
replaced. -/
structure DirectoryReading where
  values : List ResourceFile
  layouts : List (ResourceFile × Option Element)
  menus : List MenuRead
  valued : ResourceTable
  entered : ResourceTable

namespace DirectoryReading

variable {reading : DirectoryReading}

/-- The files of a kind that are read. -/
def files (reading : DirectoryReading) : ResourceFileKind → List ResourceFile
  | .values => reading.values
  | .layout => reading.layouts.map Prod.fst
  | .menu => reading.menus.map MenuRead.file

/-- The table when the values and the layouts have been entered. -/
def laid (reading : DirectoryReading) (sys : Bool) : ResourceTable :=
  reading.valued.enterLayouts sys (reading.layouts.map fun layout => (layout.1.name, layout.2))

/-- The reading of a directory on a disk, begun with a table. -/
structure Fits (disk : Disk Id) (sys : Bool) (directory : String) (table : ResourceTable)
    (reading : DirectoryReading) : Prop where
  /-- All files are read that a search comes upon, in order. -/
  found : ∀ kind, ((ResourcePath.ofKind kind (ResourcePath.find disk [directory])).mapM
    (ResourcePath.read disk)).run = .ok (reading.files kind)
  values : reading.values.foldlM (addValues sys) table = .ok reading.valued
  layouts : ReadsLayouts sys reading.valued reading.layouts
  menus : ReadsMenus sys reading.menus (reading.laid sys) reading.entered

theorem exists_fits (h : (addDirectory disk sys table directory).run = .ok new) :
    ∃ reading : DirectoryReading, reading.Fits disk sys directory table ∧
      new = reading.entered.resolveIncludes sys := by
  obtain ⟨_, ⟨⟩, h⟩ := readings_bind.mp h
  obtain ⟨valued, hvalues, h⟩ := readings_bind.mp h
  obtain ⟨_, hlayouts, h⟩ := readings_bind.mp h
  obtain ⟨entered, hmenus, h⟩ := readings_bind.mp h
  cases h
  obtain ⟨values, hvalueFiles, hvalues⟩ := foldlM_read hvalues
  obtain ⟨layouts, hlayoutFiles, hparsed, rfl⟩ := exists_readsLayouts hlayouts
  obtain ⟨menuFiles, hmenuFiles, hmenus⟩ := foldlM_read hmenus
  obtain ⟨menus, rfl, hreads⟩ := exists_readsMenus hmenus
  refine ⟨{ values, layouts, menus, valued, entered }, ⟨fun kind => ?_, hvalues, hparsed, hreads⟩,
    rfl⟩
  cases kind with
  | values => exact hvalueFiles
  | layout => exact hlayoutFiles
  | menu => exact hmenuFiles

/-- The files of a kind come in order, those for every configuration first. -/
theorem Fits.defaults_before (h : reading.Fits disk sys directory table)
    {kind : ResourceFileKind} {before after : List ResourceFile} {file : ResourceFile}
    (hfiles : reading.files kind = before ++ file :: after) (hfile : file.place.isDefault) :
    ∀ other ∈ before, other.place.isDefault := by
  have horder : ResourcePath.DefaultsFirst ((reading.files kind).map ResourceFile.place) := by
    rw [places_of_mapM_read (h.found kind)]
    exact (ResourcePath.defaultsFirst_sort _).filter _
  rw [hfiles] at horder
  have happart := (List.pairwise_append.mp (List.pairwise_map.mp horder)).2.2
  exact fun other hother => happart other hother file List.mem_cons_self hfile

/-! ## What each stage leaves alone -/

/-- Values declare identifiers, but invent none and bring no trees. -/
theorem trees_foldlM_addValues {files : List ResourceFile}
    (h : files.foldlM (addValues sys) table = .ok new) :
    new.ownLayouts sys = table.ownLayouts sys ∧ new.menus = table.menus ∧
      new.nextFresh = table.nextFresh := by
  refine foldlM_invariant (fun kept => kept.ownLayouts sys = table.ownLayouts sys ∧
    kept.menus = table.menus ∧ kept.nextFresh = table.nextFresh)
    (fun {middle file next} hfile hkept => ?_) h ⟨rfl, rfl, rfl⟩
  obtain ⟨content, _, hfile⟩ := except_bind_eq_ok.mp hfile
  cases hfile
  rw [ownLayouts_withOwn, menus_withOwn, nextFresh_withOwn]
  exact hkept

/-- Layouts leave the menus and the strings alone. -/
theorem same_laid (reading : DirectoryReading) :
    (menuShelf side).Same reading.valued (reading.laid sys) ∧
      (reading.laid sys).strings = reading.valued.strings := by
  refine List.foldlRecOn (motive := fun kept => (menuShelf side).Same reading.valued kept ∧
    kept.strings = reading.valued.strings) _ _ ⟨.refl _ _, rfl⟩ fun middle hmiddle layout _ => ?_
  have hsame : (menuShelf side).Same middle (middle.enterLayout sys layout.1 layout.2) ∧ _ :=
    same_enterLayout middle layout.1 layout.2
  exact ⟨hmiddle.1.trans hsame.1, hsame.2.trans hmiddle.2⟩

/-- The replacement of inclusions leaves the identifiers alone. -/
theorem own_resolveIncludes (table : ResourceTable) :
    (table.resolveIncludes sys).own sys = table.own sys :=
  own_withOwnLayouts _ _

end DirectoryReading

/-! ## Files for every configuration -/

/-- Of some files that are entered on a shelf, one for every configuration counts. Only such files
come before it. Its name has an identifier, which is the declared one if there is any. What is kept
for the identifier is the tree that it has already or else the tree of the file, unless a file before
has the same name or declares the identifier, or it is declared and one of those that the files use
up as well. -/
def KeepsDefaults (shelf : Shelf) (s new : ResourceTable) (used : Nat)
    (read : List (ResourceFile × Option Element)) (kept : ResId → Element → Prop) : Prop :=
  ∀ earlier file parsed later, read = earlier ++ (file, some parsed) :: later →
    file.place.isDefault →
      (∀ other ∈ earlier, other.1.place.isDefault) ∧
      ∃ id, shelf.id? new file.name = some id ∧
        (∀ declared, shelf.id? s file.name = some declared → id = declared) ∧
        (used ≤ 0x100000000 →
          (∀ other ∈ earlier, other.2 ≠ none →
            other.1.name ≠ file.name ∧ shelf.id? s other.1.name ≠ some id) →
          (shelf.id? s file.name = none ∨
            ∀ index < used, id ≠ s.nextFresh - Int32.ofNat index) →
          kept id (((shelf.trees s)[id]?).getD parsed))

theorem KeepsDefaults.imp {shelf : Shelf} {s t : ResourceTable} {used : Nat}
    {read : List (ResourceFile × Option Element)} {kept stays : ResId → Element → Prop}
    (h : KeepsDefaults shelf s new used read kept)
    (hids : ∀ name, shelf.id? t name = shelf.id? new name)
    (hstays : ∀ id tree, kept id tree → stays id tree) :
    KeepsDefaults shelf s t used read stays := by
  intro earlier file parsed later hread hfile
  obtain ⟨hearlier, id, hid, hdeclared, hkept⟩ := h earlier file parsed later hread hfile
  exact ⟨hearlier, id, (hids _).trans hid, hdeclared,
    fun hused hothers hapart => hstays id _ (hkept hused hothers hapart)⟩

namespace DirectoryReading

variable {reading : DirectoryReading}

/-- What is entered on a shelf, and only changed alike for all trees afterwards, keeps the files for
every configuration. -/
theorem Fits.keepsDefaults (h : reading.Fits disk sys directory table)
    {shelf : Shelf} {s t : ResourceTable} {used bound : Nat} {kind : ResourceFileKind}
    {read : List (ResourceFile × Option Element)} (hread : read.map Prod.fst = reading.files kind)
    (htakes : shelf.TakesAll (read.map fun entry => (entry.1.name, entry.2)) used s t)
    (hused : used ≤ bound) :
    KeepsDefaults shelf s t bound read fun id tree =>
      (shelf.trees t)[id]? = some tree := by
  rintro earlier file parsed later rfl hfile
  rw [List.map_append, List.map_cons] at htakes hread
  obtain ⟨id, hid⟩ := htakes.exists_id (List.mem_append_right _ List.mem_cons_self) nofun
  refine ⟨fun other hother => ?_, id, hid, fun declared hdeclared => ?_,
    fun hbound hothers hapart => ?_⟩
  · exact h.defaults_before hread.symm hfile other.1 (List.mem_map_of_mem hother)
  · exact Option.some.inj (hid.symm.trans (htakes.retains.ids hdeclared))
  · refine htakes.getElem?_trees hid (htakes.id?_ne (hused.trans hbound) hid ?_ ?_)
    · intro entry hentry hroot
      obtain ⟨other, hother, rfl⟩ := List.mem_map.mp hentry
      exact hothers other hother hroot
    · exact hapart.imp_right fun happart index hindex => happart index (hindex.trans_le hused)

/-- Layouts for every configuration are kept, with their inclusions replaced. -/
theorem Fits.keepsLayouts (h : reading.Fits disk sys directory table) :
    KeepsDefaults (layoutShelf sys) reading.valued (reading.entered.resolveIncludes sys)
      reading.layouts.length reading.layouts fun id tree =>
        ∃ children, ((reading.entered.resolveIncludes sys).ownLayouts sys)[id]? =
            some { tree with children } ∧
          ∀ res, Expands reading.entered sys (some [id]) tree.children res ↔
            res = children := by
  obtain ⟨used, hused, htakes⟩ := takesAll_enterLayouts reading.valued
    (reading.layouts.map fun layout => (layout.1.name, layout.2))
  rw [List.length_map] at hused
  have hmenus : (layoutShelf sys).Same (reading.laid sys) reading.entered := h.menus.same.1
  have hfiles : reading.layouts.map Prod.fst = reading.files .layout := rfl
  refine (h.keepsDefaults hfiles htakes hused).imp (fun name => ?_) fun id tree htree => ?_
  · show ((reading.entered.resolveIncludes sys).own sys).id? .layout name = _
    rw [own_resolveIncludes]
    exact hmenus.ids name
  · have hentered : (reading.entered.ownLayouts sys)[id]? = some tree := by
      rw [← htree]
      exact congrArg (·[id]?) hmenus.trees
    obtain ⟨children, hresolved, hexpands⟩ := resolved_expands hentered
    exact ⟨children, hresolved, fun res => hexpands.iff_eq⟩

end DirectoryReading

end Project

end WidgetFlow
