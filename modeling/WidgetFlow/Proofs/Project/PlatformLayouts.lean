import WidgetFlow.Proofs.Project.Directories

/-!
# Layouts of the platform in a project

A project may bring a directory of platform resources. Its layouts are entered beside the built-in
ones, each under the identifier that its name has, and where an identifier has a tree already that
tree stays. So a file takes the place of the built-in layout of its name only if the directory
declares an identifier for the name that no built-in layout has (`Project.platform_layout_loaded`).
Without a declaration the built-in layout stays (`Project.builtin_layout_stays`).
-/

namespace WidgetFlow

namespace Project

open ResourceTable

variable {disk : Disk Id} {config : Config} {root directory name : String}
variable {table new : ResourceTable}

/-! ## Tables with the same layouts of the platform -/

theorem same_enterLayout_application (root : Option Element) :
    (layoutShelf true).Same table (table.enterLayout false name root) := by
  cases root with
  | none => exact .refl _ _
  | some root =>
    unfold enterLayout register
    cases (table.own false).id? .layout name <;> exact ⟨fun _ => rfl, rfl⟩

/-- The application does not change the layouts of the platform. -/
theorem same_addDirectory (h : (addDirectory disk false table directory).run = .ok new) :
    (layoutShelf true).Same table new := by
  obtain ⟨reading, hreading, rfl⟩ := DirectoryReading.exists_fits h
  have hvalued : (layoutShelf true).Same table reading.valued := by
    refine foldlM_invariant ((layoutShelf true).Same table) (fun hfile hkept => ?_) hreading.values
      (.refl _ table)
    obtain ⟨content, _, hfile⟩ := except_bind_eq_ok.mp hfile
    cases hfile
    exact hkept.trans ⟨fun _ => rfl, rfl⟩
  have hlaid : (layoutShelf true).Same reading.valued (reading.laid false) :=
    List.foldlRecOn _ _ (.refl _ _)
      fun middle hmiddle layout _ => hmiddle.trans (same_enterLayout_application layout.2)
  have hentered : (layoutShelf true).Same (reading.laid false) reading.entered :=
    hreading.menus.same.1
  exact hvalued.trans (hlaid.trans (hentered.trans ⟨fun _ => rfl, rfl⟩))

/-- A project that is loaded has read its directory of platform resources, and the application has
changed nothing of its layouts. -/
theorem exists_platformReading (hdirectory : config.platformResDir = some directory)
    (hload : (readResources disk config root).run = .ok table) :
    ∃ reading : DirectoryReading, reading.Fits disk true (Path.join root directory) .builtin ∧
      (layoutShelf true).Same (reading.entered.resolveIncludes true) table := by
  unfold readResources at hload
  rw [hdirectory] at hload
  obtain ⟨platform, hplatform, hload⟩ := readings_bind.mp hload
  obtain ⟨loaded, hloaded, hload⟩ := readings_bind.mp hload
  have htable : (layoutShelf true).Same loaded table := by
    obtain ⟨manifest, _, hload⟩ := readings_bind.mp hload
    cases manifest with
    | none =>
      cases hload
      exact .refl _ _
    | some manifest =>
      cases hload
      exact ⟨fun _ => rfl, rfl⟩
  obtain ⟨reading, hreading, rfl⟩ := DirectoryReading.exists_fits hplatform
  exact ⟨reading, hreading, (same_addDirectory hloaded).trans htable⟩

/-- A table has a tree for an identifier, with its inclusions replaced by the layouts of another
table. -/
def HasResolved (entered table : ResourceTable) (id : ResId) (tree : Element) : Prop :=
  ∃ children, table.layout? id = some { tree with children } ∧
    ∀ res, Expands entered true (some [id]) tree.children res ↔ res = children

end Project

/-! ## Sample projects -/

deriving instance DecidableEq for ResourceFile

namespace Sample

open ResourceTable Project

/-- A layout with the name of a built-in one. -/
def itemFile : ResourceFile where
  path := "plat/layout/simple_list_item_1.xml"
  kind := .layout
  name := "simple_list_item_1"
  contents := "<Button/>"

/-- A declaration of an identifier that no built-in layout has. -/
def publicFile : ResourceFile where
  path := "plat/values/public.xml"
  kind := .values
  name := "public"
  contents :=
    "<resources><public type='layout' name='simple_list_item_1' id='0x0109ffff'/></resources>"

/-- The disk that holds some files. -/
def diskOf (files : List ResourceFile) : Disk Id :=
  (FileTree.ofList (files.map fun file => (file.path, file.contents))).frozen

/-- The files of a kind that are read from a directory of such a disk. -/
def filesOf? (files : List ResourceFile) (directory : String) (kind : ResourceFileKind) :
    Option (List ResourceFile) :=
  Except.toOption ((ResourcePath.ofKind kind (ResourcePath.find (diskOf files) [directory])).mapM
    (ResourcePath.read (diskOf files))).run

theorem files_eq {files found : List ResourceFile} {directory : String} {sys : Bool}
    {table : ResourceTable} {reading : DirectoryReading}
    (h : reading.Fits (diskOf files) sys directory table) (kind : ResourceFileKind)
    (hfound : filesOf? files directory kind = some found) : reading.files kind = found := by
  unfold filesOf? at hfound
  rw [h.found kind] at hfound
  exact Option.some.inj hfound

def platformConfig : Config where
  platformResDir := some "plat"

/-- The identifier of the item and the class of its root in a project of some files. The application
has no layouts there. -/
def itemLoaded? (files : List ResourceFile) : Option (ResId × Option String) :=
  match (readResources (diskOf files) platformConfig "").run with
  | .ok table => do
    let id ← table.sysLayout? itemFile.name
    let tree ← table.layout? id
    if table.layouts.isEmpty then some (id, tree.owner) else none
  | .error _ => none

theorem exists_table_of_itemLoaded {files : List ResourceFile} {id : ResId} {owner : Option String}
    (h : itemLoaded? files = some (id, owner)) :
    ∃ table tree, (readResources (diskOf files) platformConfig "").run = .ok table ∧
      table.sysLayout? itemFile.name = some id ∧ table.layouts[id]? = none ∧
        table.layout? id = some tree ∧ tree.owner = owner := by
  unfold itemLoaded? at h
  split at h
  next table hload =>
    simp only [Option.bind_eq_bind, Option.bind_eq_some_iff, Option.ite_none_right_eq_some,
      Option.some.injEq, Prod.mk.injEq] at h
    obtain ⟨_, hid, tree, htree, hempty, rfl, howner⟩ := h
    exact ⟨table, tree, hload, hid, Std.TreeMap.getElem?_of_isEmpty hempty, htree, howner⟩
  next => cases h

/-- What some values and a layout file after them are read as: the identifier that is declared for the
file, and the class of its root. -/
def layoutRead? (sys : Bool) (values : List ResourceFile) (file : ResourceFile) :
    Option (Option ResId × Option String) :=
  match values.foldlM (addValues sys) .builtin with
  | .ok valued =>
    match valued.readLayout sys file with
    | .ok (_, some parsed) => some ((layoutShelf sys).id? valued file.name, parsed.owner)
    | _ => none
  | .error _ => none

/-- The first layout file of a directory is read as a tree. -/
theorem exists_parsed {files values others : List ResourceFile} {sys : Bool}
    {directory : String} {file : ResourceFile} {reading : DirectoryReading}
    {declared : Option ResId} {owner : Option String}
    (h : reading.Fits (diskOf files) sys directory .builtin)
    (hvalues : filesOf? files directory .values = some values)
    (hlayouts : filesOf? files directory .layout = some (file :: others))
    (hread : layoutRead? sys values file = some (declared, owner)) :
    ∃ parsed later, reading.layouts = (file, some parsed) :: later ∧
      later.map Prod.fst = others ∧ parsed.owner = owner ∧
        (layoutShelf sys).id? reading.valued file.name = declared := by
  obtain ⟨⟨first, root⟩, later, hlist, hfirst, hlater⟩ :=
    List.map_eq_cons_iff.mp (files_eq h _ hlayouts)
  obtain rfl : file = first := hfirst.symm
  have hparsed := h.layouts _ (hlist ▸ List.mem_cons_self)
  have hvalued := h.values
  rw [show reading.values = values from files_eq h _ hvalues] at hvalued
  unfold layoutRead? at hread
  simp only [hvalued, hparsed] at hread
  cases root with
  | none => cases hread
  | some parsed =>
    cases hread
    exact ⟨parsed, later, hlist, hlater, rfl, rfl⟩

end Sample

namespace Project

open ResourceTable

variable {disk : Disk Id} {config : Config} {root directory : String} {table : ResourceTable}

/-- In a loaded project, an unqualified layout file of the directory of platform resources has an
identifier, which is the declared one if any is. Unless another such file comes before it with the
same name or identifier, its layout is that of the built-in layout with this identifier, and only if
there is none that of the file. Either way the inclusions are replaced. -/
theorem platform_layout_loaded (hdirectory : config.platformResDir = some directory)
    (hload : (readResources disk config root).run = .ok table) :
    ∃ reading : DirectoryReading, reading.Fits disk true (Path.join root directory) .builtin ∧
      reading.valued.ownLayouts true = ResourceTable.builtin.sysLayouts ∧
      KeepsDefaults (layoutShelf true) reading.valued table reading.layouts.length reading.layouts
        fun id tree => table.layouts[id]? = none → HasResolved reading.entered table id tree := by
  obtain ⟨reading, hreading, hsame⟩ := exists_platformReading hdirectory hload
  refine ⟨reading, hreading, (DirectoryReading.trees_foldlM_addValues hreading.values).1,
    hreading.keepsLayouts.imp hsame.ids fun id tree hkept happ => ?_⟩
  obtain ⟨children, hresolved, hexpands⟩ := hkept
  have htrees : table.sysLayouts = _ := hsame.trees
  refine ⟨children, ?_, hexpands⟩
  rw [layout?, happ, htrees]
  exact hresolved

/-- A declaration of an identifier of its own makes the file of the sample count. -/
theorem platform_layout_loaded_declared :
    ∃ table reading parsed,
      (readResources (Sample.diskOf [Sample.itemFile, Sample.publicFile]) Sample.platformConfig
        "").run = .ok table ∧
      DirectoryReading.Fits (Sample.diskOf [Sample.itemFile, Sample.publicFile]) true "plat"
        .builtin reading ∧
      reading.layouts = [(Sample.itemFile, some parsed)] ∧
      parsed.owner = some "android.widget.Button" ∧
      HasResolved reading.entered table 0x0109ffff parsed := by
  have hitem : Sample.itemLoaded? [Sample.itemFile, Sample.publicFile] =
      some (0x0109ffff, some "android.widget.Button") := by decide +kernel
  have hvalues : Sample.filesOf? [Sample.itemFile, Sample.publicFile] "plat" .values =
      some [Sample.publicFile] := by decide +kernel
  have hlayouts : Sample.filesOf? [Sample.itemFile, Sample.publicFile] "plat" .layout =
      some [Sample.itemFile] := by decide +kernel
  have hparsed : Sample.layoutRead? true [Sample.publicFile] Sample.itemFile =
      some (some 0x0109ffff, some "android.widget.Button") := by decide +kernel
  have hnew : ResourceTable.builtin.sysLayouts[(0x0109ffff : ResId)]? = none := by
    have hcontains : ResourceTable.builtin.sysLayouts.contains 0x0109ffff = false := by
      decide +kernel
    exact Std.TreeMap.getElem?_eq_none_of_contains_eq_false hcontains
  obtain ⟨table, tree, hload, hid, happ, _⟩ := Sample.exists_table_of_itemLoaded hitem
  obtain ⟨reading, hreading, htrees, hkeeps⟩ := platform_layout_loaded rfl hload
  have hplat : Path.join "" "plat" = "plat" := by decide
  rw [hplat] at hreading
  obtain ⟨parsed, later, hread, hlater, howner, _⟩ :=
    Sample.exists_parsed hreading hvalues hlayouts hparsed
  obtain rfl := List.map_eq_nil_iff.mp hlater
  have hdefault : Sample.itemFile.place.isDefault := by decide +kernel
  obtain ⟨_, id, hid', _, hkept⟩ := hkeeps [] Sample.itemFile parsed [] hread hdefault
  cases hid.symm.trans hid'
  rw [show (layoutShelf true).trees reading.valued = _ from htrees, hnew] at hkept
  have hnext : reading.valued.nextFresh = ResourceTable.builtin.nextFresh :=
    (DirectoryReading.trees_foldlM_addValues hreading.values).2.2
  refine ⟨table, reading, parsed, hload, hreading, hread, howner, ?_⟩
  refine hkept (by simp [hread]) nofun (.inr fun index hindex => ?_) happ
  -- the first identifier to invent is not the declared one
  obtain rfl : index = 0 := by simpa [hread] using hindex
  rw [hnext]
  decide

/-- A file with the name of a built-in layout need not take its place: without a declaration the name
keeps its identifier, and the identifier its tree. -/
theorem builtin_layout_stays :
    ¬ ∀ (disk : Disk Id) (config : Config) (root directory : String) (table : ResourceTable),
      config.platformResDir = some directory →
      (readResources disk config root).run = .ok table →
      ∀ reading : DirectoryReading, reading.Fits disk true (Path.join root directory) .builtin →
        ∀ file parsed, (file, some parsed) ∈ reading.layouts → file.place.isDefault →
          ResourceTable.builtin.sysLayout? file.name ≠ none →
            ∃ id, table.sysLayout? file.name = some id ∧
              (table.layouts[id]? = none → HasResolved reading.entered table id parsed) := by
  intro hall
  have hitem : Sample.itemLoaded? [Sample.itemFile] =
      some (0x01090003, some "android.widget.TextView") := by decide +kernel
  have hvalues : Sample.filesOf? [Sample.itemFile] "plat" .values = some [] := by decide +kernel
  have hlayouts : Sample.filesOf? [Sample.itemFile] "plat" .layout = some [Sample.itemFile] := by
    decide +kernel
  have hparsed : Sample.layoutRead? true [] Sample.itemFile =
      some (some 0x01090003, some "android.widget.Button") := by decide +kernel
  have hbuiltin : ResourceTable.builtin.sysLayout? Sample.itemFile.name ≠ none := by
    decide +kernel
  have hdefault : Sample.itemFile.place.isDefault := by decide +kernel
  obtain ⟨table, tree, hload, hid, happ, htree, howner⟩ := Sample.exists_table_of_itemLoaded hitem
  obtain ⟨reading, hreading, _⟩ := exists_platformReading rfl hload
  have hplat : Path.join "" "plat" = "plat" := by decide
  have hreading' := hreading
  rw [hplat] at hreading'
  obtain ⟨parsed, later, hread, _, hbutton, _⟩ :=
    Sample.exists_parsed hreading' hvalues hlayouts hparsed
  obtain ⟨id, hid', hresolved⟩ := hall _ _ _ _ table rfl hload reading hreading Sample.itemFile
    parsed (hread ▸ List.mem_cons_self) hdefault hbuiltin
  cases hid.symm.trans hid'
  obtain ⟨children, hlayout, _⟩ := hresolved happ
  cases htree.symm.trans hlayout
  -- the root of the file is a button and that of the built-in layout a text
  have hclass : parsed.owner = some "android.widget.TextView" := howner
  simp [hbutton] at hclass

end Project

end WidgetFlow
