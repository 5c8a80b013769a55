import WidgetFlow.Proofs.Project.PlatformLayouts

/-!
# Resources for every configuration

A resource directory may define a resource more than once: for every configuration of a device, and
again for some configurations. Files for every configuration are read first. Of the trees of a
layout or a menu the first counts, so the one for every configuration is kept, unless its identifier
is used by another file for every configuration before. Of the texts of a string the last counts, so
the one for every configuration is kept only if there is no other (`Project.defaults_kept`,
`Project.qualified_string_kept`).
-/

namespace WidgetFlow

/-! ## Strings -/

/-- The texts of strings that a values file defines. -/
def ResourceFile.strings (file : ResourceFile) : List (String × String) :=
  match Values.read file.path (Markup.events file.contents) with
  | .ok content => content.strings
  | .error _ => []

namespace ResourceTable

variable {table new : ResourceTable} {sys : Bool} {file : ResourceFile} {name : String}
variable {files : List ResourceFile}

theorem getElem?_foldl_insert (entries : List (String × String))
    (strings : Std.TreeMap String String) :
    (∃ text, (name, text) ∈ entries ∧ (entries.foldl (fun strings entry =>
        strings.insert entry.1 entry.2) strings)[name]? = some text) ∨
      (∀ text, (name, text) ∉ entries) ∧ (entries.foldl (fun strings entry =>
        strings.insert entry.1 entry.2) strings)[name]? = strings[name]? := by
  induction entries generalizing strings with
  | nil => exact .inr ⟨fun _ => List.not_mem_nil, rfl⟩
  | cons entry rest ih =>
    obtain ⟨key, v⟩ := entry
    rw [List.foldl_cons]
    rcases ih (strings.insert key v) with ⟨text, hmem, hkept⟩ | ⟨hnone, hkept⟩
    · exact .inl ⟨text, List.mem_cons_of_mem _ hmem, hkept⟩
    · have hinsert : (strings.insert key v)[name]? =
          if key = name then some v else strings[name]? := by
        simp only [Std.TreeMap.getElem?_insert, Std.compare_eq_iff_eq]
      rw [hkept, hinsert]
      by_cases hkey : key = name
      · exact .inl ⟨v, by rw [hkey]; exact List.mem_cons_self, if_pos hkey⟩
      · refine .inr ⟨fun text hmem => ?_, if_neg hkey⟩
        rcases List.mem_cons.mp hmem with heq | hmem
        · exact hkey (congrArg Prod.fst heq).symm
        · exact hnone text hmem

theorem strings_addValues (h : addValues false table file = .ok new) :
    (∃ text, (name, text) ∈ file.strings ∧ new.strings[name]? = some text) ∨
      (∀ text, (name, text) ∉ file.strings) ∧ new.strings[name]? = table.strings[name]? := by
  obtain ⟨content, hcontent, h⟩ := except_bind_eq_ok.mp h
  cases h
  unfold ResourceFile.strings
  rw [hcontent]
  exact getElem?_foldl_insert content.strings table.strings

/-- The last file that defines a string counts. -/
theorem strings_foldlM_addValues (h : files.foldlM (addValues false) table = .ok new) :
    (∃ before file after text, files = before ++ file :: after ∧ (name, text) ∈ file.strings ∧
        (∀ later ∈ after, ∀ other, (name, other) ∉ later.strings) ∧ new.strings[name]? = some text) ∨
      (∀ file ∈ files, ∀ text, (name, text) ∉ file.strings) ∧
        new.strings[name]? = table.strings[name]? := by
  induction files generalizing table with
  | nil =>
    cases h
    exact .inr ⟨nofun, rfl⟩
  | cons file rest ih =>
    rw [List.foldlM_cons] at h
    obtain ⟨middle, hfile, hrest⟩ := except_bind_eq_ok.mp h
    rcases ih hrest with ⟨before, last, after, text, rfl, hkept⟩ | ⟨hnone, hkept⟩
    · exact .inl ⟨file :: before, last, after, text, rfl, hkept⟩
    · rw [hkept]
      rcases strings_addValues hfile with ⟨text, hdefines, htext⟩ | ⟨hfile, hsame⟩
      · exact .inl ⟨[], file, rest, text, rfl, hdefines, hnone, htext⟩
      · exact .inr ⟨List.forall_mem_cons.mpr ⟨hfile, hnone⟩, hsame⟩

end ResourceTable

/-! ## Directories -/

namespace Project

open ResourceTable

variable {disk : Disk Id} {sys : Bool} {directory : String} {table new : ResourceTable}
variable {reading : DirectoryReading}

/-- Menus for every configuration are kept. -/
theorem DirectoryReading.Fits.keepsMenus (h : reading.Fits disk sys directory table) :
    KeepsDefaults (menuShelf sys) (reading.laid sys)
      (reading.entered.resolveIncludes sys) (cost sys reading.menus)
      (reading.menus.map fun menu => (menu.file, menu.root)) fun id tree =>
        (reading.entered.resolveIncludes sys).menus[id]? = some tree := by
  obtain ⟨used, hused, htakes⟩ := h.menus.takesAll
  have hfiles : (reading.menus.map fun menu => (menu.file, menu.root)).map Prod.fst =
      reading.files .menu := List.map_map
  have hentries : (reading.menus.map fun menu => (menu.file, menu.root)).map
      (fun entry => (entry.1.name, entry.2)) =
        reading.menus.map fun menu => (menu.file.name, menu.root) := List.map_map
  rw [← hentries] at htakes
  refine (h.keepsDefaults hfiles htakes hused).imp (fun name => ?_) fun id tree htree => ?_
  · show ((reading.entered.resolveIncludes sys).own sys).id? .menu name = _
    rw [own_resolveIncludes]
    rfl
  · rw [resolveIncludes, menus_withOwnLayouts]
    exact htree

/-- The text that is kept for a string comes from one of the files that define it, and from one for
every configuration if and only if no other defines it. -/
def KeepsStrings (files : List ResourceFile) (new : ResourceTable) : Prop :=
  ∀ name, (∃ file ∈ files, ∃ text, (name, text) ∈ file.strings) →
    ∃ src ∈ files, ∃ text, (name, text) ∈ src.strings ∧
      new.strings[name]? = some text ∧
      (∀ id, new.app.name? .string id = some name → new.stringValue? id = some text) ∧
      (src.place.isDefault ↔
        ∀ other ∈ files, ∀ text, (name, text) ∈ other.strings → other.place.isDefault)

theorem DirectoryReading.Fits.keepsStrings (h : reading.Fits disk false directory table) :
    KeepsStrings reading.values (reading.entered.resolveIncludes false) := by
  have hstrings : (reading.entered.resolveIncludes false).strings = reading.valued.strings := by
    have hlaid : (menuShelf false).Same _ _ ∧ (reading.laid false).strings = _ := reading.same_laid
    have hentered : (layoutShelf false).Same _ _ ∧ reading.entered.strings = _ := h.menus.same
    rw [resolveIncludes, strings_withOwnLayouts, hentered.2, hlaid.2]
  rintro name ⟨file, hfile, text, hdefines⟩
  rcases strings_foldlM_addValues h.values with
    ⟨before, last, after, kept, hfiles, hlast, hafter, hkept⟩ | ⟨hnone, _⟩
  · have hmem : last ∈ reading.values := by simp [hfiles]
    rw [← hstrings] at hkept
    refine ⟨last, hmem, kept, hlast, hkept, fun id hid => ?_,
      fun hdefault other hother text hother' => ?_, fun hall => hall last hmem kept hlast⟩
    · rw [stringValue?, hid, Option.bind_some, hkept]
    · rw [hfiles] at hother
      rcases List.mem_append.mp hother with hbefore | hrest
      · have hvalues : reading.files .values = before ++ last :: after := hfiles
        exact h.defaults_before hvalues hdefault other hbefore
      · rcases List.mem_cons.mp hrest with rfl | hlater
        · exact hdefault
        · exact absurd hother' (hafter other hlater text)
  · exact absurd hdefines (hnone file hfile text)

/-- In a directory that is entered into a table, layouts and menus for every configuration are kept
whatever other configurations define, but texts of strings only where no other configuration defines
one. -/
theorem defaults_kept (h : (addDirectory disk sys table directory).run = .ok new) :
    ∃ reading : DirectoryReading, reading.Fits disk sys directory table ∧
      KeepsDefaults (layoutShelf sys) reading.valued new reading.layouts.length reading.layouts
        (fun id tree => ∃ children, (new.ownLayouts sys)[id]? = some { tree with children } ∧
          ∀ res, Expands reading.entered sys (some [id]) tree.children res ↔
            res = children) ∧
      KeepsDefaults (menuShelf sys) (reading.laid sys) new (cost sys reading.menus)
        (reading.menus.map fun menu => (menu.file, menu.root))
        (fun id tree => new.menus[id]? = some tree) ∧
      reading.valued.ownLayouts sys = table.ownLayouts sys ∧
      (reading.laid sys).menus = table.menus ∧
      (∀ name, ((reading.laid sys).own sys).id? .menu name =
        (reading.valued.own sys).id? .menu name) ∧
      (sys = false → KeepsStrings reading.values new) := by
  obtain ⟨reading, hreading, rfl⟩ := DirectoryReading.exists_fits h
  obtain ⟨hlayouts, hmenus, _⟩ := DirectoryReading.trees_foldlM_addValues hreading.values
  have hlaid : (menuShelf sys).Same reading.valued (reading.laid sys) := reading.same_laid.1
  refine ⟨reading, hreading, hreading.keepsLayouts, hreading.keepsMenus, hlayouts,
    hlaid.trees.trans hmenus, hlaid.ids, ?_⟩
  rintro rfl
  exact hreading.keepsStrings

end Project

/-! ## A sample directory -/

namespace Sample

open ResourceTable Project

def greeting : ResourceFile where
  path := "res/values/strings.xml"
  kind := .values
  name := "strings"
  contents := "<resources><string name='hi'>Hello</string></resources>"

def frenchGreeting : ResourceFile where
  path := "res/values-fr/strings.xml"
  kind := .values
  name := "strings"
  contents := "<resources><string name='hi'>Bonjour</string></resources>"

def mainLayout : ResourceFile where
  path := "res/layout/main.xml"
  kind := .layout
  name := "main"
  contents := "<Button/>"

def landLayout : ResourceFile :=
  { mainLayout with path := "res/layout-land/main.xml", contents := "<TextView/>" }

/-- A directory with a layout, a menu and a text, each for every configuration and for another one. -/
def configured : List ResourceFile := [
  mainLayout,
  { path := "res/menu/main.xml", kind := .menu, name := "main"
    contents := "<menu><item android:id='@+id/open'/></menu>" },
  greeting,
  landLayout,
  { path := "res/menu-land/main.xml", kind := .menu, name := "main", contents := "<menu/>" },
  frenchGreeting]

/-- What is kept of the directory: the class of the layout, the number of items in the menu, and the
text. -/
def configuredKept? : Option (Option String × Nat × String) := do
  let table ← Except.toOption (addDirectory (diskOf configured) false .builtin "res").run
  let layout ← (table.app.id? .layout "main").bind (table.layouts[·]?)
  let menu ← (table.app.id? .menu "main").bind (table.menus[·]?)
  let text ← table.strings["hi"]?
  some (layout.owner, menu.children.length, text)

theorem exists_configured : ∃ new,
    (addDirectory (diskOf configured) false .builtin "res").run = .ok new ∧
      new.strings["hi"]? = some "Bonjour" := by
  -- the layout and the menu for every configuration are kept
  have hkept : configuredKept? = some (some "android.widget.Button", 1, "Bonjour") := by
    decide +kernel
  unfold configuredKept? at hkept
  generalize (addDirectory (diskOf configured) false .builtin "res").run = res at hkept ⊢
  cases res with
  | error error => cases hkept
  | ok new =>
    simp only [Except.toOption, Option.bind_eq_bind, Option.bind_some, Option.bind_eq_some_iff,
      Option.some.injEq, Prod.mk.injEq] at hkept
    obtain ⟨_, _, _, _, text, htext, _, _, rfl⟩ := hkept
    exact ⟨new, rfl, htext⟩

end Sample

namespace Project

open ResourceTable

/-- In the sample directory no identifier is declared, so the layout for every configuration is kept
under an invented one. -/
theorem defaults_kept_configured :
    ∃ (new : ResourceTable) (reading : DirectoryReading) (id : ResId) (parsed : Element),
      (addDirectory (Sample.diskOf Sample.configured) false .builtin "res").run = .ok new ∧
      reading.Fits (Sample.diskOf Sample.configured) false "res" .builtin ∧
      new.app.id? .layout "main" = some id ∧ parsed.owner = some "android.widget.Button" ∧
      (∃ children, new.layouts[id]? = some { parsed with children }) ∧
      KeepsStrings reading.values new := by
  obtain ⟨new, hload, _⟩ := Sample.exists_configured
  obtain ⟨reading, hreading, hlayouts, _, htrees, _, _, hstrings⟩ := defaults_kept hload
  have hvalues : Sample.filesOf? Sample.configured "res" .values =
      some [Sample.greeting, Sample.frenchGreeting] := by decide +kernel
  have hfiles : Sample.filesOf? Sample.configured "res" .layout =
      some [Sample.mainLayout, Sample.landLayout] := by decide +kernel
  have hread : Sample.layoutRead? false [Sample.greeting, Sample.frenchGreeting] Sample.mainLayout =
      some (none, some "android.widget.Button") := by decide +kernel
  have hdefault : Sample.mainLayout.place.isDefault := by decide +kernel
  obtain ⟨parsed, later, hlist, hlater, howner, hdeclared⟩ :=
    Sample.exists_parsed hreading hvalues hfiles hread
  obtain ⟨_, id, hid, _, hkept⟩ := hlayouts [] Sample.mainLayout parsed later hlist hdefault
  have htree : (((layoutShelf false).trees reading.valued)[id]?).getD parsed = parsed := by
    rw [show (layoutShelf false).trees reading.valued = _ from htrees]
    rfl
  rw [htree] at hkept
  have hlength : reading.layouts.length = 2 := by
    rw [hlist, List.length_cons, ← List.length_map Prod.fst, hlater]
    rfl
  obtain ⟨children, hlayout, _⟩ := hkept (by omega) nofun (.inl hdeclared)
  exact ⟨new, reading, id, parsed, hload, hreading, hid, howner, ⟨children, hlayout⟩, hstrings rfl⟩

/-- A text for every configuration need not be kept: in the sample directory it is the French one. -/
theorem qualified_string_kept :
    ¬ ∀ (disk : Disk Id) (directory : String) (table new : ResourceTable)
        (reading : DirectoryReading),
      (addDirectory disk false table directory).run = .ok new →
      reading.Fits disk false directory table →
      ∀ file ∈ reading.values, file.place.isDefault →
        ∀ name text, (name, text) ∈ file.strings →
          ∃ src ∈ reading.values, src.place.isDefault ∧
            ∃ kept, (name, kept) ∈ src.strings ∧ new.strings[name]? = some kept := by
  intro hall
  obtain ⟨new, hload, hkept⟩ := Sample.exists_configured
  obtain ⟨reading, hreading, _⟩ := DirectoryReading.exists_fits hload
  have hvalues : reading.values = [Sample.greeting, Sample.frenchGreeting] :=
    Sample.files_eq hreading .values (by decide +kernel)
  have hdefault : Sample.greeting.place.isDefault := by decide +kernel
  have hfrench : ¬ Sample.frenchGreeting.place.isDefault := by decide +kernel
  have htexts : Sample.greeting.strings = [("hi", "Hello")] := by decide +kernel
  obtain ⟨src, hsource, hplace, text, htext, hnew⟩ :=
    hall _ _ _ new reading hload hreading Sample.greeting (by simp [hvalues]) hdefault "hi" "Hello"
      (by simp [htexts])
  rw [hvalues] at hsource
  obtain rfl : src = Sample.greeting := by
    rcases List.mem_cons.mp hsource with hgreeting | hother
    · exact hgreeting
    · rw [List.mem_singleton.mp hother] at hplace
      exact absurd hplace hfrench
  -- the text that is kept is not the one of the only file for every configuration
  rw [htexts, List.mem_singleton] at htext
  cases htext
  simp [hkept] at hnew

end Project

end WidgetFlow
