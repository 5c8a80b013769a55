import WidgetFlow.Proofs.Text.Pieces
import WidgetFlow.Resource.Reference

/-!
# Spellings of references

A reference to an identifier of the platform has five spellings, and one to an identifier of the own
side has two. The forms of references are tried in order, so each spelling has to escape every form
that is tried before its own, whatever the name is: it may have slashes and colons in it, or begin
like another spelling.
-/

namespace WidgetFlow.Reference

open Text

variable {app sys : IdTable} {name : String} {system : Bool}

theorem read_platform {s : String}
    (h : s ∈ ["@android:id/", "@id/android:", "@+id/android:", "@+android:id/"]) :
    read app sys (s ++ name) system = named sys (some .id) name := by
  simp only [List.mem_cons, List.not_mem_nil, or_false] at h
  rcases h with rfl | rfl | rfl | rfl <;>
    simp [read, afterAny?, after?, dropLiteral?, String.toList_append]

/-- The kind and the name of a typed reference are the words around its slash. -/
theorem typed?_words {kind word : List Char} (hkind : kind ≠ []) (hword : word ≠ [])
    (hkinds : kind.all isWord) (hwords : word.all isWord) :
    typed? (kind ++ '/' :: word) = some (String.ofList kind, String.ofList word) := by
  have hslash : isWord '/' = false := by decide
  have hrun : run1? isWord (kind ++ '/' :: word) = some (kind, '/' :: word) :=
    run1?_append hkind (List.all_eq_true.mp hkinds) (.cons hslash)
  have hlast : run1? isWord word = some (word, []) := by
    simpa using run1?_append hword (List.all_eq_true.mp hwords) .nil
  simp [typed?, hrun, after?, dropLiteral?, hlast]

theorem read_private (hne : name ≠ "") (hword : name.toList.all isWord) :
    read app sys ("@*android:id/" ++ name) system = named sys (some .id) name := by
  have htyped : typed? ('i' :: 'd' :: '/' :: name.toList) = some ("id", name) := by
    have hwords := typed?_words (List.cons_ne_nil 'i' ['d']) (mt String.toList_eq_nil_iff.mp hne)
      rfl hword
    rwa [String.ofList_toList] at hwords
  have hkind : ResKind.parse? "id" = some .id := by decide
  simp [read, afterAny?, after?, dropLiteral?, String.toList_append, platformTyped?, htyped, hkind]

theorem read_own {s : String} (h : s ∈ ["@+id/", "@id/"])
    (hname : ¬"android:".toList <+: name.toList) :
    read app sys (s ++ name) system = named (if system then sys else app) (some .id) name := by
  have hdrop : dropLiteral? ['a', 'n', 'd', 'r', 'o', 'i', 'd', ':'] name.toList = none :=
    Option.eq_none_iff_forall_ne_some.mpr fun rest hrest =>
      hname ⟨rest, (dropLiteral?_eq_some_iff.mp hrest).symm⟩
  simp only [List.mem_cons, List.not_mem_nil, or_false] at h
  rcases h with rfl | rfl <;>
    simp [read, afterAny?, after?, dropLiteral?, String.toList_append, hdrop]

/-- Every spelling of an identifier of the platform names it in the platform's table, and both
spellings of an identifier of the own side name it in the table of that side. -/
theorem spellings_agree (app sys : IdTable) (name : String) (system : Bool) :
    (∀ s ∈ ["@android:id/", "@id/android:", "@+id/android:", "@+android:id/"],
      read app sys (s ++ name) system = ⟨some name, sys.id? .id name⟩) ∧
    (name ≠ "" → name.toList.all isWord →
      read app sys ("@*android:id/" ++ name) system = ⟨some name, sys.id? .id name⟩) ∧
    (¬"android:".toList <+: name.toList → ∀ s ∈ ["@+id/", "@id/"],
      read app sys (s ++ name) system =
        ⟨some name, (if system then sys else app).id? .id name⟩) :=
  ⟨fun _ => read_platform, read_private, fun hname _ hs => read_own hs hname⟩

/-- An identifier of the platform that is a word, in all spellings. -/
theorem spellings_agree_list :
    let sys := ({} : IdTable).insert .id "list" 7
    (∀ s ∈ ["@android:id/", "@id/android:", "@+id/android:", "@+android:id/"],
      read {} sys (s ++ "list") false = ⟨some "list", some 7⟩) ∧
    ("list" ≠ "" ∧ "list".toList.all isWord ∧
      read {} sys ("@*android:id/" ++ "list") false = ⟨some "list", some 7⟩) ∧
    ¬"android:".toList <+: "list".toList ∧ ∀ s ∈ ["@+id/", "@id/"],
      read {} sys (s ++ "list") false = ⟨some "list", none⟩ := by
  obtain ⟨hplatform, hprivate, hown⟩ :=
    spellings_agree {} (({} : IdTable).insert .id "list" 7) "list" false
  exact ⟨hplatform, ⟨by decide, by decide, hprivate (by decide) (by decide)⟩, by decide,
    hown (by decide)⟩

end WidgetFlow.Reference
