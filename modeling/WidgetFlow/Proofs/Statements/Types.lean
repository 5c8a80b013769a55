import WidgetFlow.Proofs.Statements.Written

/-!
# Reading types back

A type is read from a text if and only if its classes are named like types and the text is the one
that is written for it (`read?_eq_some_iff`): types and their texts stand for each other, with any
number of array brackets. The last section says more of the types in statements that can be written.
-/

namespace WidgetFlow.Ty

open Text

variable {ty : Ty} {name : String} {text rest : List Char} {c : Char}

/-- Whether a text has the form of the name of a type. -/
def isName : List Char → Bool
  | [] => false
  | c :: rest => isNameStart c && rest.all isNamePart

/-- Whether the classes in a type are named like types, but not like another type. -/
def isNamed : Ty → Bool
  | ref name => isName name.toList && !words.contains name
  | array e => e.isNamed
  | _ => true

theorem ofName_eq_ref (h : name ∉ words) : ofName name = .ref name := by
  simp only [words, List.mem_cons, List.not_mem_nil, or_false, not_or] at h
  simp [ofName, h]

/-! ## What is read -/

theorem isNamed_ofName (h : isName name.toList) :
    (ofName name).isNamed ∧ (ofName name).text = name := by
  by_cases hword : name ∈ words
  · simp only [words, List.mem_cons, List.not_mem_nil, or_false] at hword
    rcases hword with rfl | rfl | rfl | rfl | rfl | rfl | rfl | rfl | rfl | rfl <;> decide
  · simp [ofName_eq_ref hword, isNamed, h, hword, Ty.text]

theorem of_brackets? {base : Ty} (h : brackets? base text = some ty) :
    ty.isNamed = base.isNamed ∧ ty.text.toList = base.text.toList ++ text := by
  fun_induction brackets? base text with
  | case1 base =>
    cases h
    simp
  | case2 base rest ih => simpa [isNamed, Ty.text] using ih h
  | case3 => cases h

theorem of_read? (h : read? text = some ty) : ty.isNamed ∧ ty.text.toList = text := by
  cases text with
  | nil => cases h
  | cons c rest =>
    rw [read?] at h
    split at h
    next hc =>
      have hname : isName (String.ofList (c :: rest.takeWhile isNamePart)).toList := by
        simp only [String.toList_ofList, isName, hc, Bool.true_and, List.all_takeWhile]
      obtain ⟨hnamed, htext⟩ := isNamed_ofName hname
      obtain ⟨heq, hbrackets⟩ := of_brackets? h
      rw [heq, hbrackets, htext, String.toList_ofList, List.cons_append,
        List.takeWhile_append_dropWhile]
      exact ⟨hnamed, rfl⟩
    next => cases h

/-! ## What is written -/

theorem exists_of_isName (h : isName text) :
    ∃ c rest, text = c :: rest ∧ isNameStart c ∧ ∀ other ∈ rest, isNamePart other := by
  cases text with
  | nil => simp [isName] at h
  | cons c rest => exact ⟨c, rest, rfl, by simpa [isName] using h⟩

theorem isName_text (h : ty.isNamed) (harray : ty.element? = none) :
    isName ty.text.toList ∧ ofName ty.text = ty := by
  cases ty with
  | ref name =>
    rw [isNamed, Bool.and_eq_true] at h
    have hword : name ∉ words := by simpa using h.2
    exact ⟨h.1, ofName_eq_ref hword⟩
  | array e => simp [element?] at harray
  | _ => decide

/-- A type is read up to where its name cannot go on, and brackets that follow make arrays of it. -/
theorem read?_append (h : ty.isNamed) (hrest : Stops isNamePart rest) :
    read? (ty.text.toList ++ rest) = brackets? ty rest := by
  induction ty generalizing rest with
  | array e ih =>
    have htext : (array e).text.toList ++ rest =
        e.text.toList ++ '[' :: ']' :: rest := by simp [Ty.text, String.toList_append]
    rw [htext, ih h (.cons rfl), brackets?]
  | _ =>
    obtain ⟨hname, hofName⟩ := isName_text h rfl
    obtain ⟨c, more, htext, hc, hparts⟩ := exists_of_isName hname
    rw [htext, List.cons_append, read?, if_pos hc, hrest.takeWhile_append hparts,
      hrest.dropWhile_append hparts, ← htext, String.ofList_toList, hofName]

theorem read?_eq_some_iff : read? text = some ty ↔ ty.isNamed ∧ ty.text.toList = text := by
  refine ⟨of_read?, ?_⟩
  rintro ⟨h, rfl⟩
  simpa [brackets?] using read?_append h .nil

theorem wideWords_apart : wideWords.all fun word => blankRanges.all fun blank =>
    blank.2 < word.1 || word.2 < blank.1 := by
  decide +kernel

theorem isBlank_of_isNamePart (h : isNamePart c) : isBlank c = false := by
  simp only [isNamePart, isNameChar, isWord, Bool.or_eq_true, Bool.and_eq_true, beq_iff_eq] at h
  rcases h with ((hword | ⟨_, hwide⟩) | hdollar) | rfl
  · exact isBlank_of_isPlain (by simp only [isPlain, isNameStart, Bool.or_eq_true, beq_iff_eq]; tauto)
  · obtain ⟨word, hword, hinside⟩ := List.any_eq_true.mp hwide
    simp only [isBlank, inRanges, List.any_eq_false]
    intro blank hblank
    have hapart := List.all_eq_true.mp (List.all_eq_true.mp wideWords_apart word hword) blank hblank
    simp only [Bool.and_eq_true, Bool.or_eq_true, decide_eq_true_eq] at hinside hapart ⊢
    omega
  · exact isBlank_of_isPlain (by simp [isPlain, isNameStart, hdollar])
  · decide

theorem isNamePart_of_isName (h : isName text) (hc : c ∈ text) : isNamePart c := by
  obtain ⟨s, rest, rfl, hs, hrest⟩ := exists_of_isName h
  rcases List.mem_cons.mp hc with rfl | hc
  · simp [isNamePart, isNameChar_of_isPlain (isPlain_of_isNameStart hs)]
  · exact hrest c hc

theorem isBlank_of_mem_text (h : ty.isNamed) (hc : c ∈ ty.text.toList) : isBlank c = false := by
  induction ty with
  | array e ih =>
    rw [Ty.text, String.toList_append, List.mem_append] at hc
    rcases hc with hc | hc
    · exact ih h hc
    · have hbracket : c = '[' ∨ c = ']' := by simpa using hc
      rcases hbracket with rfl | rfl <;> decide
  | _ => exact isBlank_of_isNamePart (isNamePart_of_isName (isName_text h rfl).1 hc)

theorem read?_text (h : ty.isNamed) : read? ty.text.toList = some ty :=
  read?_eq_some_iff.mpr ⟨h, rfl⟩

theorem text_ne_nil (h : ty.isNamed) : ty.text.toList ≠ [] := by
  intro hnil
  have hread := read?_text h
  simp [hnil, read?] at hread

theorem parse?_text (h : ty.isNamed) : parse? ty.text = some ty := by
  have htight : Tight isBlank ty.text.toList :=
    .of_forall (text_ne_nil h) fun _ => isBlank_of_mem_text h
  rw [parse?, htight.trim_eq, read?_text h]

/-- Types and their texts stand for each other: a type that is read has the text that it was read
from, without the blanks around it, and a type whose classes are named like types is read from its
text. -/
theorem names_read_back :
    (∀ src ty, parse? src = some ty →
      ty.text.toList = trim src.toList ∧ parse? ty.text = some ty) ∧
    ∀ ty, ty.isNamed → parse? ty.text = some ty := by
  refine ⟨fun src ty h => ?_, fun _ => parse?_text⟩
  obtain ⟨hnamed, htext⟩ := of_read? h
  exact ⟨htext, parse?_text hnamed⟩

theorem names_read_back_rows :
    parse? " app.Row[][] " = some (array (array (ref "app.Row"))) ∧
      (array (array (ref "app.Row"))).text.toList = trim " app.Row[][] ".toList ∧
      (array (ref "int_")).isNamed ∧ parse? (array (ref "int_")).text = some (array (ref "int_")) := by
  have hread : parse? " app.Row[][] " = some (array (array (ref "app.Row"))) := by decide
  have hnamed : (array (ref "int_")).isNamed := by decide
  exact ⟨hread, (names_read_back.1 _ _ hread).1, hnamed, names_read_back.2 _ hnamed⟩

/-! ## Types in statements -/

theorem isNamePart_of_isDotted (h : isDotted text) (hc : c ∈ text) : isNamePart c := by
  rcases mem_of_isDotted h hc with hc | rfl
  · simp [isNamePart, isNameChar_of_isPlain hc]
  · rfl

/-- The classes in a type that can be written are named like types. -/
theorem named (h : ty.isWritten) : ty.isNamed := by
  induction ty with
  | ref name =>
    simp only [isWritten, isClassName, Bool.and_eq_true] at h
    obtain ⟨c, rest, htext, hc⟩ := exists_of_isDotted h.1.1
    have hrest : ∀ other ∈ rest, isNamePart other := fun other hother =>
      isNamePart_of_isDotted h.1.1 (htext ▸ List.mem_cons_of_mem c hother)
    simp only [isNamed, htext, isName, hc, Bool.true_and, Bool.and_eq_true, List.all_eq_true]
    exact ⟨hrest, h.1.2⟩
  | array e ih => exact ih h
  | _ => rfl

theorem isDotted_text (h : ty.isWritten) (harray : ty.element? = none) :
    isDotted ty.text.toList ∧ ¬"invoke".toList <:+ ty.text.toList := by
  cases ty with
  | ref name =>
    simp only [isWritten, isClassName, Bool.and_eq_true, Bool.not_eq_true', ← Bool.not_eq_true,
      List.isSuffixOf_iff_suffix] at h
    exact ⟨h.1.1, h.2⟩
  | array e => simp [element?] at harray
  | _ => exact ⟨by decide, by decide⟩

theorem mem_text (h : ty.isWritten) (hc : c ∈ ty.text.toList) :
    isPlain c ∨ c = '.' ∨ c = '[' ∨ c = ']' := by
  induction ty with
  | array e ih =>
    rw [Ty.text, String.toList_append, List.mem_append] at hc
    rcases hc with hc | hc
    · exact ih h hc
    · simpa [or_assoc] using Or.inr (Or.inr hc)
  | _ => exact (mem_of_isDotted (isDotted_text h rfl).1 hc).imp_right .inl

/-- No type ends like a word that begins a call. -/
theorem not_invoke_suffix (h : ty.isWritten) : ¬"invoke".toList <:+ ty.text.toList := by
  cases ty with
  | array e =>
    rintro ⟨before, heq⟩
    have hlast := congrArg List.getLast? heq
    simp [Ty.text, String.toList_append] at hlast
  | _ => exact (isDotted_text h rfl).2

end WidgetFlow.Ty
