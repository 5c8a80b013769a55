import Mathlib.Data.List.Infix
import Mathlib.Data.List.TakeWhile
import WidgetFlow.Text.Blank
import WidgetFlow.Text.Pieces

/-!
# Cutting texts that were put together

What the functions that cut texts give on a text whose parts are known: a run of characters ends
where the next part begins, blanks around a part are dropped, and a part that stands in a text is
found, also across the places where the text was put together.
-/

namespace WidgetFlow.Text

variable {text rest run first second part separator : List Char} {c : Char} {inClass : Char → Bool}
  {pieces : List (List Char)}

/-! ## Literals and runs -/

theorem dropLiteral?_eq_some_iff {literal : List Char} :
    dropLiteral? literal text = some rest ↔ text = literal ++ rest := by
  fun_induction dropLiteral? literal text with
  | case1 => simp
  | case2 => simp
  | case3 literal c text ih => simp [ih]
  | case4 want literal c text hne => simp [Ne.symm hne]

theorem after?_eq_some_iff {literal : String} :
    after? literal text = some rest ↔ text = literal.toList ++ rest :=
  dropLiteral?_eq_some_iff

theorem after?_append (literal : String) (rest : List Char) :
    after? literal (literal.toList ++ rest) = some rest :=
  after?_eq_some_iff.mpr rfl

def Stops (inClass : Char → Bool) (text : List Char) : Prop :=
  ∀ c ∈ text.head?, inClass c = false

theorem Stops.nil : Stops inClass [] := by simp [Stops]

theorem Stops.cons (h : inClass c = false) : Stops inClass (c :: text) := by simpa [Stops] using h

theorem Stops.takeWhile_eq (h : Stops inClass text) : text.takeWhile inClass = [] := by
  cases text with
  | nil => rfl
  | cons c text => simp [h c rfl]

theorem Stops.dropWhile_eq (h : Stops inClass text) : text.dropWhile inClass = text := by
  cases text with
  | nil => rfl
  | cons c text => simp [h c rfl]

theorem Stops.takeWhile_append (h : Stops inClass rest) (hrun : ∀ c ∈ run, inClass c) :
    (run ++ rest).takeWhile inClass = run := by
  rw [List.takeWhile_append_of_pos hrun, h.takeWhile_eq, List.append_nil]

theorem Stops.dropWhile_append (h : Stops inClass rest) (hrun : ∀ c ∈ run, inClass c) :
    (run ++ rest).dropWhile inClass = rest := by
  rw [List.dropWhile_append_of_pos hrun, h.dropWhile_eq]

theorem run1?_append (hne : run ≠ []) (hrun : ∀ c ∈ run, inClass c) (h : Stops inClass rest) :
    run1? inClass (run ++ rest) = some (run, rest) := by
  unfold run1?
  rw [h.takeWhile_append hrun, h.dropWhile_append hrun]
  cases run with
  | nil => exact absurd rfl hne
  | cons c run => rfl

theorem run1?_cons (hc : inClass c) (h : Stops inClass rest) :
    run1? inClass (c :: rest) = some ([c], rest) := by
  have hrun : ∀ other ∈ [c], inClass other := by simpa using hc
  exact run1?_append (List.cons_ne_nil c []) hrun h

theorem run1?_eq_none (h : Stops inClass text) : run1? inClass text = none := by
  rw [run1?, h.takeWhile_eq]

theorem beforeLast?_append (c : Char) (text : List Char) :
    beforeLast? c (text ++ [c]) = some text := by
  induction text with
  | nil => simp [beforeLast?]
  | cons head rest ih =>
    rw [List.cons_append, beforeLast?, ih]
    · rfl
    · simp

/-! ## Blanks -/

/-- A text that neither begins nor ends with a character of a class. -/
structure Tight (inClass : Char → Bool) (text : List Char) : Prop where
  ne_nil : text ≠ []
  start : Stops inClass text
  finish : Stops inClass text.reverse

theorem Stops.append (hne : first ≠ []) (h : Stops inClass first) :
    Stops inClass (first ++ second) := by
  cases first with
  | nil => exact absurd rfl hne
  | cons c first => exact .cons (h c rfl)

theorem Stops.of_forall (h : ∀ c ∈ text, inClass c = false) : Stops inClass text :=
  fun c hc => h c (List.mem_of_mem_head? hc)

namespace Tight

theorem of_forall (hne : text ≠ []) (h : ∀ c ∈ text, inClass c = false) : Tight inClass text where
  ne_nil := hne
  start := .of_forall h
  finish := .of_forall (by simpa using h)

theorem of_all (hne : text ≠ []) (h : text.all fun c => !inClass c) : Tight inClass text :=
  of_forall hne (by simpa using h)

theorem mono {other : Char → Bool} (h : Tight inClass text)
    (hsub : ∀ c, inClass c = false → other c = false) : Tight other text :=
  ⟨h.ne_nil, fun c hc => hsub c (h.start c hc), fun c hc => hsub c (h.finish c hc)⟩

theorem append (h : Tight inClass first) (middle : List Char) (h' : Tight inClass second) :
    Tight inClass (first ++ middle ++ second) where
  ne_nil := by simp [h.ne_nil]
  start := by
    rw [List.append_assoc]
    exact h.start.append h.ne_nil
  finish := by
    rw [List.reverse_append]
    exact h'.finish.append (by simpa using h'.ne_nil)

end Tight

theorem dropEndWhile_append {drop : Char → Bool} {tail : List Char} (h : Stops drop text.reverse)
    (htail : ∀ c ∈ tail, drop c) : dropEndWhile drop (text ++ tail) = text := by
  rw [dropEndWhile, List.reverse_append, h.dropWhile_append (by simpa using htail),
    List.reverse_reverse]

/-- Trimming gives back what stands between the blanks. -/
theorem trim_append (lead trail : List Char) (h : Tight isBlank text)
    (hlead : ∀ c ∈ lead, isBlank c) (htrail : ∀ c ∈ trail, isBlank c) : trim (lead ++ text ++ trail) = text := by
  have hs : trimStart (lead ++ text ++ trail) = trimStart (text ++ trail) := by
    rw [trimStart, List.append_assoc, List.dropWhile_append_of_pos hlead]
    rfl
  have hkeep : trimStart (text ++ trail) = text ++ trail := by
    have hstops : Stops isBlank (text ++ trail) := h.start.append h.ne_nil
    exact hstops.dropWhile_eq
  rw [trim, hs, hkeep]
  exact dropEndWhile_append h.finish htrail

theorem Tight.trim_eq (h : Tight isBlank text) : trim text = text := by
  simpa using trim_append [] [] h (by simp) (by simp)

/-! ## Parts -/

theorem occursIn_iff : occursIn part text ↔ part <:+: text := by
  induction text with
  | nil => simp [occursIn]
  | cons c text ih =>
    rw [occursIn, Bool.or_eq_true, ih, List.isPrefixOf_iff_prefix, List.infix_cons_iff]

/-- A part that lacks a character stands on one side of it. -/
theorem infix_or_infix_of_not_mem (hne : part ≠ []) (hc : c ∉ part)
    (h : part <:+: first ++ c :: second) : part <:+: first ∨ part <:+: second := by
  obtain ⟨before, after, heq⟩ := h
  rw [List.append_assoc, List.append_eq_append_iff] at heq
  rcases heq with ⟨shared, rfl, hrest⟩ | ⟨shared, rfl, hrest⟩
  · rw [List.append_eq_append_iff] at hrest
    rcases hrest with ⟨more, rfl, _⟩ | ⟨more, rfl, hmore⟩
    · exact .inl ⟨before, more, by simp⟩
    · cases more with
      | nil => exact .inl ⟨before, [], by simp⟩
      | cons head more => simp_all
  · cases shared with
    | nil =>
      cases part with
      | nil => exact absurd rfl hne
      | cons head part => simp_all
    | cons head shared =>
      rw [List.cons_append, List.cons.injEq] at hrest
      exact .inr ⟨shared, after, by rw [hrest.2, List.append_assoc]⟩

/-- A part that ends with a character and has it nowhere else stands on one side of that character,
or ends with it. -/
theorem infix_concat_cases (hc : c ∉ part) (h : part ++ [c] <:+: first ++ c :: second) :
    part ++ [c] <:+: first ∨ part <:+ first ∨ part ++ [c] <:+: second := by
  obtain ⟨before, after, heq⟩ := h
  have heq : (before ++ part) ++ c :: after = first ++ c :: second := by simpa using heq
  rw [List.append_eq_append_iff] at heq
  rcases heq with ⟨shared, rfl, hrest⟩ | ⟨shared, hfirst, hrest⟩
  · cases shared with
    | nil => exact .inr (.inl ⟨before, by simp⟩)
    | cons head shared =>
      rw [List.cons_append, List.cons.injEq] at hrest
      exact .inl ⟨before, shared, by simp [hrest.1]⟩
  · cases shared with
    | nil => exact .inr (.inl ⟨before, by simpa using hfirst⟩)
    | cons head shared =>
      rw [List.cons_append, List.cons.injEq] at hrest
      obtain ⟨rfl, rfl⟩ := hrest
      rcases List.append_eq_append_iff.mp hfirst with ⟨more, _, hpart⟩ | ⟨more, _, hshared⟩
      · exact absurd (hpart ▸ by simp) hc
      · cases more with
        | nil =>
          have hpart : c :: shared = part := hshared
          exact absurd (hpart ▸ List.mem_cons_self) hc
        | cons head more =>
          rw [List.cons_append, List.cons.injEq] at hshared
          exact .inr (.inr ⟨more, after, by simp [hshared.2]⟩)

/-! ## Joined texts -/

theorem toList_joinWith (separator : String) (pieces : List String) :
    (joinWith separator pieces).toList =
      separator.toList.intercalate (pieces.map String.toList) :=
  String.toList_intercalate

/-- What stands in a joined text stands in a piece or in a separator. -/
theorem mem_intercalate (h : c ∈ separator.intercalate pieces) :
    c ∈ separator ∨ ∃ piece ∈ pieces, c ∈ piece := by
  induction pieces with
  | nil => simp at h
  | cons piece pieces ih =>
    cases pieces with
    | nil =>
      rw [List.intercalate_singleton] at h
      exact .inr ⟨piece, List.mem_cons_self, h⟩
    | cons next pieces =>
      rw [List.intercalate_cons_cons, List.mem_append, List.mem_append] at h
      rcases h with (h | h) | h
      · exact .inr ⟨piece, List.mem_cons_self, h⟩
      · exact .inl h
      · exact (ih h).imp_right fun ⟨found, hfound, hc⟩ =>
          ⟨found, List.mem_cons_of_mem _ hfound, hc⟩

theorem length_le_length_intercalate {piece : List Char}
    (h : piece ∈ pieces) : piece.length ≤ (separator.intercalate pieces).length := by
  induction pieces with
  | nil => exact absurd h List.not_mem_nil
  | cons first pieces ih =>
    cases pieces with
    | nil => simp_all
    | cons next pieces =>
      rw [List.intercalate_cons_cons, List.length_append, List.length_append]
      rcases List.mem_cons.mp h with rfl | hmem
      · omega
      · have := ih hmem
        omega

theorem splitOn_ne_nil (c : Char) (text : List Char) : splitOn c text ≠ [] := by
  cases text with
  | nil => simp [splitOn]
  | cons head text =>
    rw [splitOn]
    split
    · simp
    · split <;> simp

theorem splitOn_of_not_mem (h : c ∉ text) : splitOn c text = [text] := by
  induction text with
  | nil => rfl
  | cons head text ih =>
    rw [List.mem_cons, not_or] at h
    rw [splitOn, ih h.2]
    exact if_neg (Ne.symm h.1)

theorem splitOn_append_cons (h : c ∉ first) :
    splitOn c (first ++ c :: second) = first :: splitOn c second := by
  induction first with
  | nil =>
    rw [List.nil_append, splitOn]
    split
    next hnil => exact absurd hnil (splitOn_ne_nil c second)
    next hcons => rw [if_pos rfl, hcons]
  | cons head first ih =>
    rw [List.mem_cons, not_or] at h
    rw [List.cons_append, splitOn, ih h.2]
    exact if_neg (Ne.symm h.1)

/-- Splitting gives back the pieces that were joined. -/
theorem splitOn_intercalate (hne : pieces ≠ [])
    (h : ∀ piece ∈ pieces, c ∉ piece) : splitOn c ([c].intercalate pieces) = pieces := by
  induction pieces with
  | nil => exact absurd rfl hne
  | cons piece pieces ih =>
    cases pieces with
    | nil =>
      rw [List.intercalate_singleton]
      exact splitOn_of_not_mem (h piece List.mem_cons_self)
    | cons next pieces =>
      rw [List.intercalate_cons_cons, List.append_assoc, List.singleton_append,
        splitOn_append_cons (h piece List.mem_cons_self),
        ih (by simp) fun piece hpiece => h piece (List.mem_cons_of_mem _ hpiece)]

end WidgetFlow.Text
