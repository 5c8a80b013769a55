import WidgetFlow.Program.Stmt.Printer
import WidgetFlow.Program.Stmt.Reader
import WidgetFlow.Proofs.Text.Pieces

/-!
# Scanning texts with strings and brackets

Two scans go through a statement character by character: one looks for the assignment sign and one
for the commas between arguments. Neither may stop inside a string, and the second must not stop
inside brackets. `Tame` and `Balanced` describe the texts that the scans pass without stopping, and
an escaped string is such a text whatever stands in it.
-/

namespace WidgetFlow.Stmt

open Text

variable {c : Char} {text rest first second content piece before : List Char} {depth : Int}

/-! ## Strings -/

/-- A text between quotes, with what must be escaped. -/
def quote (content : List Char) : List Char := '"' :: content.flatMap escapeChar ++ ['"']

theorem escapeChar_eq (c : Char) :
    (c = '"' ∨ c = '\\') ∧ escapeChar c = ['\\', c] ∨
      c ≠ '"' ∧ c ≠ '\\' ∧ escapeChar c = [c] := by
  unfold escapeChar
  split
  next h => exact .inl ⟨h, rfl⟩
  next h => exact .inr ⟨fun hc => h (.inl hc), fun hc => h (.inr hc), rfl⟩

/-- A character that does not begin a pair stays. -/
theorem replacePair_cons {a b new : Char} (h : c ≠ a ∨ Stops (· == b) rest) :
    replacePair a b new (c :: rest) = c :: replacePair a b new rest := by
  cases rest with
  | nil => rfl
  | cons next rest =>
    rw [replacePair, if_neg]
    rintro ⟨hc, hnext⟩
    rcases h with h | h
    · exact h hc
    · simpa [hnext] using h next rfl

/-- An escaped text does not begin with a quote. -/
theorem stops_escaped (content : List Char) : Stops (· == '"') (content.flatMap escapeChar) := by
  cases content with
  | nil => exact .nil
  | cons c content =>
    rw [List.flatMap_cons]
    rcases escapeChar_eq c with ⟨_, hescape⟩ | ⟨hquote, _, hescape⟩ <;> rw [hescape]
    · exact .cons rfl
    · exact .cons (by simpa using hquote)

/-- A character as it stands between quotes once the quotes have lost their backslashes. -/
def doubleSlash (c : Char) : List Char := if c = '\\' then ['\\', c] else [c]

theorem replacePair_quotes (content : List Char) :
    replacePair '\\' '"' '"' (content.flatMap escapeChar) = content.flatMap doubleSlash := by
  induction content with
  | nil => rfl
  | cons c content ih =>
    rw [List.flatMap_cons, List.flatMap_cons, ← ih, doubleSlash]
    rcases escapeChar_eq c with ⟨rfl | rfl, hescape⟩ | ⟨_, hslash, hescape⟩ <;> rw [hescape]
    · simp [replacePair]
    · have hfirst : Stops (· == '"') ('\\' :: content.flatMap escapeChar) := .cons rfl
      rw [List.cons_append, List.singleton_append, replacePair_cons (.inr hfirst),
        replacePair_cons (.inr (stops_escaped content))]
      rfl
    · rw [List.singleton_append, replacePair_cons (.inl hslash), if_neg hslash]
      rfl

theorem replacePair_slashes (content : List Char) :
    replacePair '\\' '\\' '\\' (content.flatMap doubleSlash) = content := by
  induction content with
  | nil => rfl
  | cons c content ih =>
    rw [List.flatMap_cons, doubleSlash]
    by_cases hslash : c = '\\'
    · simp [hslash, replacePair, ih]
    · simp [hslash, replacePair_cons (.inl hslash), ih]

theorem unescape_escaped (content : List Char) :
    unescape (content.flatMap escapeChar) = content := by
  rw [unescape, replacePair_quotes, replacePair_slashes]

/-- The search for arguments passes the rest of a string. -/
theorem splitArgsFrom_content (content : List Char) :
    splitArgsFrom depth true false piece (content.flatMap escapeChar ++ '"' :: rest) =
      splitArgsFrom depth false false ('"' :: (content.flatMap escapeChar).reverse ++ piece)
        rest := by
  induction content generalizing piece with
  | nil => rfl
  | cons c content ih =>
    rw [List.flatMap_cons]
    rcases escapeChar_eq c with ⟨_, hescape⟩ | ⟨hquote, hslash, hescape⟩
    · simp [hescape, splitArgsFrom, ih]
    · have hstays : (c != '"') = true ∧ (c == '\\') = false := by simp [hquote, hslash]
      simp [hescape, splitArgsFrom, hstays, ih]

/-- The search for the assignment sign passes a quote. -/
theorem splitAssignment_quote (inString : Bool) :
    splitAssignment inString before ('"' :: rest) =
      splitAssignment (!inString) ('"' :: before) rest := by
  rw [splitAssignment.eq_def]
  simp

/-- The search for the assignment sign passes what is escaped. -/
theorem splitAssignment_escaped :
    splitAssignment true before ('\\' :: c :: rest) =
      splitAssignment true (c :: '\\' :: before) rest := by
  rw [splitAssignment.eq_def]
  simp

/-- The search for the assignment sign passes a character where no such sign begins. -/
theorem splitAssignment_cons {inString : Bool} (hquote : c ≠ '"') (hslash : inString → c ≠ '\\')
    (hsign : inString = false → Stops (· == '=') rest) :
    splitAssignment inString before (c :: rest) = splitAssignment inString (c :: before) rest := by
  have hescape : ¬(inString && c == '\\') := by
    rw [Bool.and_eq_true, beq_iff_eq]
    exact fun h => hslash h.1 h.2
  rw [splitAssignment.eq_def]
  dsimp only
  rw [if_neg hescape, if_neg (by simpa using hquote)]
  split
  next => simpa [Stops] using hsign rfl
  next => rfl

/-- The search for the assignment sign passes the rest of a string. -/
theorem splitAssignment_content (content : List Char) :
    splitAssignment true before (content.flatMap escapeChar ++ '"' :: rest) =
      splitAssignment false ('"' :: (content.flatMap escapeChar).reverse ++ before) rest := by
  induction content generalizing before with
  | nil => exact splitAssignment_quote true
  | cons c content ih =>
    rw [List.flatMap_cons]
    rcases escapeChar_eq c with ⟨_, hescape⟩ | ⟨hquote, hslash, hescape⟩
    · simp [hescape, splitAssignment_escaped, ih]
    · rw [hescape, List.append_assoc, List.singleton_append,
        splitAssignment_cons hquote (fun _ => hslash) (by simp), ih]
      simp

/-! ## Texts that are passed -/

/-- A character outside strings that is no sign for a scan. -/
def isInert (c : Char) : Bool :=
  !(['"', ',', '(', ')', '<', '>', '[', ']', '=', '\n'].contains c)

def isOpening (c : Char) : Bool := c == '(' || c == '<' || c == '['

def isClosing (c : Char) : Bool := c == ')' || c == '>' || c == ']'

/-- A text on one line with strings and brackets, all closed again, and no comma between them. -/
inductive Balanced : List Char → Prop where
  | nil : Balanced []
  | inert {c : Char} {rest : List Char} (hc : isInert c) (h : Balanced rest) : Balanced (c :: rest)
  | quoted {content rest : List Char} (hline : '\n' ∉ content) (h : Balanced rest) :
    Balanced (quote content ++ rest)
  | group {first last : Char} {inner rest : List Char} (hfirst : isOpening first)
    (hlast : isClosing last) (hinner : Balanced inner) (h : Balanced rest) :
    Balanced (first :: inner ++ last :: rest)

/-- A text whose strings are closed again, without an equality sign between them. -/
inductive Tame : List Char → Prop where
  | nil : Tame []
  | cons {c : Char} {rest : List Char} (hquote : c ≠ '"') (hsign : c ≠ '=') (h : Tame rest) :
    Tame (c :: rest)
  | quoted {content rest : List Char} (h : Tame rest) : Tame (quote content ++ rest)

theorem Balanced.append (h : Balanced first) (h' : Balanced second) :
    Balanced (first ++ second) := by
  induction h with
  | nil => exact h'
  | inert hc _ ih => exact .inert hc ih
  | quoted hline _ ih =>
    rw [List.append_assoc]
    exact .quoted hline ih
  | group hfirst hlast hinner _ _ ih =>
    rw [List.append_assoc]
    exact .group hfirst hlast hinner ih

theorem Balanced.of_inert (h : ∀ c ∈ text, isInert c) : Balanced text := by
  induction text with
  | nil => exact .nil
  | cons c text ih =>
    rw [List.forall_mem_cons] at h
    exact .inert h.1 (ih h.2)

theorem Tame.append (h : Tame first) (h' : Tame second) : Tame (first ++ second) := by
  induction h with
  | nil => exact h'
  | cons hquote hsign _ ih => exact .cons hquote hsign ih
  | quoted _ ih =>
    rw [List.append_assoc]
    exact .quoted ih

theorem Tame.of_forall (h : ∀ c ∈ text, c ≠ '"' ∧ c ≠ '=') : Tame text := by
  induction text with
  | nil => exact .nil
  | cons c text ih =>
    rw [List.forall_mem_cons] at h
    exact .cons h.1.1 h.1.2 (ih h.2)

theorem Tame.of_all (h : text.all fun c => c != '"' && c != '=') : Tame text :=
  .of_forall (by simpa using h)

theorem Tame.intercalate {separator : List Char} {pieces : List (List Char)}
    (hseparator : Tame separator) (h : ∀ piece ∈ pieces, Tame piece) :
    Tame (separator.intercalate pieces) := by
  induction pieces with
  | nil => exact .nil
  | cons piece pieces ih =>
    rw [List.forall_mem_cons] at h
    cases pieces with
    | nil =>
      rw [List.intercalate_singleton]
      exact h.1
    | cons next pieces =>
      rw [List.intercalate_cons_cons]
      exact (h.1.append hseparator).append (ih h.2)

theorem ne_of_isInert (h : isInert c) :
    c ≠ '"' ∧ c ≠ ',' ∧ isOpening c = false ∧ isClosing c = false ∧ c ≠ '=' ∧ c ≠ '\n' := by
  simp only [isInert, List.contains_eq_mem, List.mem_cons, List.not_mem_nil, or_false,
    Bool.not_eq_true', decide_eq_false_iff_not, not_or] at h
  simp [isOpening, isClosing, h]

theorem ne_of_isOpening (h : isOpening c) : c ≠ '"' ∧ c ≠ ',' ∧ c ≠ '=' ∧ c ≠ '\n' := by
  simp only [isOpening, Bool.or_eq_true, beq_iff_eq] at h
  rcases h with (rfl | rfl) | rfl <;> decide

theorem ne_of_isClosing (h : isClosing c) :
    c ≠ '"' ∧ c ≠ ',' ∧ c ≠ '=' ∧ c ≠ '\n' ∧ isOpening c = false := by
  simp only [isClosing, Bool.or_eq_true, beq_iff_eq] at h
  rcases h with (rfl | rfl) | rfl <;> decide

theorem Balanced.tame (h : Balanced text) : Tame text := by
  induction h with
  | nil => exact .nil
  | inert hc _ ih =>
    obtain ⟨hquote, _, _, _, hsign, _⟩ := ne_of_isInert hc
    exact .cons hquote hsign ih
  | quoted _ _ ih => exact .quoted ih
  | group hfirst hlast _ _ ihinner ih =>
    obtain ⟨hquote, _, hsign, _⟩ := ne_of_isOpening hfirst
    obtain ⟨hquote', _, hsign', _⟩ := ne_of_isClosing hlast
    exact .cons hquote hsign (ihinner.append (.cons hquote' hsign' ih))

theorem not_mem_quote (h : '\n' ∉ content) : '\n' ∉ quote content := by
  simp only [quote, List.cons_append, List.mem_cons, List.mem_append, List.mem_flatMap,
    List.not_mem_nil, or_false, not_or, not_exists, not_and]
  refine ⟨by decide, fun c hc => ?_, by decide⟩
  have hne : '\n' ≠ c := fun hline => h (hline ▸ hc)
  rcases escapeChar_eq c with ⟨_, hescape⟩ | ⟨_, _, hescape⟩ <;> simp [hescape, hne]

theorem Balanced.not_mem_newline (h : Balanced text) : '\n' ∉ text := by
  induction h with
  | nil => simp
  | inert hc _ ih => exact List.not_mem_cons_of_ne_of_not_mem (ne_of_isInert hc).2.2.2.2.2.symm ih
  | quoted hline _ ih => exact List.not_mem_append (not_mem_quote hline) ih
  | group hfirst hlast _ _ ihinner ih =>
    have hinner := List.not_mem_append ihinner
      (List.not_mem_cons_of_ne_of_not_mem (ne_of_isClosing hlast).2.2.2.1.symm ih)
    exact List.not_mem_cons_of_ne_of_not_mem (ne_of_isOpening hfirst).2.2.2.symm hinner

/-- The search for arguments passes a character that is neither a comma nor the beginning of a
string. -/
theorem splitArgsFrom_cons (hquote : c ≠ '"') (hcomma : c ≠ ',') :
    splitArgsFrom depth false false piece (c :: rest) =
      splitArgsFrom (if isOpening c then depth + 1 else if isClosing c then depth - 1 else depth)
        false false (c :: piece) rest := by
  have hstring : (c == '"') = false := by simpa using hquote
  rw [splitArgsFrom, if_neg Bool.false_ne_true, if_neg (by simp [hcomma]), hstring]
  rfl

theorem splitArgsFrom_quote :
    splitArgsFrom depth false false piece (quote content ++ rest) =
      splitArgsFrom depth false false ((quote content).reverse ++ piece) rest := by
  have hquote : quote content ++ rest = '"' :: (content.flatMap escapeChar ++ '"' :: rest) := by
    simp [quote]
  have hreverse : (quote content).reverse ++ piece =
      '"' :: (content.flatMap escapeChar).reverse ++ '"' :: piece := by simp [quote]
  rw [hquote, hreverse, ← splitArgsFrom_content]
  rfl

/-- The search for arguments passes a balanced text, at any depth. -/
theorem Balanced.splitArgsFrom (h : Balanced text) :
    splitArgsFrom depth false false piece (text ++ rest) =
      splitArgsFrom depth false false (text.reverse ++ piece) rest := by
  induction h generalizing depth piece rest with
  | nil => rfl
  | inert hc _ ih =>
    obtain ⟨hquote, hcomma, hopening, hclosing, _⟩ := ne_of_isInert hc
    rw [List.cons_append, splitArgsFrom_cons hquote hcomma, hopening, hclosing, ih]
    simp
  | quoted _ _ ih =>
    rw [List.append_assoc, splitArgsFrom_quote, ih, List.reverse_append, List.append_assoc]
  | group hfirst hlast _ _ ihinner ih =>
    obtain ⟨hquote, hcomma, _⟩ := ne_of_isOpening hfirst
    obtain ⟨hquote', hcomma', _, _, hopening⟩ := ne_of_isClosing hlast
    rw [List.append_assoc, List.cons_append, splitArgsFrom_cons hquote hcomma, if_pos hfirst,
      ihinner, List.cons_append, splitArgsFrom_cons hquote' hcomma', hopening, hlast, ih]
    simp

/-- Where the search for the assignment sign has passed a tame text, it goes on after it. -/
theorem Tame.stops (h : Tame text) (hrest : Stops (· == '=') rest) :
    Stops (· == '=') (text ++ rest) := by
  cases h with
  | nil => exact hrest
  | cons _ hsign _ => exact .cons (by simpa using hsign)
  | quoted _ => exact .cons rfl

/-- The search for the assignment sign passes a tame text. -/
theorem Tame.splitAssignment (h : Tame text) (hrest : Stops (· == '=') rest) :
    splitAssignment false before (text ++ rest) =
      splitAssignment false (text.reverse ++ before) rest := by
  induction h generalizing before with
  | nil => rfl
  | cons hquote _ h ih =>
    rw [List.cons_append, splitAssignment_cons hquote (by simp) fun _ => h.stops hrest, ih]
    simp
  | @quoted content text _ ih =>
    have hquote : quote content ++ text ++ rest =
        '"' :: (content.flatMap escapeChar ++ '"' :: (text ++ rest)) := by simp [quote]
    rw [hquote, splitAssignment_quote, Bool.not_false, splitAssignment_content, ih]
    simp [quote]

/-! ## Arguments -/

theorem splitArgsFrom_intercalate {arg lead : List Char} {args : List (List Char)}
    (hbalanced : ∀ other ∈ arg :: args, Balanced other)
    (htight : ∀ other ∈ arg :: args, Tight isBlank other) (hlead : ∀ c ∈ lead, isBlank c) :
    splitArgsFrom 0 false false lead ([',', ' '].intercalate (arg :: args)) = arg :: args := by
  have harg : trim (arg.reverse ++ lead).reverse = arg := by
    rw [List.reverse_append, List.reverse_reverse]
    simpa using trim_append lead.reverse [] (htight arg List.mem_cons_self) (by simpa using hlead)
  induction args generalizing arg lead with
  | nil =>
    rw [List.intercalate_singleton, ← List.append_nil arg,
      (hbalanced arg List.mem_cons_self).splitArgsFrom, splitArgsFrom, harg]
    simp [(htight arg List.mem_cons_self).ne_nil]
  | cons next args ih =>
    have hnext : ∀ other ∈ next :: args, other ∈ arg :: next :: args :=
      fun _ => List.mem_cons_of_mem _
    have hblank : ∀ c ∈ [' '], isBlank c := List.all_eq_true.mp rfl
    rw [List.intercalate_cons_cons, List.append_assoc,
      (hbalanced arg List.mem_cons_self).splitArgsFrom, List.cons_append, splitArgsFrom,
      if_neg Bool.false_ne_true, if_pos (by decide), harg, List.singleton_append,
      splitArgsFrom_cons (by decide) (by decide)]
    congr 1
    refine ih (fun other h => hbalanced other (hnext other h))
      (fun other h => htight other (hnext other h)) hblank ?_
    simpa using trim_append [' '] [] (htight next (by simp)) hblank

/-- The arguments of a call are found again. -/
theorem splitArgs_intercalate {args : List (List Char)} (hbalanced : ∀ arg ∈ args, Balanced arg)
    (htight : ∀ arg ∈ args, Tight isBlank arg) :
    splitArgs ([',', ' '].intercalate args) = args := by
  cases args with
  | nil => rfl
  | cons arg args => exact splitArgsFrom_intercalate hbalanced htight (by simp)

end WidgetFlow.Stmt
