import WidgetFlow.Proofs.Statements.Scanning
import WidgetFlow.Proofs.Statements.Types
import WidgetFlow.Proofs.Text.Numerals

/-!
# The forms of values

The forms of a value are tried in a fixed order, so the reading of one form needs that the forms
before it refuse the text. A text says so early: by its first character, by what follows its first
name, or by mentioning no call. Integers and members are read here, since several forms have them.
-/

namespace WidgetFlow

open Text

namespace Stmt

variable {c : Char} {text rest first second : List Char}

/-! ## Quiet texts -/

theorem mentionsCall_eq_false : mentionsCall text = false ↔ ¬"invoke ".toList <:+: text := by
  rw [mentionsCall, ← occursIn_iff, Bool.not_eq_true]

theorem not_mentionsCall_of_not_mem (h : ' ' ∉ text) : mentionsCall text = false :=
  mentionsCall_eq_false.mpr fun hmention => h (hmention.subset (by decide))

/-- No call begins across a character that is not in its word. -/
theorem not_mentionsCall_append (hc : c ∉ "invoke ".toList) (h : mentionsCall first = false)
    (h' : mentionsCall second = false) : mentionsCall (first ++ c :: second) = false := by
  rw [mentionsCall_eq_false] at *
  intro hmention
  rcases infix_or_infix_of_not_mem (by decide) hc hmention with hmention | hmention
  · exact h hmention
  · exact h' hmention

/-- A call begins across a blank only after its word. -/
theorem not_mentionsCall_blank (hword : ¬"invoke".toList <:+ first) (h : mentionsCall first = false)
    (h' : mentionsCall second = false) : mentionsCall (first ++ ' ' :: second) = false := by
  rw [mentionsCall_eq_false] at *
  intro hmention
  have hparts : "invoke".toList ++ [' '] <:+: first ++ ' ' :: second := hmention
  rcases infix_concat_cases (by decide) hparts with hmention | hmention | hmention
  · exact h hmention
  · exact hword hmention
  · exact h' hmention

/-- A text that can stand among arguments and in which no call begins. -/
structure Quiet (text : List Char) : Prop where
  balanced : Balanced text
  mention : mentionsCall text = false

theorem Quiet.nil : Quiet [] := ⟨.nil, rfl⟩

theorem isInert_of_isPlain (h : isPlain c) : isInert c := by
  simp only [isInert, List.contains_eq_mem, Bool.not_eq_true', decide_eq_false_iff_not,
    List.mem_cons, List.not_mem_nil, or_false, not_or]
  refine ⟨?_, ?_, ?_, ?_, ?_, ?_, ?_, ?_, ?_, ?_⟩ <;> exact ne_of_isPlain h (by decide)

theorem Quiet.of_forall (h : ∀ c ∈ text, isPlain c ∨ c = '.' ∨ c = '-') : Quiet text := by
  refine ⟨.of_inert fun c hc => ?_, not_mentionsCall_of_not_mem fun hblank => ?_⟩
  · rcases h c hc with hplain | rfl | rfl
    · exact isInert_of_isPlain hplain
    all_goals rfl
  · rcases h ' ' hblank with hc | hc | hc <;> exact absurd hc (by decide)

theorem Quiet.of_isIdentifier (h : isIdentifier text) : Quiet text :=
  .of_forall fun _ hc => .inl (isPlain_of_mem h hc)

theorem Quiet.of_isDotted (h : isDotted text) : Quiet text :=
  .of_forall fun _ hc => (mem_of_isDotted h hc).imp_right .inl

theorem Quiet.append (hinert : isInert c) (hc : c ∉ "invoke ".toList) (h : Quiet first)
    (h' : Quiet second) : Quiet (first ++ c :: second) :=
  ⟨h.balanced.append (.inert hinert h'.balanced), not_mentionsCall_append hc h.mention h'.mention⟩

theorem Quiet.blank (hword : ¬"invoke".toList <:+ first) (h : Quiet first) (h' : Quiet second) :
    Quiet (first ++ ' ' :: second) :=
  ⟨h.balanced.append (.inert rfl h'.balanced), not_mentionsCall_blank hword h.mention h'.mention⟩

theorem Quiet.group {last : Char} (hfirst : isOpening c) (hlast : isClosing last) (h : Quiet first)
    (hinner : Quiet text) (hrest : Quiet rest) : Quiet (first ++ c :: (text ++ last :: rest)) := by
  refine ⟨h.balanced.append (.group hfirst hlast hinner.balanced hrest.balanced), ?_⟩
  simp only [isOpening, isClosing, Bool.or_eq_true, beq_iff_eq] at hfirst hlast
  have hopen : c ∉ "invoke ".toList := by rcases hfirst with (rfl | rfl) | rfl <;> decide
  have hclose : last ∉ "invoke ".toList := by rcases hlast with (rfl | rfl) | rfl <;> decide
  exact not_mentionsCall_append hopen h.mention
    (not_mentionsCall_append hclose hinner.mention hrest.mention)

/-! ## Forms that are refused -/

theorem readInt?_eq_none (h : Stops (fun c => c == '-' || isDigit c) text) :
    readInt? text = none := by
  have hnumeral : isNumeral text = false := by
    cases text with
    | nil => rfl
    | cons c text =>
      have hdigit : isDigit c = false := by
        have hc := h c rfl
        simp only [Bool.or_eq_false_iff] at hc
        exact hc.2
      have hhex : isHexNumeral (c :: text) = false := by
        unfold isHexNumeral
        split
        next hzero =>
          rw [List.cons.injEq] at hzero
          rw [hzero.1] at hdigit
          exact absurd hdigit (by decide)
        next => rfl
      simp [isNumeral, hhex, hdigit]
  unfold readInt?
  split
  next => simpa using h '-' rfl
  next => rw [hnumeral, if_neg Bool.false_ne_true]

theorem quotedText?_eq_none (h : Stops (· == '"') text) : quotedText? text = none := by
  unfold quotedText?
  split
  next => simpa using h '"' rfl
  next => rfl

/-- A character that begins a number or a string. -/
def startsConstant (c : Char) : Bool := c == '-' || isDigit c || c == '"'

theorem constant_eq_none (h : Stops startsConstant text) :
    readInt? text = none ∧ quotedText? text = none := by
  refine ⟨readInt?_eq_none fun c hc => ?_, quotedText?_eq_none fun c hc => ?_⟩
  all_goals
    have hclass := h c hc
    simp only [startsConstant, Bool.or_eq_false_iff] at hclass
  · simpa using hclass.1
  · exact hclass.2

/-- What begins neither like a number nor like a string has a plain form. -/
theorem shapeOf_eq_plainShape (hstart : Stops startsConstant text)
    (hwords : text ≠ "null".toList ∧ text ≠ "true".toList ∧ text ≠ "false".toList)
    (hmention : mentionsCall text = false) : shapeOf text = plainShape text := by
  obtain ⟨hint, hquoted⟩ := constant_eq_none hstart
  rw [shapeOf, if_neg hwords.1, if_neg hwords.2.1, if_neg hwords.2.2, hint, hquoted, hmention]
  rfl

/-- What mentions a call and can be cut like one has the form of a call. -/
theorem shapeOf_eq_callShape {found : CallText} (hstart : Stops startsConstant text)
    (hwords : text ≠ "null".toList ∧ text ≠ "true".toList ∧ text ≠ "false".toList)
    (hmention : mentionsCall text) (hfound : callText? text = some found) :
    shapeOf text = callShape found := by
  obtain ⟨hint, hquoted⟩ := constant_eq_none hstart
  rw [shapeOf, if_neg hwords.1, if_neg hwords.2.1, if_neg hwords.2.2, hint, hquoted, hmention,
    hfound]
  rfl

theorem ne_of_all_isPlain {word : List Char} (hword : word.all isPlain) (hc : c ∈ text)
    (hplain : isPlain c = false) : text ≠ word := by
  rintro rfl
  exact Bool.false_ne_true (hplain.symm.trans (List.all_eq_true.mp hword c hc))

/-- A text with a character that no name has is not one of the words for constants. -/
theorem ne_words_of_mem (hc : c ∈ text) (hplain : isPlain c = false) :
    text ≠ "null".toList ∧ text ≠ "true".toList ∧ text ≠ "false".toList :=
  ⟨ne_of_all_isPlain (by decide) hc hplain, ne_of_all_isPlain (by decide) hc hplain,
    ne_of_all_isPlain (by decide) hc hplain⟩

/-- No blank follows a word in a text whose first name is not followed by one. -/
theorem run1?_blank_eq_none {word : String} (hword : word.toList.all isPlain)
    (h : Stops isBlank (text.dropWhile isPlain)) (hafter : after? word text = some rest) :
    run1? isBlank rest = none := by
  rw [after?_eq_some_iff] at hafter
  refine run1?_eq_none fun c hc => ?_
  by_contra hblank
  have hstop : Stops isPlain rest := by
    intro other hother
    obtain rfl : c = other := Option.some.inj (hc.symm.trans hother)
    by_contra hplain
    exact hblank (isBlank_of_isPlain (by simpa using hplain))
  rw [hafter, hstop.dropWhile_append (List.all_eq_true.mp hword)] at h
  exact hblank (h c hc)

theorem newArrayText?_eq_none (h : Stops isBlank (text.dropWhile isPlain)) :
    newArrayText? text = none := by
  unfold newArrayText?
  cases hafter : after? "newarray" text with
  | none => rfl
  | some rest => simp [run1?_blank_eq_none (by decide) h hafter]

theorem newText?_eq_none (h : Stops isBlank (text.dropWhile isPlain)) : newText? text = none := by
  unfold newText?
  cases hafter : after? "new" text with
  | none => rfl
  | some rest => simp [run1?_blank_eq_none (by decide) h hafter]

theorem after?_eq_none {literal : String} {first : Char} {more : List Char}
    (hliteral : literal.toList = first :: more) (h : Stops (· == first) text) :
    after? literal text = none := by
  rw [Option.eq_none_iff_forall_ne_some]
  intro rest hafter
  rw [after?_eq_some_iff, hliteral] at hafter
  simpa [hafter] using h first

/-! ## Forms that are read -/

/-- Reads the values inside a form. -/
def readShape (depth : Nat) : Shape → Except StmtFault Value
  | .leaf value => .ok value
  | .newArray item size => (readValue depth size).map (.newArray item ·)
  | .cast ty operand => (readValue depth operand).map (.cast ty ·)
  | .element base index => (readValue depth index).map (.element base ·)
  | .call kind method base args => do
    let args ← args.mapM (readValue depth)
    let args ← checkArity method args
    pure (.call { kind, method, base, args })

theorem readValue_succ (depth : Nat) (text : List Char) :
    readValue (depth + 1) text = shapeOf (trim text) >>= readShape depth := by
  rw [readValue]
  rfl

/-! ## Integers -/

section Integers

variable {n : Nat} {digits : List Char}

theorem isAsciiDigit_of_nat? (h : nat? 10 digits = some n) (hc : c ∈ digits) : isAsciiDigit c := by
  obtain ⟨digit, hlt, hdigit⟩ := (digits_of_nat? h).2 c hc
  unfold digitValue? at hdigit
  split at hdigit
  next hascii => exact hascii
  next =>
    split at hdigit
    · simp only [Option.some_inj] at hdigit
      omega
    · split at hdigit
      · simp only [Option.some_inj] at hdigit
        omega
      · cases hdigit

theorem isNumeral_of_nat? (h : nat? 10 digits = some n) : isNumeral digits := by
  have hall : digits.all isDigit := List.all_eq_true.mpr fun c hc => by
    simp [isDigit, isAsciiDigit_of_nat? h hc]
  simp [isNumeral, hall, (digits_of_nat? h).1]

theorem magnitude?_of_nat? (h : nat? 10 digits = some n) (hn : n < wordCount 63) :
    magnitude? digits = some (n : Int) := by
  unfold magnitude?
  split
  next =>
    have hx : isAsciiDigit 'x' := isAsciiDigit_of_nat? h (by simp)
    exact absurd hx (by decide)
  next => exact intWithin?_of_nat? h hn

/-- Digits are read as their number, and with a minus sign as its opposite. -/
theorem readInt?_of_nat? (h : nat? 10 digits = some n) (hn : n < wordCount 63) :
    readInt? digits = some (.ok (Int32.ofInt n)) ∧
      readInt? ('-' :: digits) = some (.ok (Int32.ofInt (-n))) := by
  have hnumeral := isNumeral_of_nat? h
  have hmagnitude := magnitude?_of_nat? h hn
  refine ⟨?_, by rw [readInt?, if_pos hnumeral, hmagnitude, Option.map_some, orFault]⟩
  unfold readInt?
  split
  next => exact absurd (isAsciiDigit_of_nat? h List.mem_cons_self) (by decide)
  next => rw [if_pos hnumeral, hmagnitude, Option.map_some, orFault]

/-- The decimal of a word has digits and perhaps a minus sign in it, and is read back. -/
theorem readInt?_decimal (number : ResId) :
    (∀ c ∈ (decimal number.toInt).toList, isAsciiDigit c ∨ c = '-') ∧
      readInt? (decimal number.toInt).toList = some (.ok number) := by
  have hlow := number.le_toInt
  have hhigh := number.toInt_lt
  have hbound : wordCount 63 = 9223372036854775808 := by decide
  obtain ⟨digits, n, hnat, ⟨htext, hn⟩ | ⟨htext, hn⟩⟩ := decimal_cases number.toInt
  · rw [htext, (readInt?_of_nat? hnat (by omega)).1, ← hn, Int32.ofInt_toInt]
    exact ⟨fun c hc => .inl (isAsciiDigit_of_nat? hnat hc), rfl⟩
  · rw [htext, (readInt?_of_nat? hnat (by omega)).2, ← hn, Int32.ofInt_toInt]
    refine ⟨fun c hc => ?_, rfl⟩
    exact (List.mem_cons.mp hc).symm.imp_left (isAsciiDigit_of_nat? hnat)

theorem shapeOf_of_readInt? {number : ResId} (h : readInt? text = some (.ok number)) :
    shapeOf text = .ok (.leaf (.int number)) := by
  -- No word for a constant is a number.
  have hword : ∀ word, readInt? word = none → text ≠ word := by
    rintro _ hnone rfl
    cases h.symm.trans hnone
  rw [shapeOf, if_neg (hword _ rfl), if_neg (hword _ rfl), if_neg (hword _ rfl), h]
  rfl

end Integers

/-! ## Members -/

/-- The beginning of a member reference is read up to the name. -/
theorem memberText?_eq {owner ty : List Char} (howner : isDotted owner) (hne : ty ≠ [])
    (hty : ∀ c ∈ ty, isBlank c = false) (hrest : Stops isBlank rest) :
    memberText? (owner ++ ':' :: ' ' :: (ty ++ ' ' :: rest)) = some (owner, ty, rest) := by
  have hownerNe : owner ≠ [] := by
    obtain ⟨c, more, rfl, _⟩ := exists_of_isDotted howner
    simp
  have hownerRun : run1? (fun c => c != ':' && c != '>')
      (owner ++ ':' :: ' ' :: (ty ++ ' ' :: rest)) =
        some (owner, ':' :: ' ' :: (ty ++ ' ' :: rest)) := by
    refine run1?_append hownerNe (fun c hc => ?_) (.cons rfl)
    rcases mem_of_isDotted howner hc with hplain | rfl
    · have hcolon : c ≠ ':' := ne_of_isPlain hplain (by decide)
      have hangle : c ≠ '>' := ne_of_isPlain hplain (by decide)
      simp [hcolon, hangle]
    · rfl
  have hfirst : run1? isBlank (' ' :: (ty ++ ' ' :: rest)) = some ([' '], ty ++ ' ' :: rest) :=
    run1?_cons rfl ((Stops.of_forall hty).append hne)
  have htyRun : run1? (fun c => !isBlank c) (ty ++ ' ' :: rest) = some (ty, ' ' :: rest) :=
    run1?_append hne (by simpa using hty) (.cons rfl)
  have hsecond : run1? isBlank (' ' :: rest) = some ([' '], rest) :=
    run1?_cons rfl hrest
  have hcolon : after? ":" (':' :: ' ' :: (ty ++ ' ' :: rest)) =
      some (' ' :: (ty ++ ' ' :: rest)) :=
    after?_append ":" _
  simp [memberText?, hownerRun, hcolon, hfirst, htyRun, hsecond]

end Stmt

namespace FieldRef

variable {field : FieldRef}

theorem toList_text (field : FieldRef) :
    field.text.toList = '<' :: (field.owner.toList ++ ':' :: ' ' ::
      (field.ty.text.toList ++ ' ' :: (field.name.toList ++ ['>']))) := by
  simp [text, String.toList_append]

theorem tight_text (field : FieldRef) : Tight isEdge field.text.toList := by
  have hopen : Tight isEdge ['<'] := .of_all (by decide) (by decide)
  have hclose : Tight isEdge ['>'] := .of_all (by decide) (by decide)
  simpa [toList_text] using hopen.append (field.owner.toList ++ ':' :: ' ' ::
    (field.ty.text.toList ++ ' ' :: field.name.toList)) hclose

theorem fieldText?_text (h : field.isWritten) :
    Stmt.fieldText? (field.owner.toList ++ ':' :: ' ' ::
      (field.ty.text.toList ++ ' ' :: (field.name.toList ++ ['>']))) = some (.ok field) := by
  simp only [isWritten, Bool.and_eq_true] at h
  obtain ⟨⟨howner, hty⟩, hname⟩ := h
  have hs : Stops isBlank (field.name.toList ++ ['>']) :=
    .append (ne_nil_of_isIdentifier hname) (tight_of_isIdentifier hname).blank.start
  have hmember := Stmt.memberText?_eq (isDotted_of_isClassName howner) (Ty.text_ne_nil (Ty.named hty))
    (fun _ => Ty.isBlank_of_mem_text (Ty.named hty)) hs
  have hrun : run1? isNameChar (field.name.toList ++ ['>']) = some (field.name.toList, ['>']) :=
    run1?_of_isIdentifier hname (.cons rfl)
  simp [Stmt.fieldText?, hmember, hrun, Ty.parse?_text (Ty.named hty), Stmt.orFault]
  rfl

end FieldRef

theorem Ty.quiet_text {ty : Ty} (h : ty.isWritten) : Stmt.Quiet ty.text.toList := by
  induction ty with
  | array e ih =>
    rw [text, String.toList_append]
    exact .group rfl rfl (ih h) .nil .nil
  | _ => exact .of_isDotted (isDotted_text h rfl).1

/-- In the text of a field no call begins, because no type ends like the word for one. -/
theorem FieldRef.quiet_text {field : FieldRef} (h : field.isWritten) :
    Stmt.Quiet field.text.toList := by
  simp only [isWritten, Bool.and_eq_true] at h
  obtain ⟨⟨howner, hty⟩, hname⟩ := h
  have hmember : Stmt.Quiet (field.ty.text.toList ++ ' ' :: field.name.toList) :=
    .blank (Ty.not_invoke_suffix hty) (Ty.quiet_text hty) (.of_isIdentifier hname)
  have hinner := (Stmt.Quiet.of_isDotted (isDotted_of_isClassName howner)).append
    (rfl : Stmt.isInert ':') (by decide) (Stmt.Quiet.blank (by decide) .nil hmember)
  have hgroup : Stmt.Quiet ([] ++ '<' :: (_ ++ '>' :: [])) := .group rfl rfl .nil hinner .nil
  simpa [toList_text] using hgroup

end WidgetFlow
