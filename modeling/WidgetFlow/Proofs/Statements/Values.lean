import WidgetFlow.Proofs.Statements.Forms

/-!
# Reading operands back

A `Legible` value is read back from its text, and its text can stand among arguments. There is one
lemma for each form of an operand, and `Value.legible` puts them together.
-/

namespace WidgetFlow

open Text Stmt

namespace Value

/-- A value that is read back from its text, which can stand among arguments. -/
structure Legible (v : Value) : Prop where
  balanced : Balanced v.text.toList
  tight : Tight isEdge v.text.toList
  read : ∀ depth, v.text.toList.length < depth →
    readValue depth v.text.toList = .ok v

variable {name base owner : String} {field : FieldRef} {ty : Ty} {v : Value} {shape : Shape}
  {c : Char}

theorem Legible.isLine (h : v.Legible) : Stmt.isLine v.text.toList := by
  simp [Stmt.isLine, h.tight.ne_nil, h.balanced.not_mem_newline]

theorem Legible.bracketed? (h : v.Legible) :
    Stmt.bracketed? ('[' :: (v.text.toList ++ [']'])) = some v.text.toList := by
  have hopen : after? "[" ('[' :: (v.text.toList ++ [']'])) =
      some (v.text.toList ++ [']']) := rfl
  simp [Stmt.bracketed?, hopen, beforeLast?_append, h.isLine]

/-- A value is read from a text whose form it has, if what stands inside is read at less depth. -/
theorem read_of_shapeOf {text : List Char} (htight : Tight isEdge text)
    (hshape : shapeOf text = .ok shape)
    (hinner : ∀ depth, text.length ≤ depth → readShape depth shape = .ok v) :
    ∀ depth, text.length < depth → readValue depth text = .ok v := by
  intro depth hdepth
  cases depth with
  | zero => exact absurd hdepth (Nat.not_lt_zero _)
  | succ depth =>
    rw [readValue_succ, htight.blank.trim_eq, hshape]
    exact hinner depth (Nat.le_of_lt_succ hdepth)

/-- A value is legible if its text has its form and what stands inside is read. -/
theorem legible_of_shapeOf {text : List Char} (htext : v.text.toList = text)
    (hbalanced : Balanced text) (htight : Tight isEdge text) (hshape : shapeOf text = .ok shape)
    (hinner : ∀ depth, text.length ≤ depth → readShape depth shape = .ok v) :
    v.Legible := by
  subst htext
  exact ⟨hbalanced, htight, read_of_shapeOf htight hshape hinner⟩

/-- A value is legible if its text is quiet and has a plain form. -/
theorem legible_of_plainShape {text : List Char} (htext : v.text.toList = text)
    (hquiet : Quiet text) (htight : Tight isEdge text) (hs : Stops startsConstant text)
    (hc : c ∈ text) (hplain : isPlain c = false) (hshape : plainShape text = .ok shape)
    (hinner : ∀ depth, text.length ≤ depth → readShape depth shape = .ok v) :
    v.Legible := by
  have heq := shapeOf_eq_plainShape hs (ne_words_of_mem hc hplain) hquiet.mention
  exact legible_of_shapeOf htext hquiet.balanced htight (heq.trans hshape) hinner

theorem legible_null : Legible .null :=
  legible_of_shapeOf rfl (.of_inert (List.all_eq_true.mp rfl)) (.of_all (by decide) (by decide))
    rfl fun _ _ => rfl

theorem legible_str {text : String} (h : '\n' ∉ text.toList) : Legible (.str text) := by
  have htext : (Value.str text).text.toList = quote text.toList := by
    rw [Value.text, String.toList_ofList]
    rfl
  have htight : Tight isEdge (quote text.toList) := by
    have hquote : Tight isEdge ['"'] := .of_all (by decide) (by decide)
    exact hquote.append (text.toList.flatMap escapeChar) hquote
  have hshape : shapeOf (quote text.toList) = .ok (.leaf (.str text)) := by
    have hquoted : quotedText? (quote text.toList) =
        some (text.toList.flatMap escapeChar) := beforeLast?_append '"' _
    have hint : readInt? (quote text.toList) = none :=
      readInt?_eq_none (.cons rfl)
    have hmem : '"' ∈ quote text.toList := List.mem_cons_self
    obtain ⟨hnull, htrue, hfalse⟩ := ne_words_of_mem hmem rfl
    rw [shapeOf, if_neg hnull, if_neg htrue, if_neg hfalse, hint, hquoted]
    simp [unescape_escaped]
  have hbalanced : Balanced (quote text.toList) := by
    simpa using Balanced.quoted h .nil
  exact legible_of_shapeOf htext hbalanced htight hshape fun _ _ => rfl

theorem isPlain_or_of_mem_int {number : ResId}
    (hc : c ∈ (Value.int number).text.toList) : isPlain c ∨ c = '-' := by
  rw [Value.text] at hc
  exact ((readInt?_decimal number).1 c hc).imp_left fun hdigit => by simp [isPlain, hdigit]

theorem quiet_int (number : ResId) : Quiet (Value.int number).text.toList :=
  .of_forall fun _ hc => (isPlain_or_of_mem_int hc).imp_right .inr

theorem legible_int (number : ResId) : Legible (.int number) := by
  have hread := (readInt?_decimal number).2
  rw [← Value.text] at hread
  have htight : Tight isEdge (Value.int number).text.toList := by
    refine .of_forall (fun hnil => ?_) fun c hc => ?_
    · rw [hnil] at hread
      cases hread
    · rcases isPlain_or_of_mem_int hc with hplain | rfl
      · exact isEdge_of_isPlain hplain
      · rfl
  exact legible_of_shapeOf rfl (quiet_int number).balanced htight (shapeOf_of_readInt? hread)
    fun _ _ => rfl

/-! ### Locals and what begins with them -/

/-- What begins like a name begins like no constant and like no bracket. -/
theorem stops_of_isNameStart (h : isNameStart c) (rest : List Char) :
    Stops startsConstant (c :: rest) ∧ Stops (· == '(') (c :: rest) ∧
      Stops (· == '<') (c :: rest) := by
  have hplain := isPlain_of_isNameStart h
  have hminus : c ≠ '-' := ne_of_isPlain hplain (by decide)
  have hquote : c ≠ '"' := ne_of_isPlain hplain (by decide)
  have hround : c ≠ '(' := ne_of_isPlain hplain (by decide)
  have hangle : c ≠ '<' := ne_of_isPlain hplain (by decide)
  exact ⟨.cons (by simp [startsConstant, hminus, isDigit_of_isNameStart h, hquote]),
    .cons (by simpa using hround), .cons (by simpa using hangle)⟩

/-- The form of a text that begins with a local which no blank follows. -/
def localShape (text : List Char) : Except StmtFault Shape :=
  match instanceFieldText? text with
  | some (base, field) => field.map fun field => .leaf (.field base field)
  | none =>
  match elementText? text with
  | some (base, index) => .ok (.element base index)
  | none =>
    if isVar text then .ok (.leaf (.var (String.ofList text)))
    else .ok (.leaf (.other (String.ofList text)))

/-- No other plain form than these three begins with a local. -/
theorem plainShape_eq_localShape {rest : List Char} (h : isIdentifier name.toList)
    (hrest : Stops (fun c => isPlain c || isBlank c) rest) :
    Stops startsConstant (name.toList ++ rest) ∧
      plainShape (name.toList ++ rest) = localShape (name.toList ++ rest) := by
  obtain ⟨c, more, htext, hc, _⟩ := exists_of_isIdentifier h
  have hplain : ∀ c ∈ name.toList, isPlain c := fun _ => isPlain_of_mem h
  have hstop : Stops isPlain rest := fun c hc => (Bool.or_eq_false_iff.mp (hrest c hc)).1
  have hblank : Stops isBlank ((name.toList ++ rest).dropWhile isPlain) := by
    rw [hstop.dropWhile_append hplain]
    exact fun c hc => (Bool.or_eq_false_iff.mp (hrest c hc)).2
  obtain ⟨hconstant, hround, hangle⟩ := stops_of_isNameStart hc (more ++ rest)
  rw [← List.cons_append, ← htext] at hconstant hround hangle
  have hcast : castText? (name.toList ++ rest) = none := by
    rw [castText?, after?_eq_none rfl hround]
    rfl
  have hstatic : staticFieldText? (name.toList ++ rest) = none := by
    rw [staticFieldText?, after?_eq_none rfl hangle]
    rfl
  refine ⟨hconstant, ?_⟩
  rw [plainShape, newArrayText?_eq_none hblank, newText?_eq_none hblank, hcast, hstatic]
  rfl

theorem legible_var (h : isLocalName name) : Legible (.var name) := by
  have hname := isIdentifier_of_isLocalName h
  have hrun : run1? isNameChar name.toList = some (name.toList, []) := by
    simpa using run1?_of_isIdentifier hname .nil
  have hfield : instanceFieldText? name.toList = none := by
    rw [instanceFieldText?, hrun]
    rfl
  have helement : elementText? name.toList = none := by
    rw [elementText?, hrun]
    rfl
  have hvar : isVar name.toList := by
    obtain ⟨c, rest, heq, hc, hrest⟩ := exists_of_isIdentifier hname
    simp only [heq, isVar, hc, Bool.true_and, List.all_eq_true]
    exact fun c hc => isNameChar_of_isPlain (hrest c hc)
  have hshape : shapeOf name.toList = .ok (.leaf (.var name)) := by
    obtain ⟨hnull, htrue, hfalse, _⟩ := ne_words_of_isLocalName h
    obtain ⟨hs, hlocal⟩ := plainShape_eq_localShape hname .nil
    rw [List.append_nil] at hs hlocal
    rw [shapeOf_eq_plainShape hs ⟨hnull, htrue, hfalse⟩ (Quiet.of_isIdentifier hname).mention,
      hlocal, localShape, hfield, helement]
    simp [hvar]
  exact legible_of_shapeOf (by rw [Value.text]) (Quiet.of_isIdentifier hname).balanced
    (tight_of_isIdentifier hname) hshape fun _ _ => rfl

/-- A value is legible if a local begins its text and something else than a blank follows. -/
theorem legible_of_localShape {rest : List Char} (hbase : isLocalName base)
    (hc : (isPlain c || isBlank c) = false)
    (htext : v.text.toList = base.toList ++ c :: rest)
    (hquiet : Quiet (base.toList ++ c :: rest)) (htight : Tight isEdge (c :: rest))
    (hshape : localShape (base.toList ++ c :: rest) = .ok shape)
    (hinner : ∀ depth, (base.toList ++ c :: rest).length ≤ depth →
      readShape depth shape = .ok v) : v.Legible := by
  have hname := isIdentifier_of_isLocalName hbase
  obtain ⟨hs, hlocal⟩ := plainShape_eq_localShape hname (.cons hc : Stops _ (c :: rest))
  have hwhole := (tight_of_isIdentifier hname).append [] htight
  rw [List.append_nil] at hwhole
  have hmem : c ∈ base.toList ++ c :: rest := by simp
  exact legible_of_plainShape htext hquiet hwhole hs hmem (Bool.or_eq_false_iff.mp hc).1
    (hlocal.trans hshape) hinner

theorem legible_field (hbase : isLocalName base) (hfield : field.isWritten) :
    Legible (.field base field) := by
  have hname := isIdentifier_of_isLocalName hbase
  let member := '.' :: field.text.toList
  have hrun := run1?_of_isIdentifier hname (Stops.cons rfl : Stops isNameChar member)
  have hinstance : instanceFieldText? (base.toList ++ member) = some (base, .ok field) := by
    simp only [member, FieldRef.toList_text] at hrun ⊢
    rw [instanceFieldText?, hrun]
    simp [after?, dropLiteral?, FieldRef.fieldText?_text hfield]
  have hquiet : Quiet (base.toList ++ member) :=
    .append rfl (by decide) (.of_isIdentifier hname) (FieldRef.quiet_text hfield)
  have htight : Tight isEdge member := by
    have hdot : Tight isEdge ['.'] := .of_all (by decide) (by decide)
    exact hdot.append [] (FieldRef.tight_text field)
  have hshape : localShape (base.toList ++ member) = .ok (.leaf (.field base field)) := by
    rw [localShape, hinstance]
    rfl
  exact legible_of_localShape hbase rfl (by simp [Value.text, String.toList_append]) hquiet htight
    hshape fun _ _ => rfl

theorem legible_element {index : Value} (hbase : isLocalName base) (hindex : index.Legible)
    (hmention : mentionsCall index.text.toList = false) : Legible (.element base index) := by
  have hname := isIdentifier_of_isLocalName hbase
  let brackets := '[' :: (index.text.toList ++ [']'])
  have hrun := run1?_of_isIdentifier hname (Stops.cons rfl : Stops isNameChar brackets)
  have hinstance : instanceFieldText? (base.toList ++ brackets) = none := by
    rw [instanceFieldText?, hrun]
    rfl
  have helement : elementText? (base.toList ++ brackets) = some (base, index.text.toList) := by
    simp [elementText?, hrun, brackets, hindex.bracketed?]
  have hquiet : Quiet (base.toList ++ brackets) :=
    .group rfl rfl (.of_isIdentifier hname) ⟨hindex.balanced, hmention⟩ .nil
  have htight : Tight isEdge brackets := by
    have hopen : Tight isEdge ['['] := .of_all (by decide) (by decide)
    exact hopen.append index.text.toList (.of_all (by decide) (by decide))
  have hshape : localShape (base.toList ++ brackets) = .ok (.element base index.text.toList) := by
    rw [localShape, hinstance, helement]
  refine legible_of_localShape hbase rfl (by simp [Value.text, String.toList_append]) hquiet htight
    hshape fun depth hdepth => ?_
  rw [readShape, hindex.read depth (by simp at hdepth; omega)]
  rfl

/-! ### Other forms -/

theorem legible_staticField (h : field.isWritten) : Legible (.staticField field) := by
  have htext : (Value.staticField field).text = field.text := by rw [Value.text]
  have hquiet := FieldRef.quiet_text h
  have htight := FieldRef.tight_text field
  have hfield := FieldRef.fieldText?_text h
  rw [FieldRef.toList_text] at hquiet htight
  -- What follows the bracket has been read as a whole, so its parts do not matter any more.
  generalize hinner : field.owner.toList ++ _ = inner at hquiet htight hfield
  have hshape : plainShape ('<' :: inner) = .ok (.leaf (.staticField field)) := by
    have hinstance : instanceFieldText? ('<' :: inner) = none := rfl
    have hstatic : staticFieldText? ('<' :: inner) = some (.ok field) := hfield
    rw [plainShape, newArrayText?_eq_none (.cons rfl), newText?_eq_none (.cons rfl), hinstance,
      hstatic]
    rfl
  exact legible_of_plainShape (by rw [htext, FieldRef.toList_text, hinner]) hquiet htight
    (.cons rfl) List.mem_cons_self rfl hshape fun _ _ => rfl

theorem legible_new (h : isClassName owner) : Legible (.new owner) := by
  have hdotted := isDotted_of_isClassName h
  obtain ⟨c, rest, hs, hc⟩ := exists_of_isDotted hdotted
  have hne : owner.toList ≠ [] := by simp [hs]
  have hedge : ∀ c ∈ owner.toList, isEdge c = false := fun c hc => by
    rcases mem_of_isDotted hdotted hc with hplain | rfl
    · exact isEdge_of_isPlain hplain
    · rfl
  have hblank : run1? isBlank (' ' :: owner.toList) = some ([' '], owner.toList) :=
    run1?_cons rfl (.of_forall fun c hc => isBlank_of_isEdge_eq_false (hedge c hc))
  have hrun : run1? Ty.isNamePart owner.toList = some (owner.toList, []) := by
    simpa using run1?_append hne (fun _ => Ty.isNamePart_of_isDotted hdotted) .nil
  let text := "new".toList ++ ' ' :: owner.toList
  have hnew : newText? text = some owner.toList := by
    simp only [text, newText?, after?_append]
    simp [hblank, hrun]
  have hshape : plainShape text = .ok (.leaf (.new owner)) := by
    have harray : newArrayText? text = none := rfl
    rw [plainShape, harray, hnew]
    simp
  have htight : Tight isEdge text := by
    have hword : Tight isEdge "new".toList := .of_all (by decide) (by decide)
    simpa [text] using hword.append [' '] (.of_forall hne hedge)
  have hquiet : Quiet text :=
    .blank (by decide) (.of_isIdentifier (by decide)) (.of_isDotted hdotted)
  exact legible_of_plainShape (c := ' ') (by simp [text, Value.text, String.toList_append]) hquiet
    htight (.cons rfl) (by simp [text]) rfl hshape fun _ _ => rfl

theorem legible_newArray {size : Value} (hty : ty.isWritten) (hsize : size.Legible)
    (hmention : mentionsCall size.text.toList = false) : Legible (.newArray ty size) := by
  let brackets := '[' :: (size.text.toList ++ [']'])
  let inner := ty.text.toList ++ ')' :: brackets
  let text := "newarray".toList ++ ' ' :: '(' :: inner
  have hround : ∀ c ∈ ty.text.toList, c != ')' := fun c hc => by
    rcases Ty.mem_text hty hc with hplain | rfl | rfl | rfl
    · simpa using ne_of_isPlain hplain (by decide)
    all_goals rfl
  have harray : newArrayText? text = some (ty.text.toList, size.text.toList) := by
    have hblank : run1? isBlank (' ' :: '(' :: inner) = some ([' '], '(' :: inner) :=
      run1?_cons rfl (.cons rfl)
    have hrun : run1? (· != ')') inner = some (ty.text.toList, ')' :: brackets) :=
      run1?_append (Ty.text_ne_nil (Ty.named hty)) hround (.cons rfl)
    simp only [text, newArrayText?, after?_append]
    simp [hblank, hrun, after?, dropLiteral?, brackets, hsize.bracketed?]
  have hshape : plainShape text = .ok (.newArray ty size.text.toList) := by
    rw [plainShape, harray]
    simp only [String.ofList_toList, Ty.parse?_text (Ty.named hty)]
    rfl
  have htight : Tight isEdge text := by
    have hword : Tight isEdge "newarray".toList := .of_all (by decide) (by decide)
    have hclose : Tight isEdge [']'] := .of_all (by decide) (by decide)
    simpa [text, inner, brackets] using hword.append
      (' ' :: '(' :: (ty.text.toList ++ ')' :: '[' :: size.text.toList)) hclose
  have hquiet : Quiet text :=
    .blank (by decide) (.of_isIdentifier (by decide)) (.group rfl rfl .nil (Ty.quiet_text hty)
      (.group rfl rfl .nil ⟨hsize.balanced, hmention⟩ .nil))
  refine legible_of_plainShape (c := ' ')
    (by simp [text, inner, brackets, Value.text, String.toList_append]) hquiet htight (.cons rfl)
    (by simp [text]) rfl hshape fun depth hdepth => ?_
  rw [readShape, hsize.read depth (by simp [text, inner, brackets] at hdepth; omega)]
  rfl

theorem legible_cast {operand : Value} (hty : ty.isWritten) (hoperand : operand.Legible)
    (hmention : mentionsCall operand.text.toList = false) : Legible (.cast ty operand) := by
  let inner := ty.text.toList ++ ')' :: ' ' :: operand.text.toList
  have hcast : castText? ('(' :: inner) = some (ty, operand.text.toList) := by
    have hchars : ∀ c ∈ ty.text.toList, (Ty.isNamePart c || c == '[' || c == ']') := fun c hc => by
      rcases Ty.mem_text hty hc with hplain | rfl | rfl | rfl
      · simp [Ty.isNamePart, isNameChar_of_isPlain hplain]
      all_goals rfl
    have hrun : run1? (fun c => Ty.isNamePart c || c == '[' || c == ']') inner =
        some (ty.text.toList, ')' :: ' ' :: operand.text.toList) :=
      run1?_append (Ty.text_ne_nil (Ty.named hty)) hchars (.cons rfl)
    have hdrop : (' ' :: operand.text.toList).dropWhile isBlank = operand.text.toList := by
      have hs := hoperand.tight.blank.start
      exact hs.dropWhile_append (List.all_eq_true.mp (rfl : [' '].all isBlank = true))
    have hopen : after? "(" ('(' :: inner) = some inner := rfl
    have hclose : after? ")" (')' :: ' ' :: operand.text.toList) =
      some (' ' :: operand.text.toList) := rfl
    simp [castText?, hopen, hrun, hclose, hdrop, hoperand.isLine, Ty.read?_text (Ty.named hty)]
  have hshape : plainShape ('(' :: inner) = .ok (.cast ty operand.text.toList) := by
    rw [plainShape, newArrayText?_eq_none (.cons rfl), newText?_eq_none (.cons rfl), hcast]
  have htight : Tight isEdge ('(' :: inner) := by
    have hopen : Tight isEdge ['('] := .of_all (by decide) (by decide)
    simpa [inner] using hopen.append (ty.text.toList ++ [')', ' ']) hoperand.tight
  have hquiet : Quiet ('(' :: inner) :=
    .group rfl rfl .nil (Ty.quiet_text hty) (.blank (by decide) .nil ⟨hoperand.balanced, hmention⟩)
  refine legible_of_plainShape (by simp [inner, Value.text, String.toList_append]) hquiet htight
    (.cons rfl) List.mem_cons_self rfl hshape fun depth hdepth => ?_
  rw [readShape, hoperand.read depth (by simp [inner] at hdepth; omega)]
  rfl

/-! ### All operands -/

theorem legible_of_isLocal (h : v.isLocal) :
    v.Legible ∧ mentionsCall v.text.toList = false := by
  cases v <;> simp only [isLocal, Bool.false_eq_true] at h
  refine ⟨legible_var h, ?_⟩
  rw [Value.text]
  exact (Quiet.of_isIdentifier (isIdentifier_of_isLocalName h)).mention

theorem legible (h : v.isOperand) : v.Legible := by
  fun_induction isOperand v with
  | case1 name => exact legible_var h
  | case2 number => exact legible_int number
  | case3 text => exact legible_str (by simpa using h)
  | case4 => exact legible_null
  | case5 member => exact legible_staticField h
  | case6 base member =>
    rw [Bool.and_eq_true] at h
    exact legible_field h.1 h.2
  | case7 base index =>
    rw [Bool.and_eq_true, Bool.or_eq_true] at h
    obtain ⟨hbase, hlocal | hint⟩ := h
    · exact legible_element hbase (legible_of_isLocal hlocal).1 (legible_of_isLocal hlocal).2
    · cases index <;> simp only [int?, Option.isSome_none, Bool.false_eq_true] at hint
      exact legible_element hbase (legible_int _) (quiet_int _).mention
  | case8 owner => exact legible_new h
  | case9 item size ih =>
    simp only [Bool.and_eq_true, Bool.not_eq_true'] at h
    exact legible_newArray h.1.1 (ih h.1.2) h.2
  | case10 ty operand =>
    rw [Bool.and_eq_true] at h
    exact legible_cast h.1 (legible_of_isLocal h.2).1 (legible_of_isLocal h.2).2
  | case11 | case12 => exact absurd h Bool.false_ne_true

end Value

end WidgetFlow
