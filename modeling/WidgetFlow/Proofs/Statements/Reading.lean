import WidgetFlow.Proofs.Statements.Calls

/-!
# Reading statements back

The statement that is read from a canonical text is the one that the text was written for. Blanks
around the text and semicolons after it change nothing, since no canonical text ends in one.
-/

namespace WidgetFlow

open Text

/-! ## Values -/

namespace Value

variable {v : Value}

/-- A value that is read back from its text, which can stand beside an assignment sign. -/
structure Readable (v : Value) : Prop where
  tame : Stmt.Tame v.text.toList
  tight : Tight isEdge v.text.toList
  parse : Stmt.parseValue v.text.toList = .ok v

theorem Legible.readable (h : v.Legible) : v.Readable where
  tame := h.balanced.tame
  tight := h.tight
  parse := h.read _ (Nat.lt_succ_self _)

theorem readable (h : v.isWritten) : v.Readable := by
  cases v with
  | call expr =>
    exact ⟨expr.tame_text h, expr.tight_text, expr.readValue_text h _ (Nat.lt_succ_self _)⟩
  | _ => exact (legible h).readable

end Value

namespace Stmt

variable {text rest : List Char} {name : String} {stmt : Stmt}

/-! ## Texts of other statements -/

/-- A text that neither binds a local on entry nor returns. -/
structure Unmarked (text : List Char) : Prop where
  identity : identityText? text = none
  ret : text ≠ "return".toList
  retValue : after? "return " text = none

/-- A name binds nothing unless a colon follows. -/
theorem identityText?_eq_none (hne : name.toList ≠ []) (hname : ∀ c ∈ name.toList, isNameChar c)
    (hrest : Stops isNameChar rest) (hcolon : Stops (· == ':') (rest.dropWhile isBlank)) :
    identityText? (name.toList ++ rest) = none := by
  have hsign : after? ":=" (rest.dropWhile isBlank) = none := after?_eq_none rfl hcolon
  simp [identityText?, run1?_append hne hname hrest, hsign]

theorem stops_colon (h : Stops isEdge text) :
    Stops (· == ':') ((' ' :: text).dropWhile isBlank) := by
  have hblank : Stops isBlank text := fun c hc => isBlank_of_isEdge_eq_false (h c hc)
  have hdrop : (' ' :: text).dropWhile isBlank = text :=
    hblank.dropWhile_append (List.all_eq_true.mp (rfl : [' '].all isBlank = true))
  rw [hdrop]
  intro c hc
  have hclass := h c hc
  simp only [isEdge, Bool.or_eq_false_iff] at hclass
  exact hclass.2

/-- A text that begins with a local is no identity unless a colon follows, and no return. -/
theorem Unmarked.of_local (h : isLocalName name) (hrest : Stops isNameChar rest)
    (hcolon : Stops (· == ':') (rest.dropWhile isBlank)) : Unmarked (name.toList ++ rest) := by
  have hidentifier := isIdentifier_of_isLocalName h
  have hchars : ∀ c ∈ name.toList, isNameChar c := fun _ hc =>
    isNameChar_of_isPlain (isPlain_of_mem hidentifier hc)
  have htake : (name.toList ++ rest).takeWhile isNameChar = name.toList :=
    hrest.takeWhile_append hchars
  -- A return would begin with the same name.
  have hword : name.toList ≠ "return".toList := (ne_words_of_isLocalName h).2.2.2
  refine ⟨identityText?_eq_none (ne_nil_of_isIdentifier hidentifier) hchars hrest hcolon,
    fun heq => ?_, ?_⟩
  · exact hword (htake.symm.trans (by rw [heq]; rfl))
  · rw [Option.eq_none_iff_forall_ne_some]
    intro v hvalue
    rw [after?_eq_some_iff] at hvalue
    exact hword (htake.symm.trans (by rw [hvalue]; rfl))

theorem Unmarked.of_bracket (rest : List Char) : Unmarked ('<' :: rest) where
  identity := by simp [identityText?, run1?_eq_none (Stops.cons (rfl : isNameChar '<' = false))]
  ret := by simp
  retValue := rfl

/-! ## The forms of statements -/

theorem unmarked_assign {dst : Value} (htarget : isTarget dst) (h : dst.isOperand)
    (v : List Char) : Unmarked (dst.text.toList ++ ' ' :: '=' :: ' ' :: v) := by
  cases dst with
  | var name =>
    rw [Value.text]
    exact .of_local h (.cons rfl) (.cons rfl)
  | field base member =>
    rw [Value.isOperand, Bool.and_eq_true] at h
    have htext : (Value.field base member).text.toList ++ ' ' :: '=' :: ' ' :: v =
        base.toList ++ '.' :: (member.text.toList ++ ' ' :: '=' :: ' ' :: v) := by
      simp [Value.text, String.toList_append]
    rw [htext]
    exact .of_local h.1 (.cons rfl) (.cons rfl)
  | staticField member =>
    rw [Value.text, FieldRef.toList_text]
    exact .of_bracket _
  | element base index =>
    rw [Value.isOperand, Bool.and_eq_true] at h
    have htext : (Value.element base index).text.toList ++ ' ' :: '=' :: ' ' :: v =
        base.toList ++ '[' :: (index.text.toList ++ ']' :: ' ' :: '=' :: ' ' :: v) := by
      simp [Value.text, String.toList_append]
    rw [htext]
    exact .of_local h.1 (.cons rfl) (.cons rfl)
  | _ => exact absurd htarget Bool.false_ne_true

theorem read_assign {dst v : Value} (htarget : isTarget dst) (h : dst.isOperand)
    (hvalue : v.isWritten) :
    read (assign dst v).text.toList = .ok (assign dst v) := by
  have hleft := (Value.legible h).readable
  have hright := Value.readable hvalue
  have htext : (assign dst v).text.toList =
      dst.text.toList ++ ' ' :: '=' :: ' ' :: v.text.toList := by
    simp [Stmt.text, String.toList_append]
  have hsplit : splitAssignment false [] (dst.text.toList ++ ' ' :: '=' :: ' ' ::
      v.text.toList) = some (dst.text.toList, v.text.toList) := by
    have hsign : splitAssignment false (dst.text.toList.reverse ++ []) (' ' :: '=' :: ' ' ::
        v.text.toList) = some (trim (dst.text.toList.reverse ++ []).reverse,
          trim v.text.toList) := rfl
    rw [hleft.tame.splitAssignment (.cons rfl), hsign, List.append_nil, List.reverse_reverse,
      hleft.tight.blank.trim_eq, hright.tight.blank.trim_eq]
  have hunmarked := unmarked_assign htarget h v.text.toList
  rw [htext, read, hunmarked.identity, if_neg hunmarked.ret, hunmarked.retValue, hsplit]
  simp only [readAssignment, hleft.parse, Except.bind, bind, htarget, if_true, hright.parse]
  rfl

/-- What a statement binds on entry is read back. -/
theorem entryText?_text {entry : Entry} (h : (identity name entry).isWritten) :
    ∃ text, entry.text.toList = '@' :: text ∧ entryText? text = some (.ok entry) := by
  cases entry with
  | this => exact ⟨"this".toList, rfl, rfl⟩
  | caught => exact ⟨"caughtexception".toList, rfl, rfl⟩
  | parameter index =>
    have hindex : index < wordCount 64 := by
      simp only [isWritten, Bool.and_eq_true, decide_eq_true_eq] at h
      exact h.2
    have hrun : run1? isDigit (Nat.toDigits 10 index) = some (Nat.toDigits 10 index, []) := by
      have hdigits : ∀ c ∈ Nat.toDigits 10 index, isDigit c := fun c hc => by
        simp [isDigit, isAsciiDigit_of_mem_toDigits hc]
      simpa using run1?_append Nat.toDigits_ne_nil hdigits .nil
    have hafter : after? "parameter" ("parameter".toList ++ Nat.toDigits 10 index) =
      some (Nat.toDigits 10 index) := after?_append _ _
    have hother : after? "this" ("parameter".toList ++ Nat.toDigits 10 index) = none := rfl
    have hvalue : parameterIndex (Nat.toDigits 10 index) = .ok index := by
      rw [parameterIndex, nat?_toDigits (by decide) (by decide)]
      exact if_pos hindex
    refine ⟨"parameter".toList ++ Nat.toDigits 10 index, ?_, ?_⟩
    · simp [Entry.text, String.toList_append, ← Nat.toList_repr]
    · rw [entryText?, hother]
      dsimp only
      rw [hafter]
      simp [hrun, isAnnotation, hvalue, Except.map]

theorem read_identity {entry : Entry} (h : (identity name entry).isWritten) :
    read (identity name entry).text.toList = .ok (identity name entry) := by
  obtain ⟨bound, hentry, hbound⟩ := entryText?_text h
  have hname : isIdentifier name.toList := by
    refine isIdentifier_of_isLocalName ?_
    cases entry <;> simp_all [isWritten]
  have htext : (identity name entry).text.toList =
      name.toList ++ ' ' :: ':' :: '=' :: ' ' :: '@' :: bound := by
    simp [Stmt.text, String.toList_append, hentry]
  have hrun : run1? isNameChar (name.toList ++ ' ' :: ':' :: '=' :: ' ' :: '@' :: bound) =
      some (name.toList, ' ' :: ':' :: '=' :: ' ' :: '@' :: bound) :=
    run1?_of_isIdentifier hname (.cons rfl)
  have hsign : after? ":=" ((' ' :: ':' :: '=' :: ' ' :: '@' :: bound).dropWhile isBlank) =
    some (' ' :: '@' :: bound) := rfl
  have hat : after? "@" ((' ' :: '@' :: bound).dropWhile isBlank) = some bound := rfl
  have hidentity : identityText? (identity name entry).text.toList =
      some (.ok (identity name entry)) := by
    rw [htext]
    simp only [identityText?, hrun, bind, Option.bind_some, hsign, hat, hbound,
      String.ofList_toList]
    rfl
  rw [read, hidentity]

theorem read_call {expr : Call Value} (h : expr.isWritten) :
    read (call expr).text.toList = .ok (call expr) := by
  have hunmarked : Unmarked (Value.call expr).text.toList := by
    -- The word of a call begins a text like a local does.
    have hword : isLocalName expr.kind.word := by cases expr.kind <;> decide
    rw [Call.toList_text]
    exact .of_local hword (.cons rfl) (stops_colon (Call.stops_baseText h))
  have hsplit : splitAssignment false [] (Value.call expr).text.toList = none := by
    have hpass : splitAssignment false [] ((Value.call expr).text.toList ++ []) =
      splitAssignment false ((Value.call expr).text.toList.reverse ++ []) [] :=
        (Call.tame_text h).splitAssignment .nil
    rw [List.append_nil] at hpass
    exact hpass
  have hparse : parseValue (Value.call expr).text.toList = .ok (.call expr) :=
    Call.readValue_text h _ (Nat.lt_succ_self _)
  rw [Stmt.text, read, hunmarked.identity, if_neg hunmarked.ret,
    hunmarked.retValue, hsplit, readCallOrOther, Call.mentionsCall_text,
    Call.callText?_text h, hparse]
  rfl

theorem read_ret {v : Value} (h : v.isWritten) :
    read (ret (some v)).text.toList = .ok (ret (some v)) := by
  have hvalue := Value.readable h
  have htext : (ret (some v)).text.toList = "return".toList ++ ' ' :: v.text.toList := by
    simp [Stmt.text, String.toList_append]
  have hidentity : identityText? ("return".toList ++ ' ' :: v.text.toList) = none := by
    refine identityText?_eq_none (by decide) (List.all_eq_true.mp rfl) (.cons rfl) ?_
    exact stops_colon hvalue.tight.start
  have hafter : after? "return " ("return".toList ++ ' ' :: v.text.toList) =
    some v.text.toList := rfl
  rw [htext, read, hidentity, if_neg (by simp), hafter]
  dsimp only
  rw [hvalue.parse]
  rfl

theorem read_text (h : stmt.isWritten) : read stmt.text.toList = .ok stmt := by
  cases stmt with
  | identity name entry => exact read_identity h
  | assign dst v =>
    simp only [isWritten, Bool.and_eq_true] at h
    exact read_assign h.1.1 h.1.2 h.2
  | call expr => exact read_call h
  | ret v =>
    cases v with
    | none => rfl
    | some v => exact read_ret h
  | other text => exact absurd h Bool.false_ne_true

/-! ## Blanks and semicolons -/

theorem tight_entry (entry : Entry) : Tight isEdge entry.text.toList := by
  cases entry with
  | this | caught => exact .of_all (by decide) (by decide)
  | parameter index =>
    have hword : ∀ c ∈ "@parameter".toList, isEdge c = false := by
      have hall : "@parameter".toList.all fun c => !isEdge c := by decide
      simpa only [List.all_eq_true, Bool.not_eq_true'] using hall
    have hdigits : ∀ c ∈ (toString index).toList, isEdge c = false := fun c hc => by
      have hdigit : isAsciiDigit c := isAsciiDigit_of_mem_toDigits (Nat.toList_repr ▸ hc)
      exact isEdge_of_isPlain (by simp [isPlain, hdigit])
    rw [Entry.text, String.toList_append]
    exact .of_forall (by simp) fun c hc => (List.mem_append.mp hc).elim (hword c) (hdigits c)

theorem tight_text (h : stmt.isWritten) : Tight isEdge stmt.text.toList := by
  have hreturn : Tight isEdge "return".toList := .of_all (by decide) (by decide)
  cases stmt with
  | identity name entry =>
    have hname : isLocalName name := by cases entry <;> simp_all [isWritten]
    simpa [Stmt.text, String.toList_append] using
      (tight_of_isIdentifier (isIdentifier_of_isLocalName hname)).append " := ".toList
        (tight_entry entry)
  | assign dst v =>
    simp only [isWritten, Bool.and_eq_true] at h
    simpa [Stmt.text, String.toList_append] using
      (Value.legible h.1.2).tight.append " = ".toList (Value.readable h.2).tight
  | call expr => exact expr.tight_text
  | ret v =>
    cases v with
    | none => exact hreturn
    | some v =>
      simpa [Stmt.text, String.toList_append] using
        hreturn.append [' '] (Value.readable h).tight
  | other text => exact absurd h Bool.false_ne_true

theorem isSemicolon_of_isEdge_eq_false {c : Char} (h : isEdge c = false) : (c == ';') = false := by
  simp only [isEdge, Bool.or_eq_false_iff] at h
  exact h.1.2

theorem stops_semicolon {gap : List Char} (h : Tight isEdge text) (hgap : ∀ c ∈ gap, isBlank c) :
    Stops (· == ';') (text ++ gap).reverse := by
  rw [List.reverse_append]
  by_cases hne : gap = []
  · subst hne
    exact fun c hc => isSemicolon_of_isEdge_eq_false (h.finish c hc)
  · refine .append (by simpa using hne) (.of_forall fun c hc => ?_)
    have hblank : isBlank c := hgap c (List.mem_reverse.mp hc)
    rw [beq_eq_false_iff_ne]
    rintro rfl
    exact absurd hblank (by decide)

/-- Blanks around a text and semicolons after it do not belong to it. -/
theorem core_eq {src : String} (h : Tight isEdge src.toList) {lead gap trail : String}
    (semicolons : Nat) (hlead : ∀ c ∈ lead.toList, isBlank c) (hgap : ∀ c ∈ gap.toList, isBlank c)
    (htrail : ∀ c ∈ trail.toList, isBlank c) :
    core (lead ++ src ++ gap ++ String.ofList (.replicate semicolons ';') ++ trail) =
      src.toList := by
  have htight : Tight isBlank src.toList := h.blank
  have hsource : (lead ++ src ++ gap ++ String.ofList (.replicate semicolons ';') ++
      trail).toList = lead.toList ++ (src.toList ++ gap.toList ++ .replicate semicolons ';') ++
        trail.toList := by
    simp [String.toList_append]
  rw [core, hsource]
  cases semicolons with
  | zero =>
    -- Without a semicolon, the blanks after the text go in the first step.
    have htrim : trim (lead.toList ++ (src.toList ++ gap.toList ++ .replicate 0 ';') ++
        trail.toList) = src.toList := by
      have hblank : ∀ c ∈ gap.toList ++ trail.toList, isBlank c := fun c hc =>
        (List.mem_append.mp hc).elim (hgap c) (htrail c)
      simpa using trim_append lead.toList _ htight hlead hblank
    have hdrop : dropEndWhile (· == ';') src.toList = src.toList := by
      have hends : Stops (· == ';') src.toList.reverse := fun c hc =>
        isSemicolon_of_isEdge_eq_false (h.finish c hc)
      rw [dropEndWhile, hends.dropWhile_eq, List.reverse_reverse]
    rw [htrim, hdrop, htight.trim_eq]
  | succ semicolons =>
    have hend : Tight isBlank (src.toList ++ gap.toList ++ .replicate (semicolons + 1) ';') :=
      htight.append _ (.of_forall (by simp) (by simp; rfl))
    have hdrop : dropEndWhile (· == ';') (src.toList ++ gap.toList ++
        .replicate (semicolons + 1) ';') = src.toList ++ gap.toList :=
      dropEndWhile_append (stops_semicolon h hgap) (by simp)
    have htrim : trim (src.toList ++ gap.toList) = src.toList := by
      simpa using trim_append [] gap.toList htight (by simp) hgap
    rw [trim_append _ _ hend hlead htrail, hdrop, htrim]

/-- Every statement is read back from its canonical text, with any blanks around the text and any
number of semicolons after it. -/
theorem parse_text (h : stmt.isWritten) {lead gap trail : String} (semicolons : Nat)
    (hlead : ∀ c ∈ lead.toList, isBlank c) (hgap : ∀ c ∈ gap.toList, isBlank c)
    (htrail : ∀ c ∈ trail.toList, isBlank c) :
    parse (lead ++ stmt.text ++ gap ++ String.ofList (.replicate semicolons ';') ++ trail) =
      .ok stmt := by
  rw [parse, core_eq (tight_text h) semicolons hlead hgap htrail, read_text h]

/-- A call whose string argument looks like an assignment of another call. -/
def Sample.lookup : Stmt :=
  .assign (.element "found" (.var "i")) (.call {
    kind := .virtual
    method := {
      owner := "app.Screen"
      result := .ref "app.View"
      name := "lookup"
      params := [.ref "java.lang.String", .array .int] }
    base := some "this$0"
    args := [.str "x = \"staticinvoke \\, (", .null] })

theorem parse_text_lookup : Sample.lookup.isWritten ∧
    Sample.lookup.text = "found[i] = virtualinvoke this$0.<app.Screen: app.View " ++
      "lookup(java.lang.String,int[])>(\"x = \\\"staticinvoke \\\\, (\", null)" ∧
    parse (" " ++ Sample.lookup.text ++ " " ++ String.ofList (.replicate 2 ';') ++ "\n") =
      .ok Sample.lookup :=
  ⟨by decide, by decide, parse_text (by decide) 2
    (List.all_eq_true.mp rfl) (List.all_eq_true.mp rfl) (List.all_eq_true.mp rfl)⟩

end Stmt

end WidgetFlow
