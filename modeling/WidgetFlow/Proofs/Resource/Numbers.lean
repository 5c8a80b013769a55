import WidgetFlow.Proofs.Scene
import WidgetFlow.Proofs.Statements.Values
import WidgetFlow.Resource.Values

/-!
# Identifiers in statements and in values files

The number of an identifier is read in two places: as an integer constant of a statement and in the
declarations of a values file. Both readers take the decimal of a word and every hexadecimal text of
its bit pattern for that word, and they never take one text for two numbers (`id_readers_agree`).
-/

namespace WidgetFlow

open Text

variable {n : Nat} {digits text : List Char} {v other : ResId} {src : String}

/-! ## Constants -/

namespace Stmt

theorem parseValue_of_readInt? (htight : Tight isEdge text) (h : readInt? text = some (.ok v)) :
    parseValue text = .ok (.int v) :=
  Value.read_of_shapeOf htight (shapeOf_of_readInt? h) (fun _ _ => rfl) _ (Nat.lt_succ_self _)

/-- Hexadecimal digits after `0x` are read as their number. -/
theorem readInt?_hex (h : nat? 16 digits = some n) (hn : n < wordCount 63) :
    readInt? ('0' :: 'x' :: digits) = some (.ok (Int32.ofInt n)) := by
  obtain ⟨hne, hdigits⟩ := digits_of_nat? h
  have hhex : isHexNumeral ('0' :: 'x' :: digits) := by
    obtain ⟨c, rest, rfl⟩ := List.exists_cons_of_ne_nil hne
    refine List.all_eq_true.mpr fun c hc => ?_
    obtain ⟨_, _, hdigit⟩ := hdigits c hc
    rw [hdigit, Option.isSome_some]
  have hwithin : intWithin? 64 16 digits = some (n : Int) := intWithin?_of_nat? h hn
  simp [readInt?, isNumeral, hhex, magnitude?, hwithin, orFault]

theorem map_ne_ok {α β : Type} {form : α → β} {res : β} (h : ∀ part, form part ≠ res) :
    ∀ part : Except StmtFault α, part.map form ≠ .ok res
  | .ok part => fun heq => h part (Except.ok.inj heq)
  | .error _ => nofun

theorem plainShape_ne_int : plainShape text ≠ .ok (.leaf (.int v)) := by
  fun_cases plainShape text
  all_goals first | exact map_ne_ok nofun _ | nofun

theorem eq_leaf_of_readShape {depth : Nat} {shape : Shape}
    (h : readShape depth shape = .ok (.int v)) : shape = .leaf (.int v) := by
  cases shape with
  | leaf => rw [Except.ok.inj h]
  | call =>
    obtain ⟨_, _, h⟩ := except_bind_eq_ok.mp h
    obtain ⟨_, _, ⟨⟩⟩ := except_bind_eq_ok.mp h
  | _ => exact absurd h (map_ne_ok nofun _)

/-- What is read as an integer is a numeral or the word for a truth value. -/
theorem readInt?_of_parseValue (h : parseValue text = .ok (.int v)) :
    trim text ∈ ["true".toList, "false".toList] ∨ readInt? (trim text) = some (.ok v) := by
  rw [parseValue, readValue_succ] at h
  obtain ⟨shape, hshape, hread⟩ := except_bind_eq_ok.mp h
  obtain rfl := eq_leaf_of_readShape hread
  revert hshape
  fun_cases shapeOf (trim text) with
  | case2 _ htrue => exact fun _ => .inl (by simp [htrue])
  | case3 _ _ hfalse => exact fun _ => .inl (by simp [hfalse])
  | case4 _ _ _ part hint =>
    rintro hshape
    cases part with
    | error => cases hshape
    | ok => cases hshape; exact .inr hint
  | case6 => exact fun h => absurd h (map_ne_ok nofun _)
  | case8 => exact fun h => absurd h plainShape_ne_int
  | _ => nofun

end Stmt

/-! ## Declarations -/

namespace Values

/-- What a declaration takes for an identifier is the same constant in a statement, or it is none:
base sixteen may be marked by `0X`, and a sign may stand after the mark or a plus before a decimal. -/
theorem readInt?_of_parseId? (h : parseId? src = some v) :
    Stmt.readInt? (trim src.toList) = some (.ok v) ∨
      Stmt.readInt? (trim src.toList) = none := by
  rw [parseId?] at h
  split at h
  all_goals
    obtain ⟨number, hwithin, rfl⟩ := Option.map_eq_some_iff.mp h
    obtain ⟨hint, hlow, hhigh⟩ := intWithin?_eq_some_iff.mp hwithin
    obtain ⟨row, n, hnat, hrow⟩ := int?_cases hint
  next digits hdigits =>
    rw [Option.orElse_eq_orElse, Option.orElse_eq_or, Option.or_eq_some_iff] at hdigits
    rcases hdigits with hlower | ⟨_, hupper⟩
    · rw [after?_eq_some_iff.mp hlower]
      rcases hrow with ⟨rfl, rfl⟩ | ⟨rfl, _⟩ | ⟨rfl, _⟩
      · exact .inl (Stmt.readInt?_hex hnat (Int.ofNat_lt.mp hhigh))
      · exact .inr rfl
      · exact .inr rfl
    · rw [after?_eq_some_iff.mp hupper]
      exact .inr rfl
  next =>
    have hbound : n < wordCount 63 := by
      have hwords : wordCount (32 - 1) = 2147483648 ∧ wordCount 63 = 9223372036854775808 := by decide
      rcases hrow with ⟨_, rfl⟩ | ⟨_, rfl⟩ | ⟨_, rfl⟩ <;> omega
    obtain ⟨hplain, hminus⟩ := Stmt.readInt?_of_nat? hnat hbound
    rcases hrow with ⟨htext, rfl⟩ | ⟨htext, rfl⟩ | ⟨htext, _⟩
    · exact .inl (htext ▸ hplain)
    · exact .inl (htext ▸ hminus)
    · exact .inr (htext ▸ rfl)

/-- Both readers never take one text for two numbers. -/
theorem eq_of_parseId? (h : parseId? src = some v)
    (hvalue : Stmt.parseValue src.toList = .ok (.int other)) : v = other := by
  rcases Stmt.readInt?_of_parseValue hvalue with hword | hother
  · simp only [List.mem_cons, List.not_mem_nil, or_false] at hword
    rcases hword with hword | hword <;> simp [parseId?, hword] at h <;> cases h
  · rcases readInt?_of_parseId? h with hint | hnone
    · cases hint.symm.trans hother
      rfl
    · cases hnone.symm.trans hother

theorem read_decimal (v : ResId) :
    Stmt.parseValue (decimal v.toInt).toList = .ok (.int v) ∧
      parseId? (decimal v.toInt) = some v := by
  have hlegible := Value.legible_int v
  have htrim := hlegible.tight.blank.trim_eq
  rw [Value.text] at htrim
  have hint : int? 10 (decimal v.toInt).toList = some v.toInt := by
    obtain ⟨digits, n, hnat, ⟨htext, hn⟩ | ⟨htext, hn⟩⟩ := decimal_cases v.toInt
    · rw [htext, hn, int?_of_nat? hnat]
    · rw [htext, hn, int?, hnat]
      rfl
  have hunmarked : ∀ mark ∈ ["0x", "0X"], after? mark (decimal v.toInt).toList = none := by
    refine fun mark hmark => Option.eq_none_iff_forall_ne_some.mpr fun rest hrest => ?_
    rw [after?_eq_some_iff.mp hrest] at hint
    rcases List.mem_pair.mp hmark with rfl | rfl <;> cases hint
  have hwithin : intWithin? 32 10 (decimal v.toInt).toList = some v.toInt :=
    intWithin?_eq_some_iff.mpr ⟨hint, v.le_toInt, v.toInt_lt⟩
  refine ⟨hlegible.read _ (Nat.lt_succ_self _), ?_⟩
  simp [parseId?, htrim, hunmarked "0x", hunmarked "0X", hwithin]

theorem isPlain_of_digitValue? {c : Char} {digit : Nat} (h : digitValue? c = some digit) :
    isPlain c := by
  have hlower : c ≤ 'f' → c ≤ 'z' := fun hc => Char.le_trans hc (by decide)
  have hupper : c ≤ 'F' → c ≤ 'Z' := fun hc => Char.le_trans hc (by decide)
  grind [digitValue?, isPlain, isNameStart, isAsciiLetter]

/-- The hexadecimal digits of a bit pattern, in either case and after any number of zeros, are read as
the word that has it. -/
theorem read_hex (h : nat? 16 digits = some v.toUInt32.toNat) :
    Stmt.parseValue ('0' :: 'x' :: digits) = .ok (.int v) ∧
      parseId? (String.ofList ('0' :: 'x' :: digits)) = some v := by
  have hvalue : Int32.ofInt (v.toUInt32.toNat : Int) = v := by
    rw [← Int32.toBitVec_inj]
    simp
  have hsmall : v.toUInt32.toNat < wordCount 63 := v.toUInt32.toNat_lt.trans (by decide)
  have htight : Tight isEdge ('0' :: 'x' :: digits) := by
    refine .of_forall (List.cons_ne_nil _ _) (List.forall_mem_cons.mpr ⟨rfl, ?_⟩)
    refine List.forall_mem_cons.mpr ⟨rfl, fun c hc => ?_⟩
    obtain ⟨_, _, hdigit⟩ := (digits_of_nat? h).2 c hc
    exact isEdge_of_isPlain (isPlain_of_digitValue? hdigit)
  have hwithin : intWithin? 64 16 digits = some (v.toUInt32.toNat : Int) :=
    intWithin?_of_nat? h hsmall
  refine ⟨Stmt.parseValue_of_readInt? htight ?_, ?_⟩
  · rw [Stmt.readInt?_hex h hsmall, hvalue]
  · simp [parseId?, htight.blank.trim_eq, after?, dropLiteral?, hwithin, hvalue]

end Values

/-- The decimal of a word and every hexadecimal text of its bit pattern are read as that word, by
statements and by declarations, and a text that both read as a word is the same word for both. -/
theorem id_readers_agree :
    (∀ v : ResId, Stmt.parseValue (decimal v.toInt).toList = .ok (.int v) ∧
      Values.parseId? (decimal v.toInt) = some v) ∧
    (∀ (v : ResId) (digits : List Char), nat? 16 digits = some v.toUInt32.toNat →
      Stmt.parseValue ('0' :: 'x' :: digits) = .ok (.int v) ∧
        Values.parseId? (String.ofList ('0' :: 'x' :: digits)) = some v) ∧
    (∀ v : ResId, Stmt.parseValue (hexWord v).toList = .ok (.int v) ∧
      Values.parseId? (hexWord v) = some v) ∧
    ∀ src v other, Values.parseId? src = some v →
      Stmt.parseValue src.toList = .ok (.int other) → v = other := by
  refine ⟨Values.read_decimal, fun _ _ => Values.read_hex, fun v => ?_,
    fun _ _ _ => Values.eq_of_parseId?⟩
  have hread := Values.read_hex (nat?_toDigits (by decide) (by decide) v.toUInt32.toNat)
  simpa [hexWord, hexDigits] using hread

/-- The identifier -2 in hexadecimal digits of both cases, after zeros. -/
theorem id_readers_agree_negative :
    Text.nat? 16 "00FFfffffE".toList = some (-2 : ResId).toUInt32.toNat ∧
      Stmt.parseValue "0x00FFfffffE".toList = .ok (.int (-2)) ∧
      Values.parseId? "0x00FFfffffE" = some (-2) := by
  have hdigits : Text.nat? 16 "00FFfffffE".toList = some (-2 : ResId).toUInt32.toNat := by decide
  exact ⟨hdigits, id_readers_agree.2.1 (-2) "00FFfffffE".toList hdigits⟩

end WidgetFlow
