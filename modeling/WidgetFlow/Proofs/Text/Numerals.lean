import WidgetFlow.Text.Numeral

/-!
# Reading numerals back

The digits of a number are read as that number, in base ten as in base sixteen, and a row of digits
that is read as a number has nothing but digits in it.
-/

namespace WidgetFlow.Text

variable {base n : Nat} {text : List Char} {v : Int}

theorem isAsciiDigit_of_mem_toDigits {c : Char} (h : c ∈ Nat.toDigits 10 n) : isAsciiDigit c :=
  Nat.isDigit_of_mem_toDigits (by decide) (by decide) h

theorem digitValue?_digitChar (h : n < 16) : digitValue? n.digitChar = some n := by
  have hall : ∀ n < 16, digitValue? n.digitChar = some n := by decide
  exact hall n h

/-- A number is read digit by digit. -/
theorem natFrom?_append (base v : Nat) (first second : List Char) :
    natFrom? base v (first ++ second) =
      (natFrom? base v first).bind fun v => natFrom? base v second := by
  induction first generalizing v with
  | nil => rfl
  | cons c first ih =>
    simp only [List.cons_append, natFrom?]
    split
    next =>
      split
      · exact ih _
      · rfl
    next => rfl

theorem nat?_toDigits (hbase : 1 < base) (hsmall : base ≤ 16) (n : Nat) :
    nat? base (Nat.toDigits base n) = some n := by
  have hfrom : natFrom? base 0 (Nat.toDigits base n) = some n := by
    induction n using Nat.strongRecOn with
    | ind n ih =>
      rw [Nat.toDigits_eq_if hbase]
      split
      next hlt => simp [natFrom?, digitValue?_digitChar (Nat.lt_of_lt_of_le hlt hsmall), hlt]
      next hle =>
        have hlast : n % base < base := Nat.mod_lt n (by omega)
        have hless : n / base < n := Nat.div_lt_self (by omega) hbase
        rw [natFrom?_append, ih (n / base) hless, Option.bind_some]
        simp [natFrom?, digitValue?_digitChar (Nat.lt_of_lt_of_le hlast hsmall), hlast, Nat.div_add_mod']
  cases hdigits : Nat.toDigits base n with
  | nil => exact absurd hdigits Nat.toDigits_ne_nil
  | cons c digits => rwa [hdigits] at hfrom

theorem digit_of_natFrom? {s : Nat} (h : natFrom? base s text = some n) :
    ∀ c ∈ text, ∃ digit < base, digitValue? c = some digit := by
  fun_induction natFrom? base s text with
  | case1 => simp
  | case2 s c rest digit hdigit hlt ih =>
    exact List.forall_mem_cons.mpr ⟨⟨digit, hlt, hdigit⟩, ih h⟩
  | case3 => cases h
  | case4 => cases h

/-- A row of digits has digits of the base only, and at least one. -/
theorem digits_of_nat? (h : nat? base text = some n) :
    text ≠ [] ∧ ∀ c ∈ text, ∃ digit < base, digitValue? c = some digit := by
  cases text with
  | nil => cases h
  | cons c rest => exact ⟨List.cons_ne_nil c rest, digit_of_natFrom? h⟩

theorem int?_of_nat? (h : nat? base text = some n) : int? base text = some (n : Int) := by
  have hdigits := (digits_of_nat? h).2
  unfold int?
  split
  next =>
    obtain ⟨_, _, hminus⟩ := hdigits '-' List.mem_cons_self
    exact absurd (hminus.symm.trans rfl) (Option.some_ne_none _)
  next =>
    obtain ⟨_, _, hplus⟩ := hdigits '+' List.mem_cons_self
    exact absurd (hplus.symm.trans rfl) (Option.some_ne_none _)
  next =>
    rw [h]
    rfl

/-- A text that is read as a whole number is a row of digits, with or without a sign. -/
theorem int?_cases (h : int? base text = some v) :
    ∃ digits n, nat? base digits = some n ∧
      (text = digits ∧ v = n ∨ text = '-' :: digits ∧ v = -n ∨
        text = '+' :: digits ∧ v = n) := by
  unfold int? at h
  split at h
  all_goals
    simp only [Option.map_eq_some_iff, Option.bind_eq_bind, Option.bind_eq_some_iff, Option.pure_def,
      Option.some_inj] at h
    obtain ⟨_, ⟨n, hn, rfl⟩, hvalue⟩ := h
  next digits => exact ⟨digits, n, hn, .inr (.inl ⟨rfl, hvalue.symm⟩)⟩
  next digits => exact ⟨digits, n, hn, .inr (.inr ⟨rfl, hvalue.symm⟩)⟩
  next => exact ⟨text, n, hn, .inl ⟨rfl, hvalue.symm⟩⟩

theorem intWithin?_eq_some_iff {bits : Nat} : intWithin? bits base text = some v ↔
    int? base text = some v ∧ -(wordCount (bits - 1) : Int) ≤ v ∧
      v < wordCount (bits - 1) := by
  unfold intWithin?
  cases int? base text with
  | none => simp
  | some other =>
    rw [Option.ite_none_right_eq_some, Option.some_inj, and_comm]
    refine and_congr_right ?_
    rintro rfl
    rfl

/-- A row of digits whose number fits is read as that number. -/
theorem intWithin?_of_nat? {bits : Nat} (h : nat? base text = some n)
    (hfits : n < wordCount (bits - 1)) : intWithin? bits base text = some (n : Int) :=
  intWithin?_eq_some_iff.mpr ⟨int?_of_nat? h, by omega, by omega⟩

/-- The decimal of a number is a row of digits, with a minus sign before it if it is negative. -/
theorem decimal_cases (v : Int) :
    ∃ digits n, nat? 10 digits = some n ∧
      ((decimal v).toList = digits ∧ v = n ∨ (decimal v).toList = '-' :: digits ∧ v = -n) := by
  rw [decimal, Int.toString_eq_repr, Int.repr_eq_if]
  split
  next hsign =>
    refine ⟨_, v.toNat, nat?_toDigits (by decide) (by decide) _, .inl ⟨Nat.toList_repr, ?_⟩⟩
    omega
  next hsign =>
    refine ⟨_, (-v).toNat, nat?_toDigits (by decide) (by decide) _, .inr ⟨?_, by omega⟩⟩
    rw [String.toList_append, Nat.toList_repr]
    rfl

end WidgetFlow.Text
