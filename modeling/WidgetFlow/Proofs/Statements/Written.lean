import WidgetFlow.Program.Stmt.Printer
import WidgetFlow.Program.Stmt.Reader
import WidgetFlow.Proofs.Text.Pieces

/-!
# Statements that can be written

The statements whose canonical text stands for them alone. Names are made of ASCII letters, digits,
underscores and dollar signs, a class is named by such names with dots between them, and no class
has the name of another type or ends like a word that begins a call. Strings stand on one line, and
arguments are no calls themselves.

The second half says how the texts of names look.
-/

namespace WidgetFlow

/-! ## The conditions -/

namespace Text

/-- A letter, a digit, an underscore or a dollar sign. -/
def isPlain (c : Char) : Bool := isNameStart c || isAsciiDigit c

/-- Whether a text is a name that does not begin with a digit. -/
def isIdentifier : List Char → Bool
  | [] => false
  | c :: rest => isNameStart c && rest.all isPlain

/-- Whether a text is a row of identifiers with dots between them. -/
def isDotted (text : List Char) : Bool := (splitOn '.' text).all isIdentifier

end Text

open Text

/-- Whether a local can have a name: constants and returns begin in the same way as locals do. -/
def isLocalName (name : String) : Bool :=
  isIdentifier name.toList && !(["null", "true", "false", "return"].contains name)

/-- The names of types that are no classes. -/
def Ty.words : List String :=
  ["void", "boolean", "byte", "char", "short", "int", "long", "float", "double", "null_type"]

def isClassName (name : String) : Bool :=
  isDotted name.toList && !Ty.words.contains name &&
    !"invoke".toList.isSuffixOf name.toList

/-- Whether the classes in a type are well named. -/
def Ty.isWritten : Ty → Bool
  | .ref name => isClassName name
  | .array e => e.isWritten
  | _ => true

/-- Whether the names in a field are well formed. -/
def FieldRef.isWritten (field : FieldRef) : Bool :=
  isClassName field.owner && field.ty.isWritten && isIdentifier field.name.toList

/-- Whether the names in a signature are well formed. -/
def MethodSig.isWritten (sig : MethodSig) : Bool :=
  isClassName sig.owner && sig.result.isWritten &&
    (isIdentifier sig.name.toList || sig.name == "<init>") && sig.params.all Ty.isWritten

namespace Value

/-- Whether a value is a local with a well-formed name. -/
def isLocal : Value → Bool
  | .var name => isLocalName name
  | _ => false

/-- Whether a value can be written as an operand. The index of an array element is a local or a
number, and a cast is of a local. A size that is a string, which no program has, must not mention a
call. -/
def isOperand : Value → Bool
  | .var name => isLocalName name
  | .int _ => true
  | .str text => !text.toList.contains '\n'
  | .null => true
  | .staticField member => member.isWritten
  | .field base member => isLocalName base && member.isWritten
  | .element base index => isLocalName base && (index.isLocal || index.int?.isSome)
  | .new owner => isClassName owner
  | .newArray item size =>
    item.isWritten && size.isOperand && !Stmt.mentionsCall size.text.toList
  | .cast ty operand => ty.isWritten && operand.isLocal
  | .call _ => false
  | .other _ => false

end Value

/-- Whether a call can be written. It has a receiver unless it is static, and as many arguments as
its signature has parameters. -/
def Call.isWritten (call : Call Value) : Bool :=
  call.method.isWritten && call.args.length == call.method.params.length &&
    call.args.all Value.isOperand &&
    (match call.kind, call.base with
      | .static, none => true
      | .static, some _ => false
      | _, some base => isLocalName base
      | _, none => false)

def Value.isWritten : Value → Bool
  | .call expr => expr.isWritten
  | v => v.isOperand

/-- Whether a statement can be written. The index of a parameter fits in 64 bits. -/
def Stmt.isWritten : Stmt → Bool
  | .identity name (.parameter index) => isLocalName name && index < wordCount 64
  | .identity name _ => isLocalName name
  | .assign dst v => Stmt.isTarget dst && dst.isOperand && v.isWritten
  | .call expr => expr.isWritten
  | .ret none => true
  | .ret (some v) => v.isWritten
  | .other _ => false

/-! ## Names -/

namespace Text

variable {c other : Char} {text : List Char}

theorem toNat_of_isNameStart (h : isNameStart c) :
    c.toNat = 36 ∨ 65 ≤ c.toNat ∧ c.toNat ≤ 90 ∨ c.toNat = 95 ∨ 97 ≤ c.toNat ∧ c.toNat ≤ 122 := by
  simp only [isNameStart, isAsciiLetter, Bool.or_eq_true, Bool.and_eq_true, decide_eq_true_eq,
    beq_iff_eq, Char.le_def, UInt32.le_iff_toNat_le] at h
  rcases h with ((h | h) | rfl) | rfl
  · exact .inr (.inr (.inr h))
  · exact .inr (.inl h)
  · exact .inr (.inr (.inl rfl))
  · exact .inl rfl

theorem isAsciiDigit_iff : isAsciiDigit c ↔ 48 ≤ c.toNat ∧ c.toNat ≤ 57 := by
  simp only [isAsciiDigit, Bool.and_eq_true, decide_eq_true_eq, Char.le_def,
    UInt32.le_iff_toNat_le]
  exact Iff.rfl

theorem isDigit_of_isNameStart (h : isNameStart c) : isDigit c = false := by
  have hcode := toNat_of_isNameStart h
  have hascii : isAsciiDigit c = false := by
    rw [← Bool.not_eq_true, isAsciiDigit_iff]
    omega
  have hwide : ¬128 ≤ c.toNat := by omega
  simp [isDigit, hascii, hwide]

theorem isBlank_of_isPlain (h : isPlain c) : isBlank c = false := by
  have hcode : c.toNat = 36 ∨ 48 ≤ c.toNat ∧ c.toNat ≤ 57 ∨ 65 ≤ c.toNat ∧ c.toNat ≤ 90 ∨
      c.toNat = 95 ∨ 97 ≤ c.toNat ∧ c.toNat ≤ 122 := by
    rw [isPlain, Bool.or_eq_true, isAsciiDigit_iff] at h
    rcases h with h | h
    · have hs := toNat_of_isNameStart h
      omega
    · exact .inr (.inl h)
  simp only [isBlank, inRanges, blankRanges, List.any_cons, List.any_nil, Bool.or_false,
    Bool.or_eq_false_iff, Bool.and_eq_false_iff, decide_eq_false_iff_not]
  omega

theorem ne_of_isPlain (h : isPlain c) (hother : isPlain other = false) : c ≠ other := by
  rintro rfl
  exact Bool.false_ne_true (hother.symm.trans h)

/-- A character that is cut off at the ends of a statement or that follows a name in one. -/
def isEdge (c : Char) : Bool := isBlank c || c == ';' || c == ':'

theorem isBlank_of_isEdge_eq_false (h : isEdge c = false) : isBlank c = false := by
  simp only [isEdge, Bool.or_eq_false_iff] at h
  exact h.1.1

theorem Tight.blank (h : Tight isEdge text) : Tight isBlank text :=
  h.mono fun _ => isBlank_of_isEdge_eq_false

theorem isEdge_of_isPlain (h : isPlain c) : isEdge c = false := by
  have hsemicolon : c ≠ ';' := ne_of_isPlain h (by decide)
  have hcolon : c ≠ ':' := ne_of_isPlain h (by decide)
  simp [isEdge, isBlank_of_isPlain h, hsemicolon, hcolon]

theorem isNameChar_of_isPlain (h : isPlain c) : isNameChar c := by
  simp only [isPlain, isNameStart, isNameChar, isWord, Bool.or_eq_true] at h ⊢
  rcases h with ((h | h) | h) | h <;> simp [h]

theorem isPlain_of_isNameStart (h : isNameStart c) : isPlain c := by simp [isPlain, h]

theorem exists_of_isIdentifier (h : isIdentifier text) :
    ∃ c rest, text = c :: rest ∧ isNameStart c ∧ ∀ other ∈ rest, isPlain other := by
  cases text with
  | nil => simp [isIdentifier] at h
  | cons c rest => exact ⟨c, rest, rfl, by simpa [isIdentifier] using h⟩

theorem isPlain_of_mem (h : isIdentifier text) (hc : c ∈ text) : isPlain c := by
  obtain ⟨s, rest, rfl, hs, hrest⟩ := exists_of_isIdentifier h
  rcases List.mem_cons.mp hc with rfl | hc
  · exact isPlain_of_isNameStart hs
  · exact hrest c hc

theorem ne_nil_of_isIdentifier (h : isIdentifier text) : text ≠ [] := by
  rintro rfl
  simp [isIdentifier] at h

theorem tight_of_isIdentifier (h : isIdentifier text) : Tight isEdge text :=
  .of_forall (ne_nil_of_isIdentifier h) fun _ hc => isEdge_of_isPlain (isPlain_of_mem h hc)

theorem run1?_of_isIdentifier {rest : List Char} (h : isIdentifier text)
    (hrest : Stops isNameChar rest) : run1? isNameChar (text ++ rest) = some (text, rest) :=
  run1?_append (ne_nil_of_isIdentifier h)
    (fun _ hc => isNameChar_of_isPlain (isPlain_of_mem h hc)) hrest

theorem exists_mem_splitOn {separator : Char} (hc : c ∈ text) (hne : c ≠ separator) :
    ∃ piece ∈ splitOn separator text, c ∈ piece := by
  induction text with
  | nil => simp at hc
  | cons head text ih =>
    rw [splitOn]
    split
    next hnil => exact absurd hnil (splitOn_ne_nil separator text)
    next piece pieces hpieces =>
      rw [hpieces] at ih
      rcases List.mem_cons.mp hc with rfl | hc
      · rw [if_neg hne]
        exact ⟨c :: piece, List.mem_cons_self, List.mem_cons_self⟩
      · obtain ⟨found, hfound, hmem⟩ := ih hc
        split
        · exact ⟨found, List.mem_cons_of_mem _ hfound, hmem⟩
        · rcases List.mem_cons.mp hfound with rfl | hfound
          · exact ⟨head :: found, List.mem_cons_self, List.mem_cons_of_mem _ hmem⟩
          · exact ⟨found, List.mem_cons_of_mem _ hfound, hmem⟩

theorem mem_of_isDotted (h : isDotted text) (hc : c ∈ text) : isPlain c ∨ c = '.' := by
  by_cases hdot : c = '.'
  · exact .inr hdot
  · obtain ⟨piece, hpiece, hmem⟩ := exists_mem_splitOn hc hdot
    exact .inl (isPlain_of_mem (List.all_eq_true.mp h piece hpiece) hmem)

theorem exists_of_isDotted (h : isDotted text) : ∃ c rest, text = c :: rest ∧ isNameStart c := by
  cases text with
  | nil => simp [isDotted, splitOn, isIdentifier] at h
  | cons c text =>
    refine ⟨c, text, rfl, ?_⟩
    rw [isDotted, splitOn] at h
    split at h
    next => simp [isIdentifier] at h
    next =>
      split at h
      · simp [isIdentifier] at h
      · simp only [isIdentifier, List.all_cons, Bool.and_eq_true] at h
        exact h.1.1

end Text

theorem isDotted_of_isClassName {name : String} (h : isClassName name) : isDotted name.toList := by
  simp only [isClassName, Bool.and_eq_true] at h
  exact h.1.1

theorem isIdentifier_of_isLocalName {name : String} (h : isLocalName name) :
    isIdentifier name.toList := by
  rw [isLocalName, Bool.and_eq_true] at h
  exact h.1

theorem ne_words_of_isLocalName {name : String} (h : isLocalName name) :
    name.toList ≠ "null".toList ∧ name.toList ≠ "true".toList ∧ name.toList ≠ "false".toList ∧
      name.toList ≠ "return".toList := by
  simp only [isLocalName, Bool.and_eq_true, Bool.not_eq_true', List.contains_eq_mem,
    decide_eq_false_iff_not, List.mem_cons, List.not_mem_nil, or_false, not_or] at h
  simpa only [ne_eq, String.toList_inj] using h.2

end WidgetFlow
